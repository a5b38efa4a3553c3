import PsiphonAndroid.Lib.Bytes
import PsiphonAndroid.Lib.Transition
import Mathlib.Logic.Function.Basic

/-!
# TCP clients of tun2socks

`struct tcp_client` of `tun2socks/tun2socks.c` and its functions: a TCP connection that lwIP accepted from an application is
relayed through a SOCKS connection. Data from lwIP goes into `buf` and from there to SOCKS; data from SOCKS goes into
`socks_recv_buf` and from there to lwIP, which confirms it with `client_sent_func`.

What can go wrong is a fault: an `ASSERT` that does not hold, the client used after `free`, the pcb used after it was closed, the
SOCKS client used after it was freed, an interface used while it is busy, and the close functions calling each other without end.
lwIP's answers and what happens inside a `SYNC_COMMIT` are part of the events. Beside the fields of the source a client carries
its environment (which of its pcb and SOCKS client are there, which callbacks are set, which operations are under way) and its
history (the bytes of each stream so far, and how its two sides ended).
-/

namespace PsiphonAndroid

open Lib

/-- `TCP_WND`: four times `TCP_MSS`. -/
abbrev tcpWnd : Nat := 4 * 1460

/-- `CLIENT_SOCKS_RECV_BUF_SIZE`. -/
abbrev clientSocksRecvBufSize : Nat := 8192

/-- What went wrong. -/
inductive TcpFault where
  | assertion
  | useAfterFree
  | pcbAfterClose
  | socksAfterFree
  | interfaceBusy
  | nesting
  deriving DecidableEq

/-- How the SOCKS side ended: with nothing left to send to it after the client side closed, by an event of its own, or at
shutdown. -/
inductive SocksEnd where
  | drained
  | failed
  | murdered
  deriving DecidableEq

/-- How the client side ended: closed by this program (with the SOCKS side closed before or not), aborted because lwIP did not
take data, freed by lwIP, or at shutdown. -/
inductive PcbEnd where
  | closed (afterSocks : Bool)
  | aborted
  | lost
  | murdered
  deriving DecidableEq

/-- `struct tcp_client`. `deadClient` is the variable `dead_client` points to. -/
structure TcpClient where
  deadClient : Bool
  clientClosed : Bool
  buf : Bytes
  bufUsed : Nat
  socksUp : Bool
  socksClosed : Bool
  socksRecvBuf : Bytes
  socksRecvBufUsed : Int
  socksRecvBufSent : Nat
  socksRecvWaiting : Bool
  socksRecvTcpPending : Nat
  /-- The pcb is there: neither closed nor aborted nor freed by lwIP. -/
  pcb : Bool
  errFunc : Bool
  recvFunc : Bool
  sentFunc : Bool
  /-- The SOCKS client is there: not freed. -/
  socksClient : Bool
  /-- The length of the send under way. -/
  sending : Option Nat
  receiving : Bool
  freed : Bool
  /-- The bytes `client_recv_func` took. -/
  delivered : Bytes
  /-- The bytes whose sending to SOCKS was completed. -/
  toSocks : Bytes
  /-- The sum of the arguments of `tcp_recved`. -/
  recved : Nat
  /-- The bytes received from SOCKS. -/
  fromSocks : Bytes
  /-- The bytes `tcp_write` took. -/
  written : Bytes
  /-- The sum of the arguments of `client_sent_func`. -/
  acked : Nat
  pcbEnd : Option PcbEnd
  socksEnd : Option SocksEnd
  deriving DecidableEq

/-- `ERR_OK`, `ERR_MEM`, `ERR_ABRT`. -/
inductive ErrT where
  | ok
  | mem
  | abrt
  deriving DecidableEq

/-- An answer of lwIP in the loop of `client_socks_recv_send_out`: what `tcp_sndbuf` gives, and what `tcp_write` returns (`ERR_OK`,
`ERR_MEM`, or another error). -/
structure WriteAnswer where
  sndbuf : Nat
  write : Option ErrT
  deriving DecidableEq

/-- What lwIP answers in one `client_socks_recv_send_out`; past the end of the list `tcp_sndbuf` gives 0. -/
structure LwipAnswers where
  writes : List WriteAnswer
  outputOk : Bool
  deriving DecidableEq

/-- What the SOCKS client reports: `BSOCKSCLIENT_EVENT_UP`, `BSOCKSCLIENT_EVENT_ERROR`, `BSOCKSCLIENT_EVENT_ERROR_CLOSED`, the end of
a send and the end of a receive. -/
inductive SocksReport where
  | up
  | error
  | closed
  | sendDone (len : Nat)
  | recvDone (data : Bytes) (lwip : LwipAnswers)
  deriving DecidableEq

namespace TcpClient

/-- `ASSERT`, and the checks for what must be there. -/
def check (b : Bool) (f : TcpFault) : Except TcpFault Unit := if b then .ok () else .error f

/-- `tcp_err`, `tcp_recv` and `tcp_sent` with no function. -/
def removeCallbacks (c : TcpClient) : Except TcpFault TcpClient := do
  check c.pcb .pcbAfterClose
  return { c with
    errFunc := false
    recvFunc := false
    sentFunc := false }

/-- `BSocksClient_Free`: what is under way is dropped. -/
def socksClientFree (c : TcpClient) : Except TcpFault TcpClient := do
  check c.socksClient .socksAfterFree
  return { c with
    socksClient := false
    sending := none
    receiving := false }

/-- `StreamPassInterface_Sender_Send` of `buf_used` bytes. -/
def senderSend (c : TcpClient) : Except TcpFault TcpClient := do
  check c.socksClient .socksAfterFree
  check c.sending.isNone .interfaceBusy
  check (0 < c.bufUsed) .assertion
  return { c with sending := some c.bufUsed }

/-- `StreamRecvInterface_Receiver_Recv`. -/
def receiverRecv (c : TcpClient) : Except TcpFault TcpClient := do
  check c.socksClient .socksAfterFree
  check (!c.receiving) .interfaceBusy
  return { c with receiving := true }

/-- `client_dealloc`; the counter and the list of clients follow in `Tun2Socks.collect`. -/
def clientDealloc (c : TcpClient) : Except TcpFault TcpClient := do
  check (!c.freed) .useAfterFree
  check c.clientClosed .assertion
  check c.socksClosed .assertion
  return { c with freed := true }

/-- The start of `client_free_socks`: stop receiving from the client, where SOCKS was up and the client side is open. -/
def stopReceiving (c : TcpClient) : Except TcpFault TcpClient :=
  if c.socksUp ∧ c.clientClosed = false then do
    check c.pcb .pcbAfterClose
    return { c with recvFunc := false }
  else return c

/-! The close functions call each other; `fuel` bounds the depth. -/

mutual

/-- `client_handle_freed_client`. -/
def clientHandleFreedClient : Nat → TcpClient → Except TcpFault TcpClient
  | 0, _ => .error .nesting
  | fuel + 1, c => do
    check (!c.freed) .useAfterFree
    check (!c.clientClosed) .assertion
    let c := { c with
      deadClient := true
      clientClosed := true }
    if 0 < c.bufUsed ∧ c.socksClosed = false then return c
    else if c.socksClosed = false then clientFreeSocks fuel .drained c
    else clientDealloc c

/-- `client_free_client`: where `tcp_close` fails the pcb is aborted, so it is gone in any case. -/
def clientFreeClient : Nat → TcpClient → Except TcpFault TcpClient
  | 0, _ => .error .nesting
  | fuel + 1, c => do
    check (!c.freed) .useAfterFree
    check (!c.clientClosed) .assertion
    let c ← removeCallbacks c
    clientHandleFreedClient fuel { c with
      pcb := false
      pcbEnd := some (.closed c.socksClosed) }

/-- `client_free_socks`; `why` is for the history. -/
def clientFreeSocks : Nat → SocksEnd → TcpClient → Except TcpFault TcpClient
  | 0, _, _ => .error .nesting
  | fuel + 1, why, c => do
    check (!c.freed) .useAfterFree
    check (!c.socksClosed) .assertion
    let c ← stopReceiving c
    let c ← socksClientFree c
    let c := { c with
      socksClosed := true
      socksEnd := some why }
    if c.socksUp ∧ (0 ≤ c.socksRecvBufUsed ∨ 0 < c.socksRecvTcpPending) ∧ c.clientClosed = false then return c
    else if c.clientClosed = false then clientFreeClient fuel c
    else clientDealloc c

end

/-- Enough for every nesting of the close functions. -/
abbrev closeDepth : Nat := 4

/-- `client_abort_client`. -/
def clientAbortClient (c : TcpClient) : Except TcpFault TcpClient := do
  check (!c.freed) .useAfterFree
  check (!c.clientClosed) .assertion
  let c ← removeCallbacks c
  clientHandleFreedClient closeDepth { c with
    pcb := false
    pcbEnd := some .aborted }

/-- `client_murder`. -/
def clientMurder (c : TcpClient) : Except TcpFault TcpClient := do
  check (!c.freed) .useAfterFree
  let c ← if c.clientClosed = false then do
      let c ← removeCallbacks c
      pure { c with
        pcb := false
        pcbEnd := some .murdered
        deadClient := true
        clientClosed := true }
    else pure c
  let c ← if c.socksClosed = false then do
      let c ← socksClientFree c
      pure { c with
        socksClosed := true
        socksEnd := some .murdered }
    else pure c
  clientDealloc c

/-- `client_err_func`: lwIP has freed the pcb before. -/
def clientErrFunc (c : TcpClient) : Except TcpFault TcpClient := do
  check (!c.freed) .useAfterFree
  check (!c.clientClosed) .assertion
  clientHandleFreedClient closeDepth c

/-- `client_send_to_socks`. -/
def clientSendToSocks (c : TcpClient) : Except TcpFault TcpClient := do
  check (!c.freed) .useAfterFree
  check (!c.socksClosed) .assertion
  check c.socksUp .assertion
  check (0 < c.bufUsed) .assertion
  senderSend c

/-- `client_socks_send_handler_done`. -/
def clientSocksSendHandlerDone (c : TcpClient) (dataLen : Nat) : Except TcpFault TcpClient := do
  check (!c.freed) .useAfterFree
  check (!c.socksClosed) .assertion
  check c.socksUp .assertion
  check (0 < c.bufUsed) .assertion
  check (0 < dataLen) .assertion
  check (dataLen ≤ c.bufUsed) .assertion
  let c := { c with
    buf := memmove c.buf 0 dataLen (c.bufUsed - dataLen)
    bufUsed := c.bufUsed - dataLen }
  let c ← if c.clientClosed = false then do
      check c.pcb .pcbAfterClose
      pure { c with recved := c.recved + dataLen }
    else pure c
  if 0 < c.bufUsed then senderSend c
  else if c.clientClosed then clientFreeSocks closeDepth .drained c
  else return c

/-- `client_socks_recv_initiate`. -/
def clientSocksRecvInitiate (c : TcpClient) : Except TcpFault TcpClient := do
  check (!c.freed) .useAfterFree
  check (!c.clientClosed) .assertion
  check (!c.socksClosed) .assertion
  check c.socksUp .assertion
  check (c.socksRecvBufUsed == -1) .assertion
  receiverRecv c

/-- The loop of `client_socks_recv_send_out`, to its end or to a `break`; `false` when `tcp_write` failed otherwise. -/
def sendOutLoop : List WriteAnswer → TcpClient → TcpClient × Bool
  | [], c => (c, true)
  | a :: answers, c =>
    let toWrite := min (c.socksRecvBufUsed.toNat - c.socksRecvBufSent) a.sndbuf
    if toWrite = 0 then (c, true) else
    match a.write with
    | some .ok =>
      let c := { c with
        written := c.written ++ slice c.socksRecvBuf c.socksRecvBufSent toWrite
        socksRecvBufSent := c.socksRecvBufSent + toWrite
        socksRecvTcpPending := c.socksRecvTcpPending + toWrite }
      if (c.socksRecvBufSent : Int) < c.socksRecvBufUsed then sendOutLoop answers c else (c, true)
    | some .mem => (c, true)
    | _ => (c, false)

/-- `client_socks_recv_send_out`, with its result: `false` stands for -1, the pcb was aborted. -/
def clientSocksRecvSendOut (c : TcpClient) (lwip : LwipAnswers) : Except TcpFault (TcpClient × Bool) := do
  check (!c.freed) .useAfterFree
  check (!c.clientClosed) .assertion
  check c.socksUp .assertion
  check (0 < c.socksRecvBufUsed) .assertion
  check ((c.socksRecvBufSent : Int) < c.socksRecvBufUsed) .assertion
  check (!c.socksRecvWaiting) .assertion
  check c.pcb .pcbAfterClose
  let (c, written) := sendOutLoop lwip.writes c
  if written = false ∨ lwip.outputOk = false then do
    let c ← clientAbortClient c
    return (c, false)
  else if (c.socksRecvBufSent : Int) < c.socksRecvBufUsed then
    if c.socksRecvTcpPending = 0 then do
      let c ← clientAbortClient c
      return (c, false)
    else return ({ c with socksRecvWaiting := true }, true)
  else return ({ c with socksRecvBufUsed := -1 }, true)

/-- `client_socks_recv_handler_done`. -/
def clientSocksRecvHandlerDone (c : TcpClient) (dataLen : Nat) (lwip : LwipAnswers) : Except TcpFault TcpClient := do
  check (!c.freed) .useAfterFree
  check (0 < dataLen) .assertion
  check (dataLen ≤ clientSocksRecvBufSize) .assertion
  check (!c.socksClosed) .assertion
  check c.socksUp .assertion
  check (c.socksRecvBufUsed == -1) .assertion
  if c.clientClosed then return c else
  let c := { c with
    socksRecvBufUsed := dataLen
    socksRecvBufSent := 0
    socksRecvWaiting := false }
  let (c, queued) ← clientSocksRecvSendOut c lwip
  if queued = false then return c else
  if c.socksRecvBufUsed = -1 then clientSocksRecvInitiate c else return c

/-- `client_socks_handler` for `BSOCKSCLIENT_EVENT_UP`. -/
def clientSocksUp (c : TcpClient) : Except TcpFault TcpClient := do
  check (!c.freed) .useAfterFree
  check (!c.socksClosed) .assertion
  check (!c.socksUp) .assertion
  let c := { c with
    socksRecvBufUsed := -1
    socksRecvTcpPending := 0 }
  let c ← if c.clientClosed = false then do
      check c.pcb .pcbAfterClose
      pure { c with sentFunc := true }
    else pure c
  let c := { c with socksUp := true }
  let c ← if 0 < c.bufUsed then clientSendToSocks c else pure c
  if c.clientClosed = false then clientSocksRecvInitiate c else return c

/-- `client_socks_handler` for `BSOCKSCLIENT_EVENT_ERROR` and `BSOCKSCLIENT_EVENT_ERROR_CLOSED`. -/
def clientSocksDown (c : TcpClient) (closed : Bool) : Except TcpFault TcpClient := do
  check (!c.freed) .useAfterFree
  check (!c.socksClosed) .assertion
  check (!closed || c.socksUp) .assertion
  clientFreeSocks closeDepth .failed c

/-- One report of the SOCKS client, where it can come. The data of a completed send was read from `buf`, that of a completed
receive was put into `socks_recv_buf`. -/
def socksStep (c : TcpClient) : SocksReport → Option (Except TcpFault TcpClient)
  | .up => if c.socksClient ∧ c.socksUp = false then some c.clientSocksUp else none
  | .error => if c.socksClient then some (c.clientSocksDown false) else none
  | .closed => if c.socksClient ∧ c.socksUp then some (c.clientSocksDown true) else none
  | .sendDone len =>
    if 0 < len ∧ len ≤ c.sending.getD 0 then
      some (clientSocksSendHandlerDone { c with
        sending := none
        toSocks := c.toSocks ++ slice c.buf 0 len } len)
    else none
  | .recvDone data lwip =>
    if c.receiving ∧ 0 < data.length ∧ data.length ≤ clientSocksRecvBufSize then
      some (clientSocksRecvHandlerDone { c with
        receiving := false
        socksRecvBuf := memcpy c.socksRecvBuf 0 data
        fromSocks := c.fromSocks ++ data } data.length lwip)
    else none

/-- `SYNC_COMMIT`: the jobs scheduled since, that is the given reports as far as they can come. -/
def syncCommit : List SocksReport → TcpClient → Except TcpFault TcpClient
  | [], c => .ok c
  | e :: es, c =>
    match c.socksStep e with
    | none => .ok c
    | some (.error f) => .error f
    | some (.ok c) => syncCommit es c

/-- `DEAD_ENTER`, `SYNC_COMMIT`, `DEAD_LEAVE2`: the result says what the callback returns. The client is touched again only where
its dead variable was not killed. -/
def syncWatched (c : TcpClient) (sync : List SocksReport) : Except TcpFault (TcpClient × ErrT) := do
  let c ← syncCommit sync { c with deadClient := false }
  if c.deadClient then return (c, .abrt) else
  check (!c.freed) .useAfterFree
  return (c, .ok)

/-- `client_recv_func`; `none` is a null pbuf. -/
def clientRecvFunc (c : TcpClient) (p : Option Bytes) (sync : List SocksReport) : Except TcpFault (TcpClient × ErrT) := do
  check (!c.freed) .useAfterFree
  check (!c.clientClosed) .assertion
  match p with
  | none => do
    let c ← clientFreeClient closeDepth c
    return (c, .abrt)
  | some data => do
    check (0 < data.length) .assertion
    if tcpWnd - c.bufUsed < data.length then return (c, .mem) else
    let c := { c with
      buf := memcpy c.buf c.bufUsed data
      bufUsed := c.bufUsed + data.length
      delivered := c.delivered ++ data }
    if c.bufUsed = data.length ∧ c.socksUp then do
      check (!c.socksClosed) .assertion
      let c ← clientSendToSocks c
      syncWatched c sync
    else return (c, .ok)

/-- `client_sent_func`. -/
def clientSentFunc (c : TcpClient) (len : Nat) (lwip : LwipAnswers) (sync : List SocksReport) :
    Except TcpFault (TcpClient × ErrT) := do
  check (!c.freed) .useAfterFree
  check (!c.clientClosed) .assertion
  check c.socksUp .assertion
  check (0 < len) .assertion
  check (len ≤ c.socksRecvTcpPending) .assertion
  let c := { c with
    socksRecvTcpPending := c.socksRecvTcpPending - len
    acked := c.acked + len }
  if (0 : Int) < c.socksRecvBufUsed then do
    check c.socksRecvWaiting .assertion
    check ((c.socksRecvBufSent : Int) < c.socksRecvBufUsed) .assertion
    let (c, queued) ← clientSocksRecvSendOut { c with socksRecvWaiting := false } lwip
    if queued = false then return (c, .abrt) else
    check (0 < c.socksRecvTcpPending) .assertion
    if c.socksRecvBufUsed = -1 ∧ c.socksClosed = false then do
      let c ← clientSocksRecvInitiate c
      syncWatched c sync
    else return (c, .ok)
  else if c.socksClosed ∧ c.socksRecvTcpPending = 0 then do
    let c ← clientFreeClient closeDepth c
    return (c, .abrt)
  else return (c, .ok)

/-- The client `listener_accept_func` sets up; the fields it does not set hold anything. -/
def accepted (buf socksRecvBuf : Bytes) (socksRecvBufUsed : Int) (socksRecvBufSent : Nat) (socksRecvWaiting : Bool)
    (socksRecvTcpPending : Nat) : TcpClient where
  deadClient := false
  clientClosed := false
  buf := buf
  bufUsed := 0
  socksUp := false
  socksClosed := false
  socksRecvBuf := socksRecvBuf
  socksRecvBufUsed := socksRecvBufUsed
  socksRecvBufSent := socksRecvBufSent
  socksRecvWaiting := socksRecvWaiting
  socksRecvTcpPending := socksRecvTcpPending
  pcb := true
  errFunc := true
  recvFunc := true
  sentFunc := false
  socksClient := true
  sending := none
  receiving := false
  freed := false
  delivered := []
  toSocks := []
  recved := 0
  fromSocks := []
  written := []
  acked := 0
  pcbEnd := none
  socksEnd := none

end TcpClient

/-! ## Runs -/

/-- What happens to a client: `client_recv_func`, `client_sent_func` and `client_err_func` are called by lwIP, the first two with
the reports that come during their `SYNC_COMMIT`; or the SOCKS client reports something. -/
inductive TcpEvent where
  | recv (p : Option Bytes) (sync : List SocksReport)
  | sent (len : Nat) (lwip : LwipAnswers) (sync : List SocksReport)
  | err
  | socks (e : SocksReport)
  deriving DecidableEq

/-- One event, where it can come. lwIP calls a function that is set on a pcb that is there; it delivers no more than the window
opened by `tcp_recved`, confirms only what `tcp_write` took and it has not confirmed, and calls the error function when it freed
the pcb. -/
def TcpClient.step (c : TcpClient) : TcpEvent → Option (Except TcpFault TcpClient)
  | .recv p sync =>
    if c.pcb ∧ c.recvFunc ∧ ∀ data ∈ p, 0 < data.length ∧ c.delivered.length + data.length ≤ tcpWnd + c.recved then
      some ((c.clientRecvFunc p sync).map Prod.fst)
    else none
  | .sent len lwip sync =>
    if c.pcb ∧ c.sentFunc ∧ 0 < len ∧ c.acked + len ≤ c.written.length then
      some ((c.clientSentFunc len lwip sync).map Prod.fst)
    else none
  | .err =>
    if c.pcb ∧ c.errFunc then
      some (TcpClient.clientErrFunc { c with
        pcb := false
        errFunc := false
        recvFunc := false
        sentFunc := false
        pcbEnd := some .lost })
    else none
  | .socks e => c.socksStep e

/-- The clients in memory, `tcp_clients`, `num_clients`, and the clients passed to `client_dealloc` so far. -/
structure Tun2Socks where
  clients : Nat → TcpClient
  nextClient : Nat
  tcpClients : List Nat
  numClients : Nat
  deallocs : List Nat

/-- What happens to the program: `listener_accept_func` makes a client in memory that holds anything, with the reports during its
`SYNC_COMMIT`, or fails; something happens to a client; a client is murdered. -/
inductive TunEvent where
  | accept (initOk : Bool) (buf socksRecvBuf : Bytes) (used : Int) (sent : Nat) (waiting : Bool) (pending : Nat)
      (sync : List SocksReport)
  | client (id : Nat) (e : TcpEvent)
  | murder (id : Nat)
  deriving DecidableEq

namespace Tun2Socks

/-- A function of the client returned. The part of `client_dealloc` on the counter and the list is done here: no function of the
client looks at them in between. -/
def collect (w : Tun2Socks) (id : Nat) (c : TcpClient) : Except TcpFault Tun2Socks :=
  let w' := { w with clients := Function.update w.clients id c }
  if c.freed ∧ (w.clients id).freed = false then
    if w.numClients = 0 then .error .assertion else
    if id ∉ w.tcpClients then .error .useAfterFree else
    .ok { w' with
      numClients := w.numClients - 1
      tcpClients := w.tcpClients.erase id
      deallocs := w.deallocs ++ [id] }
  else .ok w'

/-- The outcome of a function of the client, in the program. -/
def afterCall (w : Tun2Socks) (id : Nat) (r : Except TcpFault TcpClient) : Except TcpFault Tun2Socks :=
  match r with
  | .error f => .error f
  | .ok c => w.collect id c

/-- One event. -/
def step (w : Tun2Socks) : TunEvent → Option (Except TcpFault Tun2Socks)
  | .accept initOk buf socksRecvBuf used sent waiting pending sync =>
    if initOk = false then some (.ok w) else
    if buf.length = tcpWnd ∧ socksRecvBuf.length = clientSocksRecvBufSize then
      let id := w.nextClient
      let c := TcpClient.accepted buf socksRecvBuf used sent waiting pending
      let w := { w with
        clients := Function.update w.clients id c
        nextClient := id + 1
        tcpClients := w.tcpClients ++ [id]
        numClients := w.numClients + 1 }
      some (w.afterCall id ((c.syncWatched sync).map Prod.fst))
    else none
  | .client id e => if id < w.nextClient then ((w.clients id).step e).map (w.afterCall id) else none
  | .murder id => if id ∈ w.tcpClients then some (w.afterCall id (w.clients id).clientMurder) else none

end Tun2Socks

/-- The program from its start, under every sequence of events; a fault ends the run. -/
def tunSystem : System (Except TcpFault Tun2Socks) TunEvent where
  init s := ∃ clients, s = .ok ⟨clients, 0, [], 0, []⟩
  step s e :=
    match s with
    | .error _ => none
    | .ok w => w.step e

end PsiphonAndroid
