import PsiphonAndroid.UdpGw.Effects
import PsiphonAndroid.Socks.Client
import PsiphonAndroid.Lib.Transition

/-!
# The session with the UDP gateway

`tun2socks/SocksUdpGwClient.c`: a `UdpGwClient` over a SOCKS connection that is made again after every failure. The SOCKS client, the
decoder of the server's stream and the reconnect timer are objects with a life of their own: initialising one that is there or freeing
one that is not is a fault, as is an `ASSERT` that does not hold. They call their handlers only while they are there, and the handlers
free them on the way.
-/

namespace PsiphonAndroid

open Lib

/-- `TIMER_STATE_*` of `BReactor_badvpn.c`. -/
inductive TimerState where
  | inactive
  | running
  | expired
  deriving DecidableEq

/-- `BTimer_IsRunning`. -/
def TimerState.isRunning (t : TimerState) : Bool := t ≠ .inactive

/-- What goes wrong. -/
inductive SessionFault where
  | assertion
  | initTwice
  | freeTwice
  | udpgw (f : UdpGwFault)
  deriving DecidableEq

/-- `SocksUdpGwClient`. `socksClient` is the SOCKS client where it is initialised, with whether it reported that it is up; `recvDecoder`
tells whether the decoder of `udpgw_client` is initialised. `freed` is set by `SocksUdpGwClient_Free`. -/
structure SocksUdpGwClient where
  udpgwClient : UdpGwClient
  reconnectTimer : TimerState
  haveSocks : Bool
  socksUp : Bool
  socksClient : Option Bool
  recvDecoder : Bool
  freed : Bool

namespace SocksUdpGwClient

/-- `ASSERT`, and the checks of the objects' lives. -/
def ensure (b : Bool) (f : SessionFault) : Except SessionFault Unit := if b then .ok () else .error f

/-- The outcome of a function of `udpgw_client`; its acts concern the connections. -/
def withUdpgw (o : SocksUdpGwClient) : UdpGwClient.Outcome → Except SessionFault SocksUdpGwClient
  | .ok (udpgwClient, _) => .ok { o with udpgwClient := udpgwClient }
  | .error f => .error (.udpgw f)

/-- `BReactor_SetTimer`: a timer that is set already is unlinked first. -/
def setTimer (o : SocksUdpGwClient) : SocksUdpGwClient := { o with reconnectTimer := .running }

/-- `BSocksClient_Init`; `initOk` says whether it succeeds. -/
def socksClientInit (o : SocksUdpGwClient) (initOk : Bool) : Except SessionFault SocksUdpGwClient := do
  ensure o.socksClient.isNone .initTwice
  return if initOk then { o with socksClient := some false } else o

/-- `BSocksClient_Free`. -/
def socksClientFree (o : SocksUdpGwClient) : Except SessionFault SocksUdpGwClient := do
  ensure o.socksClient.isSome .freeTwice
  return { o with socksClient := none }

/-- `UdpGwClient_ConnectServer`, with its decoder; the answer is whether it succeeds. -/
def connectServer (o : SocksUdpGwClient) (decoderOk : Bool) : Except SessionFault (SocksUdpGwClient × Bool) := do
  let o ← o.withUdpgw (o.udpgwClient.connectServer decoderOk)
  ensure (!o.recvDecoder) .initTwice
  return ({ o with recvDecoder := decoderOk }, decoderOk)

/-- `free_server` of `UdpGwClient.c`. -/
def freeServer (o : SocksUdpGwClient) : Except SessionFault SocksUdpGwClient := do
  ensure o.recvDecoder .freeTwice
  return { o with recvDecoder := false }

/-- `UdpGwClient_DisconnectServer`. -/
def disconnectServer (o : SocksUdpGwClient) : Except SessionFault SocksUdpGwClient := do
  let o ← o.withUdpgw o.udpgwClient.disconnectServer
  o.freeServer

/-- `free_socks`. -/
def freeSocks (o : SocksUdpGwClient) : Except SessionFault SocksUdpGwClient := do
  ensure o.haveSocks .assertion
  let o ← if o.socksUp then o.disconnectServer else pure o
  let o ← o.socksClientFree
  return { o with haveSocks := false }

/-- `try_connect`. -/
def tryConnect (o : SocksUdpGwClient) (initOk : Bool) : Except SessionFault SocksUdpGwClient := do
  ensure (!o.haveSocks) .assertion
  ensure (!o.reconnectTimer.isRunning) .assertion
  let o ← o.socksClientInit initOk
  return if initOk then { o with haveSocks := true, socksUp := false } else o.setTimer

/-- `reconnect_timer_handler`. -/
def reconnectTimerHandler (o : SocksUdpGwClient) (initOk : Bool) : Except SessionFault SocksUdpGwClient := do
  ensure (!o.haveSocks) .assertion
  o.tryConnect initOk

/-- `free_socks` and the reconnect timer, the end of every failure. -/
def freeSocksAndRetry (o : SocksUdpGwClient) : Except SessionFault SocksUdpGwClient := do
  let o ← o.freeSocks
  return o.setTimer

/-- `socks_client_handler`. -/
def socksClientHandler (o : SocksUdpGwClient) (event : SocksEvent) (decoderOk : Bool) : Except SessionFault SocksUdpGwClient := do
  ensure o.haveSocks .assertion
  match event with
  | .up => do
    ensure (!o.socksUp) .assertion
    let (o, connected) ← o.connectServer decoderOk
    if connected then return { o with socksUp := true } else o.freeSocksAndRetry
  | .error | .errorClosed => o.freeSocksAndRetry

/-- `udpgw_handler_servererror`. -/
def udpgwHandlerServererror (o : SocksUdpGwClient) : Except SessionFault SocksUdpGwClient := do
  ensure o.haveSocks .assertion
  ensure o.socksUp .assertion
  o.freeSocksAndRetry

/-- `decoder_handler_error` of `UdpGwClient.c`. -/
def decoderHandlerError (o : SocksUdpGwClient) : Except SessionFault SocksUdpGwClient := do
  ensure o.udpgwClient.haveServer .assertion
  o.udpgwHandlerServererror

/-- `SocksUdpGwClient_Init` where `UdpGwClient_Init` succeeds. `memory` is what `socks_up` held before: only `try_connect` sets it. -/
def init (udpMtu maxConnections : Nat) (memory initOk : Bool) : Except SessionFault SocksUdpGwClient :=
  tryConnect ⟨UdpGwClient.init udpMtu maxConnections, .inactive, false, memory, none, false, false⟩ initOk

/-- `UdpGwClient_Free`. -/
def udpgwClientFree (o : SocksUdpGwClient) : Except SessionFault SocksUdpGwClient :=
  let o := { o with udpgwClient := UdpGwClient.freeConnections o.udpgwClient.numConnections o.udpgwClient }
  if o.udpgwClient.haveServer then o.freeServer else .ok o

/-- `SocksUdpGwClient_Free`. -/
def free (o : SocksUdpGwClient) : Except SessionFault SocksUdpGwClient := do
  let o ← if o.haveSocks then o.freeSocks else pure o
  let o ← { o with reconnectTimer := .inactive }.udpgwClientFree
  return { o with freed := true }

end SocksUdpGwClient

/-! ## Runs -/

/-- What happens to the session: the SOCKS client reports, the decoder finds an error, the timer expires and is dispatched, a datagram
is submitted, a packet of the server is decoded, the buffer of a connection has room again; and the session is freed. The outcomes of
`BSocksClient_Init` and of the initialisation of the decoder are part of the event. -/
inductive SessionEvent where
  | socks (event : SocksEvent) (decoderOk : Bool)
  | decoderError
  | timerExpires
  | timerDispatched (initOk : Bool)
  | submit (localAddr remoteAddr : BAddr) (isDns : Bool) (data : Bytes) (mallocOk flowOk : Bool)
  | receive (data : Bytes)
  | bufferReady (con : Nat)
  | free
  deriving DecidableEq

namespace SocksUdpGwClient

/-- The SOCKS client after it reported: it is up once. -/
def reported (up : Bool) : SocksEvent → Bool
  | .up => true
  | .error | .errorClosed => up

/-- One event, where it can come: the SOCKS client reports while it is initialised, and that it is up only once; the decoder while it
is initialised; an expired timer is made inactive before its handler is called. -/
def step (o : SocksUdpGwClient) (e : SessionEvent) : Option (Except SessionFault SocksUdpGwClient) :=
  if o.freed then none else
  match e with
  | .socks event decoderOk =>
    match o.socksClient with
    | none => none
    | some up =>
      if event = .up ∧ up = true then none
      else some ({ o with socksClient := some (reported up event) }.socksClientHandler event decoderOk)
  | .decoderError => if o.recvDecoder then some o.decoderHandlerError else none
  | .timerExpires => if o.reconnectTimer = .running then some (.ok { o with reconnectTimer := .expired }) else none
  | .timerDispatched initOk =>
    if o.reconnectTimer = .expired then some ({ o with reconnectTimer := .inactive }.reconnectTimerHandler initOk) else none
  | .submit localAddr remoteAddr isDns data mallocOk flowOk =>
    (o.udpgwClient.step (.submit localAddr remoteAddr isDns data mallocOk flowOk)).map o.withUdpgw
  | .receive data =>
    if o.recvDecoder ∧ data.length ≤ o.udpgwClient.udpgwMtu then
      some (o.withUdpgw (o.udpgwClient.recvInterfaceHandlerSend data))
    else none
  | .bufferReady con => (o.udpgwClient.step (.bufferReady con)).map o.withUdpgw
  | .free => some o.free

end SocksUdpGwClient

/-- The session from a `SocksUdpGwClient_Init` that succeeded on, under every sequence of events; a fault ends the run. -/
def sessionSystem (udpMtu maxConnections : Nat) : System (Except SessionFault SocksUdpGwClient) SessionEvent where
  init s := ∃ memory initOk, s = SocksUdpGwClient.init udpMtu maxConnections memory initOk
  step s e :=
    match s with
    | .error _ => none
    | .ok o => o.step e

end PsiphonAndroid
