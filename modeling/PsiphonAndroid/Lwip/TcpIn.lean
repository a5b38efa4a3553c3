import Mathlib
import PsiphonAndroid.Lib.Serial
import PsiphonAndroid.Lib.Transition
import PsiphonAndroid.Lwip.Pbuf
import PsiphonAndroid.Tun2Socks.TcpClient

/-!
# TCP input: putting the peer's stream together

The receiving half of the TCP of the IP stack, for one connection that was opened by its peer. `tcp_receive` takes the payload
that is next in sequence, keeps what arrived early on `ooseq`, a list ordered by sequence number, and hands over what has become
contiguous; `tcp_process` is the state machine around it and `tcp_input` calls the application. Whatever comes from elsewhere is
part of the event: the answers of the callbacks, whether an allocation succeeds, and what the sending half says of the
acknowledgment a segment carries. A failed `LWIP_ASSERT` calls `abort` and is `none`.
-/

namespace PsiphonAndroid

open Lib

/-- A sequence number, `u32_t`. -/
abbrev SeqNo : Type := BitVec 32

/-- `struct tcp_seg`: sequence number and flags of the header, `len`, and the payload. -/
structure TcpSeg where
  seqno : SeqNo
  len : Nat
  fin : Bool
  syn : Bool
  p : PbufChain
deriving DecidableEq

/-- `TCP_TCPLEN`: a FIN or SYN takes one sequence number. -/
def TcpSeg.tcpLen (s : TcpSeg) : Nat := s.len + if s.fin || s.syn then 1 else 0

/-- `enum tcp_state`, without the states of a listener and of an active open. -/
inductive TcpState where
  | closed
  | synRcvd
  | established
  | finWait1
  | finWait2
  | closeWait
  | closing
  | lastAck
  | timeWait
deriving DecidableEq, Repr

/-- `state < CLOSE_WAIT` among the states `tcp_receive` runs in: the peer's FIN has not been taken yet. -/
def TcpState.receiving : TcpState → Bool
  | .established | .finWait1 | .finWait2 => true
  | _ => false

/-- `struct tcp_pcb`, as far as receiving goes, and below it what the application and the peer have been given so far: the bytes
handed to the `recv` callback and taken, how many of them it has reported back with `tcp_recved`, whether it was called with
`NULL`, and the acknowledgment numbers of the empty ACKs. -/
structure TcpPcb where
  state : TcpState
  rcvNxt : SeqNo
  rcvWnd : Nat
  rcvAnnWnd : Nat
  rcvAnnRightEdge : SeqNo
  mss : Nat
  ooseq : List TcpSeg
  /-- `refused_data`, with its `PBUF_FLAG_TCP_FIN`. -/
  refusedData : Option (PbufChain × Bool)
  rxClosed : Bool
  ackDelay : Bool
  ackNow : Bool
  delivered : Bytes
  recved : Nat
  eof : Bool
  acks : List SeqNo
deriving DecidableEq

/-- What a callback of the application returns: `ERR_OK`, `ERR_ABRT`, or another error. -/
inductive TcpAnswer where
  | ok
  | abrt
  | refuse
deriving DecidableEq

/-- A segment for the connection, with what the surroundings answer while it is processed. -/
structure TcpInput where
  seqno : SeqNo
  p : PbufChain
  fin : Bool
  syn : Bool
  rst : Bool
  ack : Bool
  /-- The acknowledgment covers the SYN of this side. -/
  ackExpected : Bool
  /-- `ackno == pcb->snd_nxt`. -/
  ackAll : Bool
  /-- The `sent` callback returns `ERR_ABRT`. -/
  sentAbrt : Bool
  accept : TcpAnswer
  refused : TcpAnswer
  recv : TcpAnswer
  closed : TcpAnswer
  copyOk : Bool
  emptyAckOk : Bool
deriving DecidableEq

/-- `inseg`, as `tcp_input` sets it up. -/
def TcpInput.inseg (i : TcpInput) : TcpSeg := ⟨i.seqno, i.p.totLen, i.fin, i.syn, i.p⟩

/-- What the sending half says when `tcp_output` is called: the first segment waiting is within the peer's window (there is none
otherwise), nothing holds it back (`tcp_do_output_nagle`), and the pbuf of an empty ACK can be allocated. -/
structure TcpSending where
  fits : Bool
  goes : Bool
  emptyAckOk : Bool
deriving DecidableEq

namespace TcpPcb

variable (pcb : TcpPcb)

/-- `tcp_ack`: every second segment is acknowledged at once. -/
def tcpAck : TcpPcb := if pcb.ackDelay then { pcb with ackDelay := false, ackNow := true } else { pcb with ackDelay := true }

/-- `tcp_ack_now`. -/
def tcpAckNow : TcpPcb := { pcb with ackNow := true }

/-- A header goes out: what it announces is remembered. -/
def announce : TcpPcb := { pcb with rcvAnnRightEdge := pcb.rcvNxt + BitVec.ofNat 32 pcb.rcvAnnWnd }

/-- `tcp_send_empty_ack`; `ok` says whether its pbuf could be allocated. -/
def sendEmptyAck (ok : Bool) : TcpPcb :=
  if ok then { pcb.announce with ackDelay := false, ackNow := false, acks := pcb.acks ++ [pcb.rcvNxt] } else pcb

/-- `tcp_output`. Data that goes out carries the acknowledgment along; where one is due and no data may go, an empty ACK is sent. -/
def tcpOutput (s : TcpSending) : TcpPcb :=
  if pcb.ackNow && !s.fits then pcb.sendEmptyAck s.emptyAckOk
  else if s.fits && s.goes then { pcb.announce with ackDelay := false, ackNow := false }
  else pcb

/-- What `tcp_update_rcv_ann_wnd` returns: by how much the right edge of the window has moved on. -/
def wndInflation : Int :=
  let newRightEdge := pcb.rcvNxt + BitVec.ofNat 32 pcb.rcvWnd
  if serialGe newRightEdge (pcb.rcvAnnRightEdge + BitVec.ofNat 32 (min (tcpWnd / 2) pcb.mss)) then
    (newRightEdge - pcb.rcvAnnRightEdge).toInt
  else 0

/-- `tcp_update_rcv_ann_wnd`. -/
def updateRcvAnnWnd : Option TcpPcb :=
  let newRightEdge := pcb.rcvNxt + BitVec.ofNat 32 pcb.rcvWnd
  if serialGe newRightEdge (pcb.rcvAnnRightEdge + BitVec.ofNat 32 (min (tcpWnd / 2) pcb.mss)) then
    some { pcb with rcvAnnWnd := pcb.rcvWnd }
  else if serialGt pcb.rcvNxt pcb.rcvAnnRightEdge then
    some { pcb with rcvAnnWnd := 0 }
  else
    let newRcvAnnWnd := (pcb.rcvAnnRightEdge - pcb.rcvNxt).toNat
    if newRcvAnnWnd ≤ 0xffff then some { pcb with rcvAnnWnd := newRcvAnnWnd } else none

/-- The first edge of a segment that starts before `rcv_nxt` and reaches beyond it is trimmed. -/
def trimFirstEdge (inseg : TcpSeg) (tcplen : Nat) : Option (TcpPcb × TcpSeg) :=
  if serialBetween pcb.rcvNxt (inseg.seqno + 1) (inseg.seqno + BitVec.ofNat 32 tcplen - 1) then
    let off := (pcb.rcvNxt - inseg.seqno).toNat
    if off < 0x7fff then
      (inseg.p.hide off).map fun p => (pcb, { inseg with seqno := pcb.rcvNxt, len := inseg.len - off, p := p })
    else none
  else if serialLt inseg.seqno pcb.rcvNxt then
    some (pcb.tcpAckNow, inseg)
  else
    some (pcb, inseg)

/-- A segment that reaches beyond the window loses its FIN and what is beyond. -/
def trimToWindow (inseg : TcpSeg) : Option TcpSeg :=
  if pcb.rcvWnd < inseg.tcpLen then do
    let len := if inseg.syn then pcb.rcvWnd - 1 else pcb.rcvWnd
    let p ← inseg.p.realloc len
    let inseg := { inseg with fin := false, len := len, p := p }
    if inseg.seqno + BitVec.ofNat 32 inseg.tcpLen = pcb.rcvNxt + BitVec.ofNat 32 pcb.rcvWnd then some inseg else none
  else
    some inseg

end TcpPcb

/-- The segments at the head of `ooseq` that `inseg` covers are dropped; a FIN among them goes to `inseg`. -/
def dropCovered (inseg : TcpSeg) : List TcpSeg → TcpSeg × List TcpSeg
  | [] => (inseg, [])
  | next :: rest =>
    if serialGe (inseg.seqno + BitVec.ofNat 32 inseg.tcpLen) (next.seqno + BitVec.ofNat 32 next.len) then
      dropCovered (if next.fin && !inseg.syn then { inseg with fin := true } else inseg) rest
    else
      (inseg, next :: rest)

/-- The right side of `inseg` is trimmed where it overlaps with the first segment on `ooseq`. -/
def trimToQueue (inseg : TcpSeg) : List TcpSeg → Option TcpSeg
  | [] => some inseg
  | next :: _ =>
    if serialGt (inseg.seqno + BitVec.ofNat 32 inseg.tcpLen) next.seqno then do
      let dist := (next.seqno - inseg.seqno).toNat % 2 ^ 16
      let len := if inseg.syn then dist - 1 else dist
      let p ← inseg.p.realloc len
      let inseg := { inseg with len := len, p := p }
      if inseg.seqno + BitVec.ofNat 32 inseg.tcpLen = next.seqno then some inseg else none
    else
      some inseg

/-- What in-sequence data does to `ooseq`: a FIN bins it, and otherwise what overlaps is dropped or cut off. -/
def adjustQueue (inseg : TcpSeg) (ooseq : List TcpSeg) : Option (TcpSeg × List TcpSeg) :=
  if ooseq = [] then some (inseg, [])
  else if inseg.fin then some (inseg, [])
  else
    let r := dropCovered inseg ooseq
    (trimToQueue r.1 r.2).map fun s => (s, r.2)

/-- `recv_data` and `TF_GOT_FIN` of `recv_flags`. -/
structure TcpRecv where
  data : Option PbufChain
  gotFin : Bool
deriving DecidableEq

/-- A pbuf is put behind the data that goes to the application. -/
def TcpRecv.chain (r : TcpRecv) (p : PbufChain) : Option TcpRecv :=
  if p.totLen = 0 then some r
  else match r.data with
    | some d => (d.cat p).map fun d => { r with data := some d }
    | none => some { r with data := some p }

namespace TcpPcb

/-- The loop over the segments of `ooseq` that are now in sequence. -/
def dequeue (pcb : TcpPcb) (r : TcpRecv) : List TcpSeg → Option (TcpPcb × TcpRecv)
  | [] => some ({ pcb with ooseq := [] }, r)
  | cseg :: rest =>
    if cseg.seqno = pcb.rcvNxt then
      if cseg.tcpLen ≤ pcb.rcvWnd then do
        let pcb ← updateRcvAnnWnd
          { pcb with rcvNxt := pcb.rcvNxt + BitVec.ofNat 32 cseg.tcpLen, rcvWnd := pcb.rcvWnd - cseg.tcpLen }
        let r ← r.chain cseg.p
        if cseg.fin then
          dequeue { pcb with state := if pcb.state = .established then .closeWait else pcb.state } { r with gotFin := true } rest
        else
          dequeue pcb r rest
      else none
    else
      some ({ pcb with ooseq := cseg :: rest }, r)

/-- The incoming segment is the next in sequence. -/
def receiveInSequence (pcb : TcpPcb) (inseg : TcpSeg) : Option (TcpPcb × TcpRecv) := do
  let inseg ← pcb.trimToWindow inseg
  let (inseg, ooseq) ← adjustQueue inseg pcb.ooseq
  if inseg.tcpLen ≤ pcb.rcvWnd then
    let pcb ← updateRcvAnnWnd
      { pcb with rcvNxt := inseg.seqno + BitVec.ofNat 32 inseg.tcpLen, rcvWnd := pcb.rcvWnd - inseg.tcpLen }
    let (pcb, r) ← pcb.dequeue ⟨if 0 < inseg.p.totLen then some inseg.p else none, inseg.fin⟩ ooseq
    some (pcb.tcpAck, r)
  else none

end TcpPcb

/-- The loop of `tcp_oos_insert_segment`: the following segments that `cseg` covers are deleted; a FIN among them goes to it. -/
def deleteCovered (cseg : TcpSeg) : List TcpSeg → TcpSeg × List TcpSeg
  | [] => (cseg, [])
  | next :: rest =>
    if serialGe (cseg.seqno + BitVec.ofNat 32 cseg.len) (next.seqno + BitVec.ofNat 32 next.len) then
      deleteCovered (if next.fin then { cseg with fin := true } else cseg) rest
    else
      (cseg, next :: rest)

/-- A segment of the queue is cut off at the sequence number `seqno`: `len` is set and the payload shortened to it. -/
def TcpSeg.cutAt (s : TcpSeg) (seqno : SeqNo) : Option TcpSeg :=
  let len := (seqno - s.seqno).toNat % 2 ^ 16
  (s.p.realloc len).map fun p => { s with len := len, p := p }

/-- A segment of the queue that overlaps with the one behind it, at `seqno`, is cut off there. -/
def TcpSeg.cutBefore (s : TcpSeg) (seqno : SeqNo) : Option TcpSeg :=
  if serialGt (s.seqno + BitVec.ofNat 32 s.len) seqno then s.cutAt seqno else some s

/-- `tcp_oos_insert_segment`: `cseg` in front of `next`, without the segments it covers, and cut off where one overlaps. -/
def oosInsertSegment (cseg : TcpSeg) (next : List TcpSeg) : Option (List TcpSeg) :=
  if cseg.fin then some [cseg]
  else
    let r := deleteCovered cseg next
    match r.2 with
    | [] => some [r.1]
    | n :: rest =>
      if serialGt (r.1.seqno + BitVec.ofNat 32 r.1.len) n.seqno then
        (r.1.cutAt n.seqno).map fun c => c :: n :: rest
      else
        some (r.1 :: n :: rest)

namespace TcpPcb

variable (pcb : TcpPcb)

/-- The end of the queue: `cseg` behind `last`, which is cut off where they overlap. The comparison with the right edge of the
window is one of unsigned numbers. -/
def oosAppend (inseg : TcpSeg) (last : TcpSeg) : Option (List TcpSeg) := do
  let last ← last.cutBefore inseg.seqno
  let rightEdge := pcb.rcvNxt + BitVec.ofNat 32 pcb.rcvWnd
  if rightEdge.toNat < (BitVec.ofNat 32 inseg.tcpLen + inseg.seqno).toNat then
    let cseg ← { inseg with fin := false }.cutAt rightEdge
    if cseg.seqno + BitVec.ofNat 32 cseg.tcpLen = rightEdge then some [last, cseg] else none
  else
    some [last, inseg]

/-- The walk along `ooseq` for the place of an early segment; `prev` is the segment before `next`, and the result is the queue
from `prev` on. -/
def oosWalk (inseg : TcpSeg) (copyOk : Bool) : Option TcpSeg → List TcpSeg → Option (List TcpSeg)
  | prev, [] => some prev.toList
  | prev, next :: rest =>
    if inseg.seqno = next.seqno then
      if next.len < inseg.len && copyOk then
        (oosInsertSegment inseg (next :: rest)).map (prev.toList ++ ·)
      else
        some (prev.toList ++ next :: rest)
    else if prev = none && serialLt inseg.seqno next.seqno then
      if copyOk then oosInsertSegment inseg (next :: rest) else some (next :: rest)
    else if prev.any fun prev => serialBetween inseg.seqno (prev.seqno + 1) (next.seqno - 1) then
      if copyOk then do
        let prev ← prev.toList.mapM (·.cutBefore inseg.seqno)
        let queue ← oosInsertSegment inseg (next :: rest)
        some (prev ++ queue)
      else
        some (prev.toList ++ next :: rest)
    else if rest = [] && serialGt inseg.seqno next.seqno then
      if next.fin || !copyOk then some (prev.toList ++ [next])
      else (pcb.oosAppend inseg next).map (prev.toList ++ ·)
    else
      (oosWalk inseg copyOk (some next) rest).map (prev.toList ++ ·)

/-- The incoming segment is out of sequence: it is queued on `ooseq`. -/
def receiveOutOfSequence (inseg : TcpSeg) (copyOk emptyAckOk : Bool) : Option TcpPcb :=
  let pcb := pcb.sendEmptyAck emptyAckOk
  if pcb.ooseq = [] then
    some { pcb with ooseq := if copyOk then [inseg] else [] }
  else
    (pcb.oosWalk inseg copyOk none pcb.ooseq).map fun ooseq => { pcb with ooseq := ooseq }

/-- `seqno` is within the window. -/
def inWindow (seqno : SeqNo) : Bool :=
  serialBetween seqno pcb.rcvNxt (pcb.rcvNxt + BitVec.ofNat 32 pcb.rcvWnd - 1)

/-- `tcp_receive`, from where the segment's own data is looked at. -/
def tcpReceive (i : TcpInput) : Option (TcpPcb × TcpRecv) :=
  if 0 < i.inseg.tcpLen && pcb.state.receiving then do
    let (pcb, inseg) ← pcb.trimFirstEdge i.inseg i.inseg.tcpLen
    if pcb.inWindow inseg.seqno then
      if pcb.rcvNxt = inseg.seqno then
        pcb.receiveInSequence inseg
      else
        (pcb.receiveOutOfSequence inseg i.copyOk i.emptyAckOk).map fun pcb => (pcb, ⟨none, false⟩)
    else
      some (pcb.sendEmptyAck i.emptyAckOk, ⟨none, false⟩)
  else
    some (if pcb.inWindow i.seqno then pcb else pcb.tcpAckNow, ⟨none, false⟩)

/-- `tcp_pcb_purge`, of what is kept for receiving. -/
def purge : TcpPcb := { pcb with refusedData := none, ooseq := [] }

/-- The pcb is taken off its list and freed. -/
def free : TcpPcb := { pcb.purge with state := .closed }

end TcpPcb

/-- How `tcp_process` ends: on with the callbacks, `TF_RESET`, `TF_CLOSED`, or `ERR_ABRT`. -/
inductive TcpVerdict where
  | on
  | reset
  | closed
  | abrt
deriving DecidableEq

namespace TcpPcb

variable (pcb : TcpPcb)

/-- `tcp_process` in the states that take data: what becomes of the state is said by `next`, from what was received. -/
def processReceive (i : TcpInput) (next : TcpPcb → TcpRecv → TcpPcb × TcpVerdict) : Option (TcpPcb × TcpRecv × TcpVerdict) :=
  (pcb.tcpReceive i).map fun (pcb, r) =>
    let (pcb, verdict) := next pcb r
    (pcb, r, verdict)

/-- The passive close, in `ESTABLISHED`. -/
def passiveClose (pcb : TcpPcb) (r : TcpRecv) : TcpPcb × TcpVerdict :=
  (if r.gotFin then { pcb.tcpAckNow with state := .closeWait } else pcb, .on)

/-- `tcp_process`. -/
def tcpProcess (i : TcpInput) : Option (TcpPcb × TcpRecv × TcpVerdict) :=
  let nothing : TcpRecv := ⟨none, false⟩
  let allAcked := i.ack && i.ackAll
  if i.rst then
    if serialBetween i.seqno pcb.rcvNxt (pcb.rcvNxt + BitVec.ofNat 32 pcb.rcvWnd) then
      some ({ pcb with ackDelay := false }, nothing, .reset)
    else
      some (pcb, nothing, .on)
  else if i.syn && pcb.state != .synRcvd then
    some (pcb.tcpAckNow, nothing, .on)
  else match pcb.state with
    | .synRcvd =>
      if i.ack && i.ackExpected then
        if i.accept = .ok then
          { pcb with state := .established }.processReceive i passiveClose
        else
          some ({ pcb with state := .established }, nothing, .abrt)
      else
        some (pcb, nothing, .on)
    | .established | .closeWait => pcb.processReceive i passiveClose
    | .finWait1 => pcb.processReceive i fun pcb r =>
      if r.gotFin then
        if allAcked then ({ pcb.tcpAckNow.purge with state := .timeWait }, .on)
        else ({ pcb.tcpAckNow with state := .closing }, .on)
      else if allAcked then ({ pcb with state := .finWait2 }, .on)
      else (pcb, .on)
    | .finWait2 => pcb.processReceive i fun pcb r =>
      if r.gotFin then ({ pcb.tcpAckNow.purge with state := .timeWait }, .on) else (pcb, .on)
    | .closing => pcb.processReceive i fun pcb _ =>
      if allAcked then ({ pcb.purge with state := .timeWait }, .on) else (pcb, .on)
    | .lastAck => pcb.processReceive i fun pcb _ => if allAcked then (pcb, .closed) else (pcb, .on)
    | .closed | .timeWait => some (pcb, nothing, .on)

/-- The `recv` callback is called with `NULL`, and the window corrected for the FIN. -/
def eventClosed (answer : TcpAnswer) : TcpPcb :=
  let pcb := { pcb with rcvWnd := if pcb.rcvWnd = tcpWnd then pcb.rcvWnd else pcb.rcvWnd + 1, eof := true }
  if answer = .abrt then pcb.free else pcb

/-- `tcp_process_refused_data`. -/
def processRefusedData (recv closed : TcpAnswer) : TcpPcb :=
  match pcb.refusedData with
  | none => pcb
  | some (data, fin) =>
    match recv with
    | .ok =>
      let pcb := { pcb with refusedData := none, delivered := pcb.delivered ++ data.bytes }
      if fin then pcb.eventClosed closed else pcb
    | .abrt => { pcb with refusedData := none }.free
    | .refuse => pcb

/-- `tcp_fasttmr`, for one pcb: a delayed acknowledgment is sent, and refused data is offered again. -/
def tcpFasttmr (s : TcpSending) (recv closed : TcpAnswer) : TcpPcb :=
  let pcb := if pcb.ackDelay then { pcb.tcpAckNow.tcpOutput s with ackDelay := false, ackNow := false } else pcb
  pcb.processRefusedData recv closed

/-- The application is told of the data and of the end of the stream. -/
def notify (i : TcpInput) (r : TcpRecv) : Option TcpPcb :=
  match r.data with
  | some data =>
    if pcb.refusedData.isSome then none
    else if pcb.rxClosed then some pcb.free
    else match i.recv with
      | .abrt => some pcb.free
      | .ok =>
        let pcb := { pcb with delivered := pcb.delivered ++ data.bytes }
        some (if r.gotFin then pcb.eventClosed i.closed else pcb)
      | .refuse => some { pcb with refusedData := some (data, r.gotFin) }
  | none =>
    if r.gotFin then
      match pcb.refusedData with
      | some (data, _) => some { pcb with refusedData := some (data, true) }
      | none => some (pcb.eventClosed i.closed)
    else some pcb

/-- `tcp_timewait_input`. -/
def timewaitInput (i : TcpInput) : TcpPcb :=
  if i.rst then pcb
  else if i.syn && serialBetween i.seqno pcb.rcvNxt (pcb.rcvNxt + BitVec.ofNat 32 pcb.rcvWnd) then pcb
  else if 0 < i.inseg.tcpLen then pcb.tcpAckNow
  else pcb

/-- The part of `tcp_input` for a connection on the list of active ones. -/
def activeInput (i : TcpInput) : Option TcpPcb :=
  let pcb := pcb.processRefusedData i.refused i.closed
  if pcb.state = .closed || (pcb.refusedData.isSome && 0 < i.inseg.tcpLen) then some pcb
  else do
    let (pcb, r, verdict) ← pcb.tcpProcess i
    if verdict ≠ .on || i.sentAbrt then some pcb.free else pcb.notify i r

/-- `tcp_input`, from where the segment has been found to belong to this connection. -/
def tcpInput (i : TcpInput) : Option TcpPcb :=
  match pcb.state with
  | .closed => some pcb
  | .timeWait => some (pcb.timewaitInput i)
  | _ => pcb.activeInput i

/-- `tcp_recved`; a window that has grown enough is announced with the next segment that goes out. -/
def tcpRecved (len : Nat) : Option TcpPcb :=
  if len ≤ 0xffff - pcb.rcvWnd then
    let pcb := { pcb with rcvWnd := min (pcb.rcvWnd + len) tcpWnd, recved := pcb.recved + len }
    (pcb.updateRcvAnnWnd).map fun pcb' => if (tcpWnd / 4 : Int) ≤ pcb.wndInflation then pcb'.tcpAckNow else pcb'
  else none

/-- `tcp_close`; `finOk` says whether the FIN could be queued. -/
def tcpClose (finOk : Bool) : TcpPcb :=
  let pcb := { pcb with rxClosed := true }
  match pcb.state with
  | .synRcvd => if finOk then { pcb with state := .finWait1 } else pcb
  | .established =>
    if pcb.refusedData.isSome || pcb.rcvWnd != tcpWnd then { pcb.purge with state := .timeWait }
    else if finOk then { pcb with state := .finWait1 } else pcb
  | .closeWait =>
    if pcb.refusedData.isSome || pcb.rcvWnd != tcpWnd then pcb.free
    else if finOk then { pcb with state := .lastAck } else pcb
  | _ => pcb

end TcpPcb

/-- What happens to a connection: a segment arrives, the application has processed bytes, closes or aborts, `tcp_output` is called
(also after each segment that arrived), or a timer sends what was delayed (`tcp_fasttmr`) or drops what arrived early
(`tcp_slowtmr`). -/
inductive TcpPcbEvent where
  | input (i : TcpInput)
  | recved (len : Nat)
  | close (finOk : Bool)
  | abort
  | output (s : TcpSending)
  | fastTimer (s : TcpSending) (recv closed : TcpAnswer)
  | slowTimer

/-- One event; a connection whose pcb is freed is left alone. -/
def TcpPcb.handle (pcb : TcpPcb) : TcpPcbEvent → Option TcpPcb
  | .input i => pcb.tcpInput i
  | .recved len => if pcb.state = .closed then some pcb else pcb.tcpRecved len
  | .close finOk => some (pcb.tcpClose finOk)
  | .abort => some pcb.free
  | .output s => some (if pcb.state = .closed then pcb else pcb.tcpOutput s)
  | .fastTimer s recv closed =>
    some (if pcb.state = .closed || pcb.state = .timeWait then pcb else pcb.tcpFasttmr s recv closed)
  | .slowTimer => some { pcb with ooseq := [] }

/-- `tcp_listen_input`: the pcb of a connection whose SYN has been answered; `isn` is the peer's first sequence number after it. -/
def TcpPcb.new (isn : SeqNo) (mss : Nat) : TcpPcb where
  state := .synRcvd
  rcvNxt := isn
  rcvWnd := tcpWnd
  rcvAnnWnd := tcpWnd
  rcvAnnRightEdge := isn
  mss := mss
  ooseq := []
  refusedData := none
  rxClosed := false
  ackDelay := false
  ackNow := false
  delivered := []
  recved := 0
  eof := false
  acks := []

/-- The life of a connection; `none` is a program that an assertion has ended. -/
def tcpSystem (isn : SeqNo) (mss : Nat) : System (Option TcpPcb) TcpPcbEvent where
  init s := s = some (.new isn mss)
  step s e := s.map (·.handle e)

end PsiphonAndroid
