import Mathlib
import PsiphonAndroid.Lwip.TcpInInv

/-!
# The stream the application is given

A peer sends one stream. Its segments may be lost, repeated, reordered and cut anew, and they may overlap. Whatever arrives, the
application is given a prefix of the stream, and is told of its end only when it has all of it.

Two conditions are on the segments. They come from one stream, near what has been received: sequence numbers repeat after four
gigabytes. And none arrives early while the right edge of the window has gone past the wrap of the sequence numbers, where
`tcp_receive` compares two of them as unsigned numbers.
-/

namespace PsiphonAndroid

open Lib TcpInAux

/-- The bytes received in sequence: those the application has taken, and those it has refused so far. -/
def TcpPcb.received (pcb : TcpPcb) : Bytes := pcb.delivered ++ (pcb.refusedData.map fun d => d.1.bytes).getD []

/-- A segment of the stream `S`, near what has been received, and not early while the window wraps. -/
def OfStream (S : Bytes) (isn : SeqNo) (pcb : TcpPcb) (i : TcpInput) : Prop :=
  ∃ pos, IsSegment S isn pos i.inseg ∧ pos < pcb.received.length + 2 ^ 30 ∧ pcb.received.length < pos + 2 ^ 30 ∧
    (pcb.received.length < pos → pos < pcb.received.length + pcb.rcvWnd → Unwrapped pcb)

/-- What the peer sends: a reset, its SYN again, or a segment of its stream. -/
def FromPeer (S : Bytes) (isn : SeqNo) : Option TcpPcb → TcpPcbEvent → Prop
  | some pcb, .input i => i.rst = true ∨ (i.syn = true ∧ i.ack = false) ∨ OfStream S isn pcb i
  | _, _ => True

/-- A segment lies within its stream, so its position is one of finitely many. -/
instance (S : Bytes) (isn : SeqNo) (pcb : TcpPcb) (i : TcpInput) : Decidable (OfStream S isn pcb i) :=
  decidable_of_iff (∃ pos < S.length + 1, IsSegment S isn pos i.inseg ∧ pos < pcb.received.length + 2 ^ 30 ∧
      pcb.received.length < pos + 2 ^ 30 ∧ (pcb.received.length < pos → pos < pcb.received.length + pcb.rcvWnd → Unwrapped pcb))
    ⟨fun ⟨pos, _, h⟩ => ⟨pos, h⟩, fun ⟨pos, h⟩ => ⟨pos, by have := h.1.within; omega, h⟩⟩

instance (S : Bytes) (isn : SeqNo) : (s : Option TcpPcb) → (e : TcpPcbEvent) → Decidable (FromPeer S isn s e)
  | some pcb, .input i => inferInstanceAs (Decidable (i.rst = true ∨ (i.syn = true ∧ i.ack = false) ∨ OfStream S isn pcb i))
  | none, _ => .isTrue trivial
  | some _, .recved _ | some _, .close _ | some _, .abort | some _, .output _ | some _, .fastTimer _ _ _ | some _, .slowTimer => .isTrue trivial

namespace TcpStreamAux

variable {S : Bytes} {isn : SeqNo} {k : Nat} {pcb pcb' : TcpPcb} {i : TcpInput} {r : TcpRecv}

/-- The states before the peer's FIN has been taken. -/
def isOpen (s : TcpState) : Bool := s.receiving || s == .synRcvd

/-- A connection that has received `k` bytes, and not the end of the stream. -/
structure Open (S : Bytes) (isn : SeqNo) (k : Nat) (pcb : TcpPcb) : Prop where
  state : isOpen pcb.state = true
  rcvNxt : pcb.rcvNxt = serialAt isn k
  received : pcb.received = S.take k
  within : k ≤ S.length
  rcvWnd : pcb.rcvWnd < 2 ^ 16
  queue : InOoseq S isn (k + 2 ^ 17) (k + 1) pcb.ooseq
  eof : pcb.eof = false
  refused : ∀ d, pcb.refusedData ≠ some (d, true)
  acks : ∀ a ∈ pcb.acks, ∃ j : Nat, j ≤ k ∧ a = serialAt isn j

/-- A connection that takes no more data. -/
structure Over (S : Bytes) (pcb : TcpPcb) : Prop where
  state : isOpen pcb.state = false
  received : pcb.received <+: S
  eof : pcb.eof = true → pcb.delivered = S
  refused : ∀ d, pcb.refusedData = some (d, true) → pcb.received = S

/-- What every run keeps. -/
def Inv (S : Bytes) (isn : SeqNo) (pcb : TcpPcb) : Prop := (∃ k, Open S isn k pcb) ∨ Over S pcb

theorem Open.length (h : Open S isn k pcb) : pcb.received.length = k := by
  rw [h.received, List.length_take, Nat.min_eq_left h.within]

/-- The connection of an open one that is freed, or closed with data left. -/
theorem over_of_purged (hst : isOpen pcb.state = false) (hd : pcb.delivered <+: S) (hr : pcb.refusedData = none)
    (he : pcb.eof = true → pcb.delivered = S) : Over S pcb where
  state := hst
  received := by rw [TcpPcb.received, hr]; simpa using hd
  eof := he
  refused d h := by rw [hr] at h; cases h

theorem Inv.delivered (h : Inv S isn pcb) : pcb.delivered <+: S := by
  have hp : pcb.delivered <+: pcb.received := List.prefix_append _ _
  rcases h with ⟨k, h⟩ | h
  · exact hp.trans (h.received ▸ List.take_prefix _ _)
  · exact hp.trans h.received

theorem Inv.eof (h : Inv S isn pcb) (he : pcb.eof = true) : pcb.delivered = S := by
  rcases h with ⟨k, h⟩ | h
  · rw [h.eof] at he
    cases he
  · exact h.eof he

/-- Freeing keeps what the application has. -/
theorem inv_free (h : Inv S isn pcb) : Inv S isn pcb.free :=
  .inr (over_of_purged rfl h.delivered rfl fun he => h.eof he)

/-- What has been received is acknowledged, or not. -/
theorem inv_acked (h : Inv S isn pcb) (hk : Keeps pcb pcb') (h1 : pcb'.rcvNxt = pcb.rcvNxt) (h2 : pcb'.rcvWnd = pcb.rcvWnd)
    (h3 : pcb'.ooseq = pcb.ooseq) (h4 : pcb'.state = pcb.state) (h5 : ∀ a ∈ pcb'.acks, a ∈ pcb.acks ∨ a = pcb.rcvNxt) :
    Inv S isn pcb' := by
  have hr : pcb'.received = pcb.received := by rw [TcpPcb.received, TcpPcb.received, hk.delivered, hk.refusedData]
  rcases h with ⟨k, h⟩ | h
  · refine .inl ⟨k, h4 ▸ h.state, h1 ▸ h.rcvNxt, hr ▸ h.received, h.within, h2 ▸ h.rcvWnd, h3 ▸ h.queue, hk.eof ▸ h.eof,
      hk.refusedData ▸ h.refused, fun a ha => ?_⟩
    rcases h5 a ha with hold | rfl
    · exact h.acks a hold
    · exact ⟨k, Nat.le_refl k, h.rcvNxt⟩
  · exact .inr ⟨h4 ▸ h.state, hr ▸ h.received, by rw [hk.eof, hk.delivered]; exact h.eof,
      by rw [hk.refusedData, hr]; exact h.refused⟩

/-- A change of flags. -/
theorem inv_flags (h : Inv S isn pcb) (hk : Keeps pcb pcb') (h1 : pcb'.rcvNxt = pcb.rcvNxt) (h2 : pcb'.rcvWnd = pcb.rcvWnd)
    (h3 : pcb'.ooseq = pcb.ooseq) (h4 : pcb'.state = pcb.state) (h5 : pcb'.acks = pcb.acks) : Inv S isn pcb' :=
  inv_acked h hk h1 h2 h3 h4 fun _ ha => .inl (h5 ▸ ha)

/-- `tcp_output` acknowledges no more than what has been received. -/
theorem inv_output (h : Inv S isn pcb) (s : TcpSending) : Inv S isn (pcb.tcpOutput s) := by
  obtain ⟨s1, s2, s3, s4, s5, s6⟩ := tcpOutput_spec pcb s
  exact inv_acked h s1 s2 s3 s4 s5 s6

/-- The end of the stream is told when all of it has been taken. -/
theorem over_eventClosed (hst : isOpen pcb.state = false) (hd : pcb.delivered = S) (hr : pcb.refusedData = none)
    (answer : TcpAnswer) : Inv S isn (pcb.eventClosed answer) := by
  have hp : Over S { pcb with rcvWnd := if pcb.rcvWnd = tcpWnd then pcb.rcvWnd else pcb.rcvWnd + 1, eof := true } :=
    over_of_purged hst (hd ▸ List.prefix_refl _) hr fun _ => hd
  rw [TcpPcb.eventClosed]
  split
  · exact inv_free (.inr hp)
  · exact .inr hp

/-- Data that had been refused is offered again. -/
theorem inv_refused (h : Inv S isn pcb) (recv closed : TcpAnswer) : Inv S isn (pcb.processRefusedData recv closed) := by
  rw [TcpPcb.processRefusedData]
  split
  · exact h
  · rename_i data fin hrd
    have hrec : pcb.received = pcb.delivered ++ data.bytes := by rw [TcpPcb.received, hrd]; rfl
    cases recv with
    | refuse => exact h
    | abrt =>
      exact .inr (over_of_purged rfl h.delivered rfl fun he => h.eof he)
    | ok =>
      simp only
      rcases h with ⟨k, h⟩ | h
      · have hfin : fin = false := by
          cases fin with
          | false => rfl
          | true => exact absurd hrd (h.refused data)
        rw [hfin]
        refine .inl ⟨k, h.state, h.rcvNxt, ?_, h.within, h.rcvWnd, h.queue, h.eof, by simp, h.acks⟩
        rw [← h.received, hrec]
        simp [TcpPcb.received]
      · cases fin with
        | false =>
          refine .inr (over_of_purged h.state (hrec ▸ h.received) rfl fun he => ?_)
          have hS := h.eof he
          have hle := h.received.length_le
          rw [hrec, hS] at hle
          simp only [List.length_append] at hle
          have hb : data.bytes = [] := List.eq_nil_of_length_eq_zero (by omega)
          simp only [hb, List.append_nil]
          exact hS
        | true =>
          have hS : { pcb with refusedData := none, delivered := pcb.delivered ++ data.bytes }.delivered = S :=
            hrec ▸ h.refused data hrd
          exact over_eventClosed (by exact h.state) hS rfl closed

/-- Of a connection still open, offering refused data changes nothing a segment is measured by. -/
theorem refused_same (h : Inv S isn pcb) (recv closed : TcpAnswer)
    (ho : isOpen (pcb.processRefusedData recv closed).state = true) :
    (pcb.processRefusedData recv closed).received = pcb.received ∧ (pcb.processRefusedData recv closed).rcvWnd = pcb.rcvWnd ∧
      (pcb.processRefusedData recv closed).rcvNxt = pcb.rcvNxt := by
  have hr : ∀ d, pcb.refusedData = some (d, true) → isOpen pcb.state = false := by
    intro d hd
    rcases h with ⟨k, h⟩ | h
    · exact absurd hd (h.refused d)
    · exact h.state
  rw [TcpPcb.processRefusedData] at ho ⊢
  cases hrd : pcb.refusedData with
  | none => exact ⟨rfl, rfl, rfl⟩
  | some d =>
    obtain ⟨data, fin⟩ := d
    rw [hrd] at ho
    cases fin with
    | true =>
      cases recv with
      | ok =>
        simp only [if_true, TcpPcb.eventClosed] at ho
        split at ho
        · cases ho
        · exact absurd ((hr data hrd).symm.trans ho) (by simp)
      | abrt => cases ho
      | refuse => exact ⟨rfl, rfl, rfl⟩
    | false =>
      cases recv with
      | ok => exact ⟨by simp [TcpPcb.received, hrd], rfl, rfl⟩
      | abrt => cases ho
      | refuse => exact ⟨rfl, rfl, rfl⟩

/-- The pcb as if the application had taken the data that goes to it. -/
def withData (pcb : TcpPcb) (r : TcpRecv) : TcpPcb := { pcb with delivered := pcb.delivered ++ recvBytes r }

/-- What `tcp_process` leaves for the callbacks. -/
structure Processed (S : Bytes) (isn : SeqNo) (pcb : TcpPcb) (r : TcpRecv) : Prop where
  inv : Inv S isn (withData pcb r)
  data : r.data.isSome = true → pcb.refusedData = none
  eof : pcb.eof = true → recvBytes r = []
  fin : r.gotFin = true → isOpen pcb.state = false ∧ pcb.refusedData = none ∧ pcb.delivered ++ recvBytes r = S

/-- Nothing for the callbacks. -/
theorem processed_nothing (h : Inv S isn pcb) : Processed S isn pcb ⟨none, false⟩ where
  inv := by
    have hw : withData pcb ⟨none, false⟩ = pcb := by simp [withData, recvBytes]
    rw [hw]
    exact h
  data := by simp
  eof _ := rfl
  fin := by simp

/-- More of the stream, and not its end. -/
theorem processed_open {n : Nat} {p : TcpPcb} (h : Open S isn k pcb) (hrd : pcb.refusedData = none)
    (hrec : Received S isn (k + 2 ^ 17) k n pcb pcb' r) (hb : recvBytes r = (S.drop k).take n) (hg : r.gotFin = false)
    (hp : Keeps pcb' p) (h1 : p.rcvNxt = pcb'.rcvNxt) (h2 : p.rcvWnd = pcb'.rcvWnd) (h3 : p.ooseq = pcb'.ooseq)
    (h4 : p.acks = pcb'.acks) (hst : isOpen p.state = true) : Processed S isn p r := by
  have hkeep := hrec.keeps.trans hp
  have hrd' : p.refusedData = none := by rw [hkeep.refusedData, hrd]
  have hrcv := h.received
  rw [TcpPcb.received, hrd] at hrcv
  simp only [Option.map_none, Option.getD_none, List.append_nil] at hrcv
  have hnxt := hrec.rcvNxt
  have hwnd := hrec.rcvWnd
  rw [hg] at hnxt hwnd
  simp only [Bool.false_eq_true, if_false, Nat.add_zero] at hnxt hwnd
  refine ⟨.inl ⟨k + n, hst, h1.trans hnxt, ?_, hrec.within, ?_, ?_, hkeep.eof.trans h.eof, ?_, ?_⟩, fun _ => hrd', ?_, by rw [hg]; simp⟩
  · rw [TcpPcb.received, withData, hkeep.delivered, hrcv, hb, hrd', List.take_add]
    simp
  · have := h.rcvWnd
    simp only [withData]
    omega
  · simp only [withData, h3]
    exact Queue.mono hrec.queue (Nat.le_refl _) (by omega)
  · simp only [withData, hrd']
    simp
  · intro a ha
    simp only [withData, h4] at ha
    rcases hrec.acks a ha with ha | ha
    · obtain ⟨j, hj, rfl⟩ := h.acks a ha
      exact ⟨j, by omega, rfl⟩
    · exact ha
  · intro he
    rw [hkeep.eof, h.eof] at he
    cases he

/-- The rest of the stream, with its end. -/
theorem processed_over {n : Nat} {p : TcpPcb} (h : Open S isn k pcb) (hrd : pcb.refusedData = none)
    (hrec : Received S isn (k + 2 ^ 17) k n pcb pcb' r) (hb : recvBytes r = (S.drop k).take n) (hg : r.gotFin = true)
    (h1 : p.delivered = pcb'.delivered) (h2 : p.eof = pcb'.eof) (h3 : p.refusedData = none)
    (hst : isOpen p.state = false) : Processed S isn p r := by
  have hrcv := h.received
  rw [TcpPcb.received, hrd] at hrcv
  simp only [Option.map_none, Option.getD_none, List.append_nil] at hrcv
  have hall : p.delivered ++ recvBytes r = S := by
    rw [h1, hrec.keeps.delivered, hrcv, hb, ← List.take_add, hrec.fin hg, List.take_length]
  have heof : p.eof = false := by rw [h2, hrec.keeps.eof, h.eof]
  refine ⟨.inr (over_of_purged hst ?_ h3 fun _ => hall), fun _ => h3, by rw [heof]; simp, fun _ => ⟨hst, h3, hall⟩⟩
  simp only [withData, hall]
  exact List.prefix_refl _

/-- `tcp_receive` within `tcp_process`: the state goes on from what was received. The three conditions on `next` are what each
state does without the FIN, with it, and with nothing received. -/
theorem processReceive_spec {next : TcpPcb → TcpRecv → TcpPcb × TcpVerdict} {v : TcpVerdict} (h : Inv S isn pcb)
    (hseg : isOpen pcb.state = true → OfStream S isn pcb i) (href : pcb.refusedData = none ∨ i.inseg.tcpLen = 0)
    (hopen : ∀ p r, isOpen pcb.state = true → p.state = pcb.state → r.gotFin = false →
      Keeps p (next p r).1 ∧ (next p r).1.rcvNxt = p.rcvNxt ∧ (next p r).1.rcvWnd = p.rcvWnd ∧ (next p r).1.ooseq = p.ooseq ∧
        (next p r).1.acks = p.acks ∧ isOpen (next p r).1.state = true)
    (hfin : ∀ p r, isOpen pcb.state = true → r.gotFin = true → p.refusedData = none →
      (next p r).1.delivered = p.delivered ∧ (next p r).1.eof = p.eof ∧ (next p r).1.refusedData = none ∧
        isOpen (next p r).1.state = false)
    (hidle : ∀ p, isOpen pcb.state = false → Inv S isn p → p.state = pcb.state → Inv S isn (next p ⟨none, false⟩).1)
    (hp : pcb.processReceive i next = some (pcb', r, v)) :
    Processed S isn pcb' r ∧ (isOpen pcb.state = false → r = ⟨none, false⟩) ∧ ∃ p, v = (next p r).2 := by
  rw [TcpPcb.processReceive, Option.map_eq_some_iff] at hp
  obtain ⟨⟨p, r'⟩, hrecv, hp⟩ := hp
  have hp' : (next p r').1 = pcb' ∧ r' = r ∧ (next p r').2 = v := by simpa using hp
  obtain ⟨rfl, rfl, rfl⟩ := hp'
  rw [← and_assoc]
  refine ⟨?_, p, rfl⟩
  have hflags : ∀ b : Bool, Inv S isn (if b then pcb else pcb.tcpAckNow) ∧ (if b then pcb else pcb.tcpAckNow).state = pcb.state := by
    intro b
    cases b with
    | true => exact ⟨h, rfl⟩
    | false => exact ⟨inv_flags h ⟨rfl, rfl, rfl, rfl, rfl, rfl⟩ rfl rfl rfl rfl rfl, rfl⟩
  rcases h with ⟨k, h⟩ | h
  · refine ⟨?_, fun hst => absurd (hst.symm.trans h.state) (by simp)⟩
    by_cases h0 : i.inseg.tcpLen = 0
    · -- Nothing to take: the state may go on all the same.
      rw [tcpReceive_idle (by simp [h0])] at hrecv
      obtain ⟨rfl, rfl⟩ := Prod.mk.inj (Option.some.inj hrecv)
      obtain ⟨hinv, hst⟩ := hflags (pcb.inWindow i.seqno)
      obtain ⟨n1, n2, n3, n4, n5, n6⟩ := hopen _ ⟨none, false⟩ h.state hst rfl
      refine processed_nothing ?_
      rcases hinv with ⟨k', hinv⟩ | hinv
      · exact .inl ⟨k', n6, n2 ▸ hinv.rcvNxt, by rw [TcpPcb.received, n1.delivered, n1.refusedData]; exact hinv.received, hinv.within,
          n3 ▸ hinv.rcvWnd, n4 ▸ hinv.queue, n1.eof ▸ hinv.eof, n1.refusedData ▸ hinv.refused, n5 ▸ hinv.acks⟩
      · have := hinv.state
        rw [hst, h.state] at this
        cases this
    · have hrd := href.resolve_right h0
      obtain ⟨pos, hs, hn1, hn2, hu⟩ := hseg h.state
      rw [h.length] at hn1 hn2 hu
      have hlen := hs.len
      have htl := Seg.tcpLen_le i.inseg
      have hw := h.rcvWnd
      obtain ⟨n, hrec, hok, hb⟩ := tcpReceive_spec hs hn1 hn2 h.rcvNxt h.within hw h.queue (by omega) (fun _ _ => by omega) hu hrecv
      cases hg : r'.gotFin with
      | false =>
        have hst : p.state = pcb.state := hrec.state.resolve_right (by rw [hg]; simp)
        obtain ⟨n1, n2, n3, n4, n5, n6⟩ := hopen p r' h.state hst hg
        exact processed_open h hrd hrec hb hg n1 n2 n3 n4 n5 n6
      | true =>
        obtain ⟨n1, n2, n3, n4⟩ := hfin p r' h.state hg (hrec.keeps.refusedData.trans hrd)
        exact processed_over h hrd hrec hb hg n1 n2 n3 n4
  · have hidl : (0 < i.inseg.tcpLen && pcb.state.receiving) = false := by
      have := h.state
      rw [isOpen, Bool.or_eq_false_iff] at this
      rw [this.1, Bool.and_false]
    rw [tcpReceive_idle hidl] at hrecv
    obtain ⟨rfl, rfl⟩ := Prod.mk.inj (Option.some.inj hrecv)
    obtain ⟨hinv, hst⟩ := hflags (pcb.inWindow i.seqno)
    exact ⟨processed_nothing (hidle _ h.state hinv hst), fun _ => rfl⟩

/-- What `tcp_process` leaves to the callbacks: a piece of the stream, and nothing where the connection ends. -/
def Handed (S : Bytes) (isn : SeqNo) (pcb : TcpPcb) (r : TcpRecv) (v : TcpVerdict) : Prop :=
  Processed S isn pcb r ∧ (v ≠ .on → r = ⟨none, false⟩)

section Process

variable {v : TcpVerdict} {next : TcpPcb → TcpRecv → TcpPcb × TcpVerdict}

/-- Nothing is handed over. -/
theorem handed_nothing {p : TcpPcb} {v' : TcpVerdict} (h : Inv S isn p)
    (he : some (p, (⟨none, false⟩ : TcpRecv), v') = some (pcb', r, v)) : Handed S isn pcb' r v := by
  simp only [Option.some.injEq, Prod.mk.injEq] at he
  obtain ⟨rfl, rfl, rfl⟩ := he
  exact ⟨processed_nothing h, fun _ => rfl⟩

/-- A state that never ends the connection hands over what was received. -/
theorem handed_on {p : TcpPcb} (hnext : ∀ p r, (next p r).2 = .on)
    (h : Processed S isn pcb' r ∧ (isOpen p.state = false → r = ⟨none, false⟩) ∧ ∃ p, v = (next p r).2) : Handed S isn pcb' r v := by
  obtain ⟨h1, -, p', rfl⟩ := h
  exact ⟨h1, fun hv => absurd (hnext p' r) hv⟩

/-- `ESTABLISHED` and `CLOSE_WAIT`: the peer's FIN closes its side. -/
theorem passiveClose_spec (h : Inv S isn pcb) (hseg : isOpen pcb.state = true → OfStream S isn pcb i)
    (href : pcb.refusedData = none ∨ i.inseg.tcpLen = 0)
    (hp : pcb.processReceive i TcpPcb.passiveClose = some (pcb', r, v)) : Handed S isn pcb' r v := by
  refine handed_on (fun _ _ => rfl) (processReceive_spec h hseg href ?_ ?_ ?_ hp)
  · intro q r' hst hq hg
    rw [show TcpPcb.passiveClose q r' = (q, .on) by rw [TcpPcb.passiveClose, hg]; rfl]
    exact ⟨.refl q, rfl, rfl, rfl, rfl, hq ▸ hst⟩
  · intro q r' _ hg hq
    rw [show TcpPcb.passiveClose q r' = ({ q.tcpAckNow with state := .closeWait }, .on) by rw [TcpPcb.passiveClose, hg]; rfl]
    exact ⟨rfl, rfl, hq, rfl⟩
  · intro q _ hq _
    exact hq

/-- `SYN_RCVD`: the peer's acknowledgment opens the connection, and the segment may carry data already. -/
theorem tcpProcess_synRcvd (h : Inv S isn pcb) (hst : pcb.state = .synRcvd) (hrst : i.rst = false)
    (hseg : i.ack = true → OfStream S isn pcb i) (href : pcb.refusedData = none ∨ i.inseg.tcpLen = 0)
    (hp : pcb.tcpProcess i = some (pcb', r, v)) : Handed S isn pcb' r v := by
  simp only [TcpPcb.tcpProcess, hrst, hst, bne_self_eq_false, Bool.and_false, Bool.false_eq_true, if_false] at hp
  split at hp
  · rename_i hack
    rw [Bool.and_eq_true] at hack
    have hinv : Inv S isn { pcb with state := .established } := by
      rcases h with ⟨k, h⟩ | h
      · exact .inl ⟨k, rfl, h.rcvNxt, h.received, h.within, h.rcvWnd, h.queue, h.eof, h.refused, h.acks⟩
      · exact absurd (hst ▸ h.state) (by decide)
    split at hp
    · exact passiveClose_spec hinv (fun _ => hseg hack.1) href hp
    · exact handed_nothing hinv hp
  · exact handed_nothing h hp

/-- `FIN_WAIT_1`: this side has closed, and the peer may close too, or acknowledge. -/
theorem tcpProcess_finWait1 (h : Inv S isn pcb) (hst : pcb.state = .finWait1) (hrst : i.rst = false) (hsyn : i.syn = false)
    (hseg : isOpen pcb.state = true → OfStream S isn pcb i) (href : pcb.refusedData = none ∨ i.inseg.tcpLen = 0)
    (hp : pcb.tcpProcess i = some (pcb', r, v)) : Handed S isn pcb' r v := by
  simp only [TcpPcb.tcpProcess, hrst, hsyn, hst, Bool.false_and, Bool.false_eq_true, if_false] at hp
  refine handed_on (fun p r => by split_ifs <;> rfl) (processReceive_spec h hseg href ?_ ?_ ?_ hp)
  · intro q r' _ hq hg
    simp only [hg, Bool.false_eq_true, if_false]
    split
    · exact ⟨⟨rfl, rfl, rfl, rfl, rfl, rfl⟩, rfl, rfl, rfl, rfl, rfl⟩
    · exact ⟨.refl q, rfl, rfl, rfl, rfl, by rw [hq, hst]; rfl⟩
  · intro q r' _ hg hq
    simp only [hg, if_true]
    split
    · exact ⟨rfl, rfl, rfl, rfl⟩
    · exact ⟨rfl, rfl, hq, rfl⟩
  · intro q ho
    rw [hst] at ho
    cases ho

/-- `FIN_WAIT_2`: what this side sent is acknowledged, and the peer may close too. -/
theorem tcpProcess_finWait2 (h : Inv S isn pcb) (hst : pcb.state = .finWait2) (hrst : i.rst = false) (hsyn : i.syn = false)
    (hseg : isOpen pcb.state = true → OfStream S isn pcb i) (href : pcb.refusedData = none ∨ i.inseg.tcpLen = 0)
    (hp : pcb.tcpProcess i = some (pcb', r, v)) : Handed S isn pcb' r v := by
  simp only [TcpPcb.tcpProcess, hrst, hsyn, hst, Bool.false_and, Bool.false_eq_true, if_false] at hp
  refine handed_on (fun p r => by split_ifs <;> rfl) (processReceive_spec h hseg href ?_ ?_ ?_ hp)
  · intro q r' _ hq hg
    simp only [hg, Bool.false_eq_true, if_false]
    exact ⟨.refl q, trivial, trivial, trivial, trivial, by rw [hq, hst]; rfl⟩
  · intro q r' _ hg hq
    simp only [hg, if_true]
    exact ⟨rfl, rfl, rfl, rfl⟩
  · intro q ho
    rw [hst] at ho
    cases ho

/-- `CLOSING`: both sides have closed, and nothing is taken any more. -/
theorem tcpProcess_closing (h : Inv S isn pcb) (hst : pcb.state = .closing) (hrst : i.rst = false) (hsyn : i.syn = false)
    (hseg : isOpen pcb.state = true → OfStream S isn pcb i) (href : pcb.refusedData = none ∨ i.inseg.tcpLen = 0)
    (hp : pcb.tcpProcess i = some (pcb', r, v)) : Handed S isn pcb' r v := by
  simp only [TcpPcb.tcpProcess, hrst, hsyn, hst, Bool.false_and, Bool.false_eq_true, if_false] at hp
  refine handed_on (fun p r => by split_ifs <;> rfl) (processReceive_spec h hseg href ?_ ?_ ?_ hp)
  · intro q r' ho
    rw [hst] at ho
    cases ho
  · intro q r' ho
    rw [hst] at ho
    cases ho
  · intro q _ hq _
    split
    · exact .inr (over_of_purged rfl hq.delivered rfl fun he => hq.eof he)
    · exact hq

/-- `LAST_ACK`: the peer's acknowledgment ends the connection. -/
theorem tcpProcess_lastAck (h : Inv S isn pcb) (hst : pcb.state = .lastAck) (hrst : i.rst = false) (hsyn : i.syn = false)
    (hseg : isOpen pcb.state = true → OfStream S isn pcb i) (href : pcb.refusedData = none ∨ i.inseg.tcpLen = 0)
    (hp : pcb.tcpProcess i = some (pcb', r, v)) : Handed S isn pcb' r v := by
  simp only [TcpPcb.tcpProcess, hrst, hsyn, hst, Bool.false_and, Bool.false_eq_true, if_false] at hp
  have hspec := processReceive_spec h hseg href ?_ ?_ ?_ hp
  · exact ⟨hspec.1, fun _ => hspec.2.1 (by rw [hst]; rfl)⟩
  · intro q r' ho
    rw [hst] at ho
    cases ho
  · intro q r' ho
    rw [hst] at ho
    cases ho
  · intro q _ hq _
    split <;> exact hq

/-- `tcp_process` leaves the callbacks a piece of the stream. -/
theorem tcpProcess_spec (h : Inv S isn pcb)
    (hpeer : i.rst = true ∨ (i.syn = true ∧ i.ack = false) ∨ (isOpen pcb.state = true → OfStream S isn pcb i))
    (href : pcb.refusedData = none ∨ i.inseg.tcpLen = 0) (hp : pcb.tcpProcess i = some (pcb', r, v)) : Handed S isn pcb' r v := by
  have hnow : Inv S isn pcb.tcpAckNow := inv_flags h ⟨rfl, rfl, rfl, rfl, rfl, rfl⟩ rfl rfl rfl rfl rfl
  cases hrst : i.rst with
  | true =>
    simp only [TcpPcb.tcpProcess, hrst, if_true] at hp
    split at hp
    · refine handed_nothing ?_ hp
      exact inv_flags h ⟨rfl, rfl, rfl, rfl, rfl, rfl⟩ rfl rfl rfl rfl rfl
    · exact handed_nothing h hp
  | false =>
    have hseg := hpeer.resolve_left (by rw [hrst]; decide)
    by_cases hsynRcvd : pcb.state = .synRcvd
    · refine tcpProcess_synRcvd h hsynRcvd hrst (fun hack => ?_) href hp
      exact (hseg.resolve_left fun hsa => absurd (hack.symm.trans hsa.2) (by decide)) (by rw [hsynRcvd]; rfl)
    cases hsyn : i.syn with
    | true =>
      rw [TcpPcb.tcpProcess, if_neg (by rw [hrst]; decide), if_pos (by rw [hsyn, Bool.true_and, bne_iff_ne]; exact hsynRcvd)] at hp
      exact handed_nothing hnow hp
    | false =>
      have hof := hseg.resolve_left fun hsa => absurd (hsyn.symm.trans hsa.1) (by decide)
      cases hst : pcb.state with
      | synRcvd => exact absurd hst hsynRcvd
      | finWait1 => exact tcpProcess_finWait1 h hst hrst hsyn hof href hp
      | finWait2 => exact tcpProcess_finWait2 h hst hrst hsyn hof href hp
      | closing => exact tcpProcess_closing h hst hrst hsyn hof href hp
      | lastAck => exact tcpProcess_lastAck h hst hrst hsyn hof href hp
      | established | closeWait =>
        simp only [TcpPcb.tcpProcess, hrst, hsyn, hst, Bool.false_and, Bool.false_eq_true, if_false] at hp
        exact passiveClose_spec h hof href hp
      | closed | timeWait =>
        simp only [TcpPcb.tcpProcess, hrst, hsyn, hst, Bool.false_and, Bool.false_eq_true, if_false] at hp
        exact handed_nothing h hp

end Process

/-- A connection freed with data left for the callbacks. -/
theorem Processed.free (h : Processed S isn pcb r) : Inv S isn pcb.free := by
  refine .inr (over_of_purged rfl ?_ rfl fun he => ?_)
  · exact (List.prefix_append _ _).trans h.inv.delivered
  · have := h.inv.eof he
    simp only [withData, h.eof he, List.append_nil] at this
    exact this

/-- The callbacks: the application takes the data, refuses it or ends the connection. -/
theorem notify_spec (h : Processed S isn pcb r) (hn : pcb.notify i r = some pcb') : Inv S isn pcb' := by
  have hfree := h.free
  rw [TcpPcb.notify] at hn
  cases hd : r.data with
  | some data =>
    have hrd := h.data (by rw [hd]; rfl)
    have hb : recvBytes r = data.bytes := by rw [recvBytes, hd]; rfl
    have hinv := h.inv
    simp only [withData, hb] at hinv
    simp only [hd] at hn
    rw [if_neg (by rw [hrd]; simp)] at hn
    split at hn
    · obtain rfl := Option.some.inj hn
      exact hfree
    · cases ha : i.recv with
      | abrt =>
        rw [ha] at hn
        obtain rfl := Option.some.inj hn
        exact hfree
      | ok =>
        rw [ha] at hn
        obtain rfl := Option.some.inj hn
        cases hg : r.gotFin with
        | false => exact hinv
        | true =>
          rw [if_pos rfl]
          obtain ⟨f1, f2, f3⟩ := h.fin hg
          have hS : { pcb with delivered := pcb.delivered ++ data.bytes }.delivered = S := hb ▸ f3
          exact over_eventClosed (by exact f1) hS (by exact f2) i.closed
      | refuse =>
        rw [ha] at hn
        obtain rfl := Option.some.inj hn
        have hrcv : { pcb with delivered := pcb.delivered ++ data.bytes }.received = pcb.delivered ++ data.bytes := by
          simp [TcpPcb.received, hrd]
        rcases hinv with ⟨k, hinv⟩ | hinv
        · have hr := hinv.received
          rw [hrcv] at hr
          refine .inl ⟨k, hinv.state, hinv.rcvNxt, hr, hinv.within, hinv.rcvWnd, hinv.queue, hinv.eof, fun d hd' => ?_, hinv.acks⟩
          have hg : r.gotFin = true := (Prod.mk.inj (Option.some.inj hd')).2
          exact absurd ((h.fin hg).1.symm.trans hinv.state) (by simp)
        · have hr := hinv.received
          rw [hrcv] at hr
          refine .inr ⟨hinv.state, hr, fun he => ?_, fun d hd' => ?_⟩
          · have := hinv.eof he
            have hnil := h.eof he
            rw [hb] at hnil
            simp only [hnil, List.append_nil] at this
            exact this
          · have hS := (h.fin (Prod.mk.inj (Option.some.inj hd')).2).2.2
            rw [hb] at hS
            exact hS
  | none =>
    have hb : recvBytes r = [] := by rw [recvBytes, hd]; rfl
    have hinv := h.inv
    simp only [withData, hb, List.append_nil] at hinv
    rw [hd] at hn
    simp only at hn
    split at hn
    · rename_i hg
      obtain ⟨f1, f2, f3⟩ := h.fin hg
      rw [f2] at hn
      obtain rfl := Option.some.inj hn
      rw [hb, List.append_nil] at f3
      exact over_eventClosed f1 f3 f2 i.closed
    · obtain rfl := Option.some.inj hn
      exact hinv

/-- A segment arrives at an active connection. -/
theorem activeInput_spec (h : Inv S isn pcb) (hpeer : FromPeer S isn (some pcb) (.input i)) (hi : pcb.activeInput i = some pcb') :
    Inv S isn pcb' := by
  have hinv := inv_refused h i.refused i.closed
  have hsame := refused_same h i.refused i.closed
  simp only [TcpPcb.activeInput] at hi
  generalize pcb.processRefusedData i.refused i.closed = p at hinv hsame hi
  split at hi
  · obtain rfl := Option.some.inj hi
    exact hinv
  · rename_i hgo
    rw [Bool.or_eq_true, not_or] at hgo
    have href : p.refusedData = none ∨ i.inseg.tcpLen = 0 := by
      cases hrd : p.refusedData with
      | none => exact .inl rfl
      | some d =>
        refine .inr (Nat.eq_zero_of_not_pos fun hpos => hgo.2 ?_)
        rw [hrd]
        simp [hpos]
    have hof : i.rst = true ∨ (i.syn = true ∧ i.ack = false) ∨ (isOpen p.state = true → OfStream S isn p i) := by
      refine hpeer.imp_right (Or.imp_right fun hof ho => ?_)
      obtain ⟨h1, h2, h3⟩ := hsame ho
      rw [OfStream, Unwrapped, h1, h2, h3]
      exact hof
    obtain ⟨⟨p', r, v⟩, hproc, hi⟩ := Option.bind_eq_some_iff.1 hi
    obtain ⟨hd, hv⟩ := tcpProcess_spec hinv hof href hproc
    simp only at hi
    split at hi
    · obtain rfl := Option.some.inj hi
      exact hd.free
    · exact notify_spec hd hi

/-- A segment arrives. -/
theorem tcpInput_spec (h : Inv S isn pcb) (hpeer : FromPeer S isn (some pcb) (.input i)) (hi : pcb.tcpInput i = some pcb') :
    Inv S isn pcb' := by
  rw [TcpPcb.tcpInput] at hi
  split at hi
  · obtain rfl := Option.some.inj hi
    exact h
  · obtain rfl := Option.some.inj hi
    rw [TcpPcb.timewaitInput]
    split_ifs
    · exact h
    · exact h
    · exact inv_flags h ⟨rfl, rfl, rfl, rfl, rfl, rfl⟩ rfl rfl rfl rfl rfl
    · exact h
  · exact activeInput_spec h hpeer hi

/-- The application reports bytes it has processed. -/
theorem tcpRecved_spec {len : Nat} (h : Inv S isn pcb) (hi : pcb.tcpRecved len = some pcb') : Inv S isn pcb' := by
  rw [TcpPcb.tcpRecved] at hi
  split at hi
  · simp only [Option.map_eq_some_iff] at hi
    obtain ⟨p, hu, rfl⟩ := hi
    obtain ⟨w, rfl⟩ := updateRcvAnnWnd_eq hu
    split
    all_goals
      rcases h with ⟨k, h⟩ | h
      · exact .inl ⟨k, h.state, h.rcvNxt, h.received, h.within, Nat.lt_of_le_of_lt (Nat.min_le_right _ _) (by decide), h.queue, h.eof,
          h.refused, h.acks⟩
      · exact .inr ⟨h.state, h.received, h.eof, h.refused⟩
  · cases hi

/-- The application closes the connection. -/
theorem tcpClose_spec (h : Inv S isn pcb) (finOk : Bool) : Inv S isn (pcb.tcpClose finOk) := by
  have hrx : Inv S isn { pcb with rxClosed := true } := by
    rcases h with ⟨k, h⟩ | h
    · exact .inl ⟨k, h.state, h.rcvNxt, h.received, h.within, h.rcvWnd, h.queue, h.eof, h.refused, h.acks⟩
    · exact .inr ⟨h.state, h.received, h.eof, h.refused⟩
  have hfin : isOpen pcb.state = true → Inv S isn { pcb with rxClosed := true, state := .finWait1 } := by
    intro hst
    rcases h with ⟨k, h⟩ | h
    · exact .inl ⟨k, rfl, h.rcvNxt, h.received, h.within, h.rcvWnd, h.queue, h.eof, h.refused, h.acks⟩
    · exact absurd (hst.symm.trans h.state) (by simp)
  simp only [TcpPcb.tcpClose]
  split
  · rename_i hst
    split
    · exact hfin (by rw [hst]; rfl)
    · exact hrx
  · rename_i hst
    split_ifs
    · exact .inr (over_of_purged rfl h.delivered rfl fun he => h.eof he)
    · exact hfin (by rw [hst]; rfl)
    · exact hrx
  · rename_i hst
    split_ifs
    · exact inv_free hrx
    · rcases h with ⟨k, h⟩ | h
      · exact absurd (hst ▸ h.state) (by decide)
      · exact .inr ⟨rfl, h.received, h.eof, h.refused⟩
    · exact hrx
  · exact hrx

/-- The timer acknowledges what has been received and offers again what has been refused. -/
theorem tcpFasttmr_spec (h : Inv S isn pcb) (s : TcpSending) (recv closed : TcpAnswer) : Inv S isn (pcb.tcpFasttmr s recv closed) := by
  simp only [TcpPcb.tcpFasttmr]
  refine inv_refused ?_ recv closed
  split
  · have hnow : Inv S isn pcb.tcpAckNow := inv_flags h ⟨rfl, rfl, rfl, rfl, rfl, rfl⟩ rfl rfl rfl rfl rfl
    exact inv_flags (inv_output hnow s) ⟨rfl, rfl, rfl, rfl, rfl, rfl⟩ rfl rfl rfl rfl rfl
  · exact h

/-- Every event keeps the invariant. -/
theorem handle_spec {e : TcpPcbEvent} (h : Inv S isn pcb) (hpeer : FromPeer S isn (some pcb) e) (hi : pcb.handle e = some pcb') :
    Inv S isn pcb' := by
  cases e with
  | input i => exact tcpInput_spec h hpeer hi
  | recved len =>
    rw [TcpPcb.handle] at hi
    split at hi
    · obtain rfl := Option.some.inj hi
      exact h
    · exact tcpRecved_spec h hi
  | close finOk =>
    obtain rfl := Option.some.inj hi
    exact tcpClose_spec h finOk
  | abort =>
    obtain rfl := Option.some.inj hi
    exact inv_free h
  | output s =>
    obtain rfl := Option.some.inj hi
    split
    · exact h
    · exact inv_output h s
  | fastTimer s recv closed =>
    obtain rfl := Option.some.inj hi
    split
    · exact h
    · exact tcpFasttmr_spec h s recv closed
  | slowTimer =>
    obtain rfl := Option.some.inj hi
    rcases h with ⟨k, h⟩ | h
    · exact .inl ⟨k, h.state, h.rcvNxt, h.received, h.within, h.rcvWnd, trivial, h.eof, h.refused, h.acks⟩
    · exact .inr ⟨h.state, h.received, h.eof, h.refused⟩

/-- A connection that has just been opened has received nothing. -/
theorem inv_new (S : Bytes) (isn : SeqNo) (mss : Nat) : Inv S isn (.new isn mss) :=
  .inl ⟨0, rfl, by simp [TcpPcb.new, serialAt], by simp [TcpPcb.received, TcpPcb.new], Nat.zero_le _,
    show tcpWnd < 2 ^ 16 by decide, trivial, rfl, by simp [TcpPcb.new], by simp [TcpPcb.new]⟩

/-- Every run keeps the invariant. -/
theorem run_inv {mss : Nat} {es : List TcpPcbEvent} (h : (tcpSystem isn mss).RunWhere (FromPeer S isn) es (some pcb)) : Inv S isn pcb := by
  refine h.invariant (fun _ s => ∀ p, s = some p → Inv S isn p) ?_ ?_ pcb rfl
  · rintro s rfl p hp
    obtain rfl := Option.some.inj hp
    exact inv_new S isn mss
  · rintro _ s e s' ih hok hstep p rfl
    cases s with
    | none => cases hstep
    | some q => exact handle_spec (ih q rfl) hok (Option.some.inj hstep)

end TcpStreamAux

open TcpStreamAux

/-- The stream as the application sees it. In every run in which the peer sends segments of one stream `S`, in whatever order and
however often, each within 2^30 bytes of what has been received and none early while the right edge of the window wraps,
1. what the application has taken is a prefix of `S`;
2. it is told of the end only when it has taken all of `S`;
3. as long as the end has not been received, `rcv_nxt` counts the bytes received in sequence, these are a prefix of `S`, and no
   empty ACK acknowledged more than them. -/
theorem tcp_input_in_order (S : Bytes) (isn : SeqNo) (mss : Nat) {es : List TcpPcbEvent} {pcb : TcpPcb}
    (h : (tcpSystem isn mss).RunWhere (FromPeer S isn) es (some pcb)) :
    pcb.delivered <+: S ∧
    (pcb.eof = true → pcb.delivered = S) ∧
    (pcb.state.receiving = true → pcb.rcvNxt = serialAt isn pcb.received.length ∧ pcb.received <+: S ∧
      ∀ a ∈ pcb.acks, ∃ j : Nat, j ≤ pcb.received.length ∧ a = serialAt isn j) := by
  have hinv := run_inv h
  refine ⟨hinv.delivered, hinv.eof, fun hst => ?_⟩
  rcases hinv with ⟨k, hopen⟩ | hover
  · rw [hopen.length]
    exact ⟨hopen.rcvNxt, hopen.received ▸ List.take_prefix _ _, hopen.acks⟩
  · have := hover.state
    rw [isOpen, hst] at this
    cases this

/-- A segment with the bytes `b` at the position `pos`, which acknowledges the SYN; every callback says `ERR_OK`. -/
def segmentAt (isn : SeqNo) (pos : Nat) (b : Bytes) (fin : Bool) : TcpInput :=
  ⟨serialAt isn pos, [⟨b, b.length⟩], fin, false, false, true, true, false, false, .ok, .ok, .ok, .ok, true, true⟩

/-- The handshake, the end of the stream, and then its beginning. -/
def endFirst : List TcpPcbEvent :=
  [.output ⟨true, true, true⟩, .input (segmentAt 7 0 [] false), .input (segmentAt 7 1 [2, 3] true), .output ⟨false, false, true⟩,
    .input (segmentAt 7 0 [1] false), .output ⟨false, false, true⟩]

theorem endFirst_runs :
    ((tcpSystem 7 1460).execWhere (FromPeer [1, 2, 3] 7) (some (.new 7 1460)) endFirst).isSome = true := by decide +kernel

/-- What arrived early is handed over behind what was missing, and then the end. -/
theorem endFirst_in_order : ∃ pcb, (tcpSystem 7 1460).RunWhere (FromPeer [1, 2, 3] 7) endFirst (some pcb) ∧ pcb.eof = true ∧
    pcb.delivered = [1, 2, 3] := by
  have hrun : (tcpSystem 7 1460).RunWhere (FromPeer [1, 2, 3] 7) endFirst (Option.get _ endFirst_runs) :=
    (System.RunWhere.init (M := tcpSystem 7 1460) (s := some (.new 7 1460)) rfl).execWhere (Option.some_get _).symm
  have heof : (Option.get _ endFirst_runs).map (·.eof) = some true := by decide +kernel
  obtain ⟨pcb, hs, he⟩ := Option.map_eq_some_iff.1 heof
  rw [hs] at hrun
  exact ⟨pcb, hrun, he, (tcp_input_in_order [1, 2, 3] 7 1460 hrun).2.1 he⟩

namespace TcpStreamAux

variable {S : Bytes} {isn : SeqNo} {k pos pl hi lo : Nat} {pcb : TcpPcb} {inseg last : TcpSeg} {front : List TcpSeg}

/-- The walk for a segment that belongs behind the whole queue reaches its end. -/
theorem oosWalk_end (hs : inseg.seqno = serialAt isn pos)
    (hbehind : ∀ s ∈ front ++ [last], ∃ ps : Nat, s.seqno = serialAt isn ps ∧ ps < pos ∧ pos < ps + 2 ^ 30) (hfin : last.fin = false)
    (prev : Option TcpSeg) :
    pcb.oosWalk inseg true prev (front ++ [last]) = (pcb.oosAppend inseg last).map fun q => prev.toList ++ (front ++ q) := by
  have hnot : ∀ s ∈ front ++ [last], inseg.seqno ≠ s.seqno ∧ serialLt inseg.seqno s.seqno = false ∧
      (∀ prev : Option TcpSeg, prev.any (fun p => serialBetween inseg.seqno (p.seqno + 1) (s.seqno - 1)) = false) ∧
      serialGt inseg.seqno s.seqno = true := by
    intro s hmem
    obtain ⟨ps, h1, h2, h3⟩ := hbehind s hmem
    rw [hs, h1]
    refine ⟨mt (seqEq_iff (by omega) (by omega)).1 (by omega), ?_, fun prev => ?_, (seqGt_iff (by omega) (by omega)).2 (by omega)⟩
    · rw [Bool.eq_false_iff, Ne, seqLt_iff (by omega) (by omega)]
      omega
    · cases prev with
      | none => rfl
      | some p =>
        rw [Option.any_some, serialBetween, seqAt_sub_one, Bool.and_eq_false_iff]
        refine .inr ?_
        rw [Bool.eq_false_iff, Ne, seqLe_iff (by omega) (by omega)]
        omega
  clear hbehind
  induction front generalizing prev with
  | nil =>
    obtain ⟨h1, h2, h3, h4⟩ := hnot last (by simp)
    rw [List.nil_append, TcpPcb.oosWalk, if_neg h1, h2, h3 prev, h4, hfin]
    simp
  | cons next rest ih =>
    obtain ⟨h1, h2, h3, h4⟩ := hnot next (by simp)
    rw [List.cons_append, TcpPcb.oosWalk, if_neg h1, h2, h3 prev, ih (some next) (fun s hmem => hnot s (by simp_all))]
    simp
    rfl

/-- What is at the end of the queue may be replaced by what is queued from the same position. -/
theorem queued_append {q : List TcpSeg} (hne : q ≠ []) (h : InOoseq S isn hi lo (front ++ q)) :
    ∃ lo', lo ≤ lo' ∧ InOoseq S isn hi lo' q ∧ (∀ s ∈ front, ∃ ps : Nat, s.seqno = serialAt isn ps ∧ lo ≤ ps ∧ ps ≤ lo') ∧
      ∀ q', InOoseq S isn hi lo' q' → InOoseq S isn hi lo (front ++ q') := by
  induction front generalizing lo with
  | nil => exact ⟨lo, Nat.le_refl _, h, by simp, fun _ h' => h'⟩
  | cons s rest ih =>
    obtain ⟨ps, h1, h2, h3, h4, h5, h6⟩ := h
    obtain ⟨lo', i1, i2, i3, i4⟩ := ih h6
    have hf : s.fin = true → ∀ q' : List TcpSeg, rest ++ q' = [] := fun hf => absurd (h5 hf) (by simp [hne])
    refine ⟨lo', by omega, i2, ?_, fun q' h' => ⟨ps, h1, h2, h3, h4, fun hs => hf hs q', i4 q' h'⟩⟩
    intro t ht
    rcases List.mem_cons.1 ht with rfl | ht
    · exact ⟨ps, h4.seqno, h1, by omega⟩
    · obtain ⟨pt, e1, e2, e3⟩ := i3 t ht
      exact ⟨pt, e1, by omega, e3⟩

/-- A segment of the queue has the payload its length says. -/
theorem queued_length {q : List TcpSeg} {s : TcpSeg} (h : InOoseq S isn hi lo q) (hs : s ∈ q) : s.p.bytes.length = s.len := by
  induction q generalizing lo with
  | nil => cases hs
  | cons t rest ih =>
    obtain ⟨ps, h1, h2, h3, h4, h5, h6⟩ := h
    rcases List.mem_cons.1 hs with rfl | hs
    · exact Seg.bytes_length h4
    · exact ih h6 hs

/-- Behind the end of a segment, and before the right edge of the window, the sequence numbers wrap. -/
def WrapsBehind (pcb : TcpPcb) (inseg : TcpSeg) : Prop :=
  (pcb.rcvNxt + BitVec.ofNat 32 pcb.rcvWnd).toNat < (inseg.seqno + BitVec.ofNat 32 inseg.tcpLen).toNat
deriving Decidable

/-- What is put at the end of the queue: the segment as it is, or, where the numbers wrap behind it, one that has its payload and
goes on to the right edge of the window. -/
theorem oosAppend_within (hk : pcb.rcvNxt = serialAt isn k) (hwnd : pcb.rcvWnd < 2 ^ 16) (hs : IsSegment S isn pos inseg)
    (hend : pos + inseg.tcpLen ≤ k + pcb.rcvWnd) (hge : k ≤ pos) (hl : IsSegment S isn pl last) (hfin : last.fin = false) (hlt : pl < pos)
    (hkl : k ≤ pl) (hlpos : 0 < last.len) :
    ∃ l seg, pcb.oosAppend inseg last = some [l, seg] ∧ IsSegment S isn pl l ∧ l.fin = false ∧ pl + l.len ≤ pos ∧ 0 < l.len ∧
      (¬WrapsBehind pcb inseg → seg = inseg) ∧
      (WrapsBehind pcb inseg → seg = { inseg with fin := false, len := k + pcb.rcvWnd - pos } ∧ inseg.tcpLen < k + pcb.rcvWnd - pos) := by
  obtain ⟨l, l1, l2, l3, l4, l5, l6⟩ := cutBefore_spec hl hfin pos hlt (by omega)
  have hedge : pcb.rcvNxt + BitVec.ofNat 32 pcb.rcvWnd = serialAt isn ((k + pcb.rcvWnd : Nat) : Int) := by
    rw [hk, serialAt_add_nat, Nat.cast_add]
  have hcomm : BitVec.ofNat 32 inseg.tcpLen + inseg.seqno = inseg.seqno + BitVec.ofNat 32 inseg.tcpLen := BitVec.add_comm _ _
  rw [← hs.seqno] at l1
  simp only [TcpPcb.oosAppend, l1, hcomm, Option.bind_eq_bind, Option.bind_some]
  by_cases hw : WrapsBehind pcb inseg
  · have hne : pos + inseg.tcpLen ≠ k + pcb.rcvWnd := by
      intro he
      rw [WrapsBehind, hedge, Seg.seqno_add hs, he] at hw
      exact Nat.lt_irrefl _ hw
    have htl := Seg.len_le inseg
    have hd : ((pcb.rcvNxt + BitVec.ofNat 32 pcb.rcvWnd) - inseg.seqno).toNat % 2 ^ 16 = k + pcb.rcvWnd - pos := by
      rw [hedge, hs.seqno, toNat_seqAt_sub (by omega) (by omega)]
      omega
    have hp : inseg.p.realloc (k + pcb.rcvWnd - pos) = some inseg.p := by
      rw [PbufChain.realloc, if_pos]
      rw [Seg.totLen hs]
      omega
    have hcut : TcpSeg.cutAt { inseg with fin := false } (pcb.rcvNxt + BitVec.ofNat 32 pcb.rcvWnd) =
        some { inseg with fin := false, len := k + pcb.rcvWnd - pos } := by
      simp only [TcpSeg.cutAt, hd, hp, Option.map_some]
    have hassert : inseg.seqno + BitVec.ofNat 32 (TcpSeg.tcpLen { inseg with fin := false, len := k + pcb.rcvWnd - pos }) =
        pcb.rcvNxt + BitVec.ofNat 32 pcb.rcvWnd := by
      have hlen : TcpSeg.tcpLen { inseg with fin := false, len := k + pcb.rcvWnd - pos } = k + pcb.rcvWnd - pos := by
        simp [TcpSeg.tcpLen, hs.syn]
      rw [hlen, Seg.seqno_add hs, hedge]
      congr 2
      omega
    refine ⟨l, _, ?_, l2, l5, l4, l6 hlpos, fun h => absurd hw h, fun _ => ⟨rfl, by omega⟩⟩
    rw [WrapsBehind] at hw
    rw [if_pos hw, hcut, Option.bind_some, if_pos hassert]
  · refine ⟨l, inseg, ?_, l2, l5, l4, l6 hlpos, fun _ => rfl, fun h => absurd h hw⟩
    rw [WrapsBehind] at hw
    rw [if_neg hw]

end TcpStreamAux

/-- An early segment behind the whole queue, which ends within the window. The comparison with the right edge is made with unsigned
numbers, and
1. the queue is one of segments of the stream afterwards exactly when the numbers do not wrap between the segment and the right edge;
2. where they do, the queue ends in a segment with the payload that came and a length that goes on to the right edge, and taking it
   off the queue moves `rcv_nxt` to the right edge, over bytes that never came. -/
theorem early_segment_at_wrap {S : Bytes} {isn : SeqNo} {k pos : Nat} {pcb : TcpPcb} {inseg last : TcpSeg} {front : List TcpSeg} (ok : Bool)
    (hk : pcb.rcvNxt = serialAt isn k) (hwnd : pcb.rcvWnd < 2 ^ 16) (hooseq : pcb.ooseq = front ++ [last])
    (hq : InOoseq S isn (k + pcb.rcvWnd) (k + 1) pcb.ooseq) (hfin : last.fin = false) (hs : IsSegment S isn pos inseg)
    (hpos : 0 < inseg.tcpLen) (hge : k < pos) (hend : pos + inseg.tcpLen ≤ k + pcb.rcvWnd)
    (hbehind : serialGt inseg.seqno last.seqno = true) :
    ∃ q, pcb.receiveOutOfSequence inseg true ok = some { pcb.sendEmptyAck ok with ooseq := q } ∧
      (InOoseq S isn (k + pcb.rcvWnd) (k + 1) q ↔ ¬WrapsBehind pcb inseg) ∧
      (WrapsBehind pcb inseg → ∃ q' seg, q = q' ++ [seg] ∧ seg.seqno = inseg.seqno ∧ seg.p.bytes.length < seg.tcpLen ∧
        ∀ (pcb₁ pcb₂ : TcpPcb) (r r₂ : TcpRecv), pcb₁.rcvNxt = seg.seqno → RecvOk r → pcb₁.dequeue r [seg] = some (pcb₂, r₂) →
          pcb₂.rcvNxt = pcb.rcvNxt + BitVec.ofNat 32 pcb.rcvWnd ∧ recvBytes r₂ = recvBytes r ++ inseg.p.bytes) := by
  obtain ⟨s1, s2, s3, s4, -⟩ := sendEmptyAck_spec pcb ok
  have hwraps : WrapsBehind (pcb.sendEmptyAck ok) inseg ↔ WrapsBehind pcb inseg := by rw [WrapsBehind, WrapsBehind, s2, s3]
  simp only [TcpPcb.receiveOutOfSequence]
  generalize pcb.sendEmptyAck ok = p at s1 s2 s3 s4 hwraps
  rw [hooseq] at hq s4
  obtain ⟨lo, h1, ⟨pl, h2, h3, h4, h5, h6, -⟩, h7, h8⟩ := queued_append (by simp) hq
  have hlt : pl < pos := by
    rw [hs.seqno, h5.seqno, seqGt_iff (by omega) (by omega)] at hbehind
    omega
  have htl := tcpLen_of_not_fin h5 hfin
  have hall : ∀ s ∈ front ++ [last], ∃ ps : Nat, s.seqno = serialAt isn ps ∧ ps < pos ∧ pos < ps + 2 ^ 30 := by
    intro s hmem
    rcases List.mem_append.1 hmem with hmem | hmem
    · obtain ⟨ps, e1, e2, e3⟩ := h7 s hmem
      exact ⟨ps, e1, by omega, by omega⟩
    · obtain rfl := List.mem_singleton.1 hmem
      exact ⟨pl, h5.seqno, hlt, by omega⟩
  obtain ⟨l, seg, a1, a2, a3, a4, a5, a6, a7⟩ := oosAppend_within (s2.trans hk) (s3 ▸ hwnd) hs (s3 ▸ hend) (Nat.le_of_lt hge) h5 hfin hlt
    (by omega) (by omega)
  rw [hwraps] at a6 a7
  rw [s3] at a7
  rw [if_neg (by rw [s4]; simp), s4, oosWalk_end hs.seqno hall hfin, a1]
  refine ⟨front ++ [l, seg], rfl, ⟨fun hq' hw => ?_, fun hw => ?_⟩, fun hw => ?_⟩
  · obtain ⟨rfl, hlt'⟩ := a7 hw
    have hlen := queued_length hq' (s := { inseg with fin := false, len := k + pcb.rcvWnd - pos }) (by simp)
    have hlen' := Seg.bytes_length hs
    have := Seg.len_le inseg
    simp only at hlen
    omega
  · obtain rfl := a6 hw
    have hltl := tcpLen_of_not_fin a2 a3
    refine h8 _ (Queue.cons a2 h2 (by omega) (by omega) (by rw [a3]; simp) ?_)
    exact Queue.cons hs a4 hend hpos (fun _ => rfl) trivial
  · obtain ⟨rfl, hlt'⟩ := a7 hw
    have hsl : TcpSeg.tcpLen { inseg with fin := false, len := k + pcb.rcvWnd - pos } = k + pcb.rcvWnd - pos := by
      simp [TcpSeg.tcpLen, hs.syn]
    have hlen := Seg.bytes_length hs
    have hle := Seg.len_le inseg
    refine ⟨front ++ [l], { inseg with fin := false, len := k + pcb.rcvWnd - pos }, by simp, rfl, by rw [hsl]; simp only; omega, fun pcb₁ pcb₂ r r₂ hnxt hr hd => ?_⟩
    rw [TcpPcb.dequeue, if_pos hnxt.symm] at hd
    split at hd
    · obtain ⟨p₁, hu, hd⟩ := Option.bind_eq_some_iff.1 hd
      obtain ⟨r₁, hc, hd⟩ := Option.bind_eq_some_iff.1 hd
      obtain ⟨r', c1, -, c2, -⟩ := chain_spec hr hs.chain
      obtain rfl : r' = r₁ := Option.some.inj (c1.symm.trans hc)
      obtain ⟨w, rfl⟩ := updateRcvAnnWnd_eq hu
      simp only [Bool.false_eq_true, if_false, TcpPcb.dequeue, Option.some.injEq, Prod.mk.injEq] at hd
      obtain ⟨rfl, rfl⟩ := hd
      refine ⟨?_, c2⟩
      simp only
      rw [hsl, hnxt, hs.seqno, hk, serialAt_add_nat, serialAt_add_nat]
      congr 1
      omega
    · cases hd

/-- A connection at the sequence number `2 ^ 32 - 16`, with one byte that arrived early. -/
def nearWrap : TcpPcb := { TcpPcb.new 0xfffffff0 1460 with state := .established, ooseq := [⟨0xfffffff2, 1, false, false, [⟨[3], 1⟩]⟩] }

/-- The fourth byte of a stream of four. -/
def fourthByte : TcpSeg := ⟨0xfffffff3, 1, false, false, [⟨[4], 1⟩]⟩

/-- Behind four bytes the window of a connection at `2 ^ 32 - 16` wraps, and the fourth is queued for all of it. -/
theorem fourthByte_at_wrap : WrapsBehind nearWrap fourthByte ∧ ∃ q,
    nearWrap.receiveOutOfSequence fourthByte true true = some { nearWrap.sendEmptyAck true with ooseq := q } ∧
    ¬InOoseq [1, 2, 3, 4] 0xfffffff0 (0 + nearWrap.rcvWnd) (0 + 1) q := by
  have hlast : IsSegment [1, 2, 3, 4] 0xfffffff0 2 ⟨0xfffffff2, 1, false, false, [⟨[3], 1⟩]⟩ := by decide +kernel
  have hk : nearWrap.rcvNxt = serialAt 0xfffffff0 ((0 : Nat) : Int) := by decide +kernel
  have hooseq : nearWrap.ooseq = [] ++ [⟨0xfffffff2, 1, false, false, [⟨[3], 1⟩]⟩] := rfl
  have hq : InOoseq [1, 2, 3, 4] 0xfffffff0 (0 + nearWrap.rcvWnd) (0 + 1) nearWrap.ooseq :=
    ⟨2, by decide, by decide +kernel, by decide, hlast, by simp, trivial⟩
  have hs : IsSegment [1, 2, 3, 4] 0xfffffff0 3 fourthByte := by decide +kernel
  have hw : WrapsBehind nearWrap fourthByte := by decide +kernel
  obtain ⟨q, h1, h2, -⟩ := early_segment_at_wrap true hk (by decide +kernel) hooseq hq rfl hs (by decide) (by decide) (by decide +kernel)
    (by decide +kernel)
  exact ⟨hw, q, h1, fun hq => h2.1 hq hw⟩

end PsiphonAndroid
