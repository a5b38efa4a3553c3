import Mathlib
import PsiphonAndroid.Theorems.TcpStream

/-!
# The window

The TCP input is full of assertions, and one that fails ends the program, with every connection it has. They all rest on the
window: a peer that sends no further than it has been told to, and an application that reports back no more than it was given,
never make one fail. And the application is never given more than it has room for: what it has not reported back fits into the
window, which is what the buffers of the TCP clients are sized for.
-/

namespace PsiphonAndroid

open Lib TcpInAux TcpStreamAux

/-- A segment that ends where the window that was announced ends, or before, and that is no longer than the window. -/
def WithinWindow (pcb : TcpPcb) (i : TcpInput) : Prop :=
  serialLe (i.seqno + BitVec.ofNat 32 i.inseg.tcpLen) pcb.rcvAnnRightEdge = true ∧ i.p.bytes.length ≤ tcpWnd
deriving Decidable

/-- A peer that keeps to its stream and to the window, and an application that reports back what it was given. -/
def KeepsToWindow (S : Bytes) (isn : SeqNo) (s : Option TcpPcb) (e : TcpPcbEvent) : Prop :=
  FromPeer S isn s e ∧ ∀ pcb, s = some pcb →
    (∀ i, e = .input i → i.rst = true ∨ (i.syn = true ∧ i.ack = false) ∨ WithinWindow pcb i) ∧
    (∀ len, e = .recved len → pcb.recved + len ≤ pcb.delivered.length)

theorem keepsToWindow_input (S : Bytes) (isn : SeqNo) (pcb : TcpPcb) (i : TcpInput) :
    KeepsToWindow S isn (some pcb) (.input i) ↔
      FromPeer S isn (some pcb) (.input i) ∧ (i.rst = true ∨ (i.syn = true ∧ i.ack = false) ∨ WithinWindow pcb i) := by
  simp [KeepsToWindow]

theorem keepsToWindow_recved (S : Bytes) (isn : SeqNo) (pcb : TcpPcb) (len : Nat) :
    KeepsToWindow S isn (some pcb) (.recved len) ↔ pcb.recved + len ≤ pcb.delivered.length := by
  simp [KeepsToWindow, FromPeer]

instance (S : Bytes) (isn : SeqNo) : (s : Option TcpPcb) → (e : TcpPcbEvent) → Decidable (KeepsToWindow S isn s e)
  | some pcb, .input i => decidable_of_iff _ (keepsToWindow_input S isn pcb i).symm
  | some pcb, .recved len => decidable_of_iff _ (keepsToWindow_recved S isn pcb len).symm
  | none, _ => .isTrue ⟨trivial, by simp⟩
  | some _, .close _ | some _, .abort | some _, .output _ | some _, .fastTimer _ _ _ | some _, .slowTimer =>
    .isTrue (by simp [KeepsToWindow, FromPeer])

namespace TcpWindowAux

variable {S : Bytes} {isn : SeqNo} {x a k pos : Nat} {pcb pcb' : TcpPcb} {i : TcpInput} {r : TcpRecv} {q : List TcpSeg}
  {inseg : TcpSeg}

/-- The window in positions: it starts at `x`, the right edge last announced is `a`, and the one that would be announced now is
not before it and not behind the window there is. -/
structure Window (isn : SeqNo) (x a : Nat) (pcb : TcpPcb) : Prop where
  rcvNxt : pcb.rcvNxt = serialAt isn x
  edge : pcb.rcvAnnRightEdge = serialAt isn a
  le : x ≤ a
  ann : a ≤ x + pcb.rcvAnnWnd
  annWnd : pcb.rcvAnnWnd ≤ pcb.rcvWnd
  rcvWnd : pcb.rcvWnd ≤ tcpWnd

/-- Whatever else changes, the window is in these fields. -/
theorem Window.congr (h : Window isn x a pcb) (h1 : pcb'.rcvNxt = pcb.rcvNxt) (h2 : pcb'.rcvAnnRightEdge = pcb.rcvAnnRightEdge)
    (h3 : pcb'.rcvAnnWnd = pcb.rcvAnnWnd) (h4 : pcb'.rcvWnd = pcb.rcvWnd) : Window isn x a pcb' :=
  ⟨h1 ▸ h.rcvNxt, h2 ▸ h.edge, h.le, h3 ▸ h.ann, by rw [h3, h4]; exact h.annWnd, h4 ▸ h.rcvWnd⟩

/-- `tcp_update_rcv_ann_wnd` does not fail as long as the right edge that was announced is within the window. -/
theorem updateRcvAnnWnd_window (pcb : TcpPcb) (h1 : pcb.rcvNxt = serialAt isn x) (h2 : pcb.rcvAnnRightEdge = serialAt isn a) (h3 : x ≤ a)
    (h4 : a ≤ x + pcb.rcvWnd) (h5 : pcb.rcvWnd ≤ tcpWnd) :
    ∃ w, pcb.updateRcvAnnWnd = some { pcb with rcvAnnWnd := w } ∧ Window isn x a { pcb with rcvAnnWnd := w } := by
  have htw : tcpWnd = 5840 := rfl
  have hmin : min (tcpWnd / 2) pcb.mss ≤ 2920 := Nat.min_le_left _ _
  simp only [TcpPcb.updateRcvAnnWnd]
  have hge : serialGe (pcb.rcvNxt + BitVec.ofNat 32 pcb.rcvWnd) (pcb.rcvAnnRightEdge + BitVec.ofNat 32 (min (tcpWnd / 2) pcb.mss)) = true ↔
      a + min (tcpWnd / 2) pcb.mss ≤ x + pcb.rcvWnd := by
    rw [h1, h2, serialAt_add_nat, serialAt_add_nat, seqGe_iff (by omega) (by omega)]
    omega
  have hgt : ¬serialGt pcb.rcvNxt pcb.rcvAnnRightEdge = true := by
    rw [h1, h2, seqGt_iff (by omega) (by omega)]
    omega
  have hd : (pcb.rcvAnnRightEdge - pcb.rcvNxt).toNat = a - x := by
    rw [h1, h2, toNat_seqAt_sub h3 (by omega)]
  by_cases hc : a + min (tcpWnd / 2) pcb.mss ≤ x + pcb.rcvWnd
  · rw [if_pos (hge.2 hc)]
    exact ⟨pcb.rcvWnd, rfl, h1, h2, h3, h4, Nat.le_refl _, h5⟩
  · rw [if_neg (mt hge.1 hc), if_neg hgt, hd, if_pos (by omega)]
    exact ⟨a - x, rfl, h1, h2, h3, by simp only; omega, by simp only; omega, h5⟩

/-- The window moves on over `m` sequence numbers that were announced. -/
theorem Window.advance (h : Window isn x a pcb) {m : Nat} (hm : x + m ≤ a) {y : SeqNo} (hy : y = serialAt isn ((x + m : Nat) : Int)) :
    m ≤ pcb.rcvWnd ∧ ∃ w, TcpPcb.updateRcvAnnWnd { pcb with rcvNxt := y, rcvWnd := pcb.rcvWnd - m } =
        some { pcb with rcvNxt := y, rcvWnd := pcb.rcvWnd - m, rcvAnnWnd := w } ∧
      Window isn (x + m) a { pcb with rcvNxt := y, rcvWnd := pcb.rcvWnd - m, rcvAnnWnd := w } := by
  have h1 := h.ann
  have h2 := h.annWnd
  have h3 := h.rcvWnd
  refine ⟨by omega, ?_⟩
  exact updateRcvAnnWnd_window { pcb with rcvNxt := y, rcvWnd := pcb.rcvWnd - m } hy h.edge hm (by simp only; omega)
    (by simp only; omega)

/-- The segments that have become contiguous fit into the window. -/
theorem dequeue_window (hw : Window isn x a pcb) (hq : InOoseq S isn a x q) (hr : RecvOk r) :
    ∃ pcb' r', pcb.dequeue r q = some (pcb', r') ∧ ∃ x', x ≤ x' ∧ Window isn x' a pcb' := by
  induction q generalizing pcb r x with
  | nil => exact ⟨_, r, rfl, x, Nat.le_refl _, hw.congr rfl rfl rfl rfl⟩
  | cons cseg rest ih =>
    obtain ⟨pos, h1, h2, h3, h4, h5, h6⟩ := hq
    have hb1 := hw.ann
    have hb2 := hw.annWnd
    have hb3 := hw.rcvWnd
    have htw : tcpWnd = 5840 := rfl
    have heq : cseg.seqno = pcb.rcvNxt ↔ pos = x := by
      rw [h4.seqno, hw.rcvNxt, seqEq_iff (by omega) (by omega)]
      omega
    rw [TcpPcb.dequeue]
    by_cases hc : pos = x
    · subst hc
      have hy : pcb.rcvNxt + BitVec.ofNat 32 cseg.tcpLen = serialAt isn ((pos + cseg.tcpLen : Nat) : Int) := by
        rw [hw.rcvNxt, serialAt_add_nat, Nat.cast_add]
      obtain ⟨hle, w, hu, hw'⟩ := hw.advance h2 hy
      obtain ⟨r₁, hc1, hc2, -, -⟩ := chain_spec hr h4.chain
      rw [if_pos (heq.2 rfl), if_pos hle, hu]
      simp only [Option.bind_eq_bind, Option.bind_some, hc1]
      have htl := Seg.tcpLen_eq h4
      cases hf : cseg.fin with
      | true =>
        rw [h5 hf, if_pos rfl]
        exact ⟨_, _, rfl, _, Nat.le_add_right _ _, hw'.congr rfl rfl rfl rfl⟩
      | false =>
        rw [hf] at htl
        simp only [Bool.false_eq_true, if_false, Nat.add_zero] at htl ⊢
        obtain ⟨pcb', r', e, x', hx, hw''⟩ := ih hw' (htl ▸ h6) hc2
        exact ⟨pcb', r', e, x', by omega, hw''⟩
    · rw [if_neg (mt heq.1 hc)]
      exact ⟨_, r, rfl, x, Nat.le_refl _, hw.congr rfl rfl rfl rfl⟩

/-- In-sequence data that keeps to the window fits into it. -/
theorem receiveInSequence_window (hw : Window isn k a pcb) (hs : IsSegment S isn k inseg) (hpos : 0 < inseg.tcpLen)
    (hend : k + inseg.tcpLen ≤ a) (hq : InOoseq S isn a (k + 1) pcb.ooseq) :
    ∃ pcb' r, pcb.receiveInSequence inseg = some (pcb', r) ∧ ∃ x', k ≤ x' ∧ Window isn x' a pcb' := by
  have hb1 := hw.ann
  have hb2 := hw.annWnd
  have hb3 := hw.rcvWnd
  have htw : tcpWnd = 5840 := rfl
  obtain ⟨s₁, hs1, hs2, hs3, hs4, hs5⟩ := trimToWindow_spec hs hpos hw.rcvNxt (by omega)
  obtain ⟨s₂, q', ha1, ha2, ha3, ha4, ha5, ha6⟩ := adjustQueue_spec hs2 hs3 hq (by omega)
  have hend2 : k + s₂.tcpLen ≤ a := by omega
  obtain ⟨hle, w, hu, hw'⟩ := hw.advance hend2 (Seg.seqno_add ha2 s₂.tcpLen)
  simp only [TcpPcb.receiveInSequence, hs1, ha1, Option.bind_eq_bind, Option.bind_some, if_pos hle, hu]
  have hfirst := recvOk_first ha2 s₂.fin
  have htl := Seg.tcpLen_eq ha2
  have hq' : InOoseq S isn a (k + s₂.tcpLen) q' := by
    cases hf : s₂.fin with
    | true => rw [ha5 hf]; trivial
    | false =>
      rw [hf] at htl
      simp only [Bool.false_eq_true, if_false, Nat.add_zero] at htl
      exact htl ▸ ha6
  obtain ⟨p, r', hd, x', hle', hx⟩ := dequeue_window hw' hq' hfirst.1
  rw [hd, Option.bind_some]
  refine ⟨_, _, rfl, x', by omega, ?_⟩
  rw [TcpPcb.tcpAck]
  split <;> exact hx.congr rfl rfl rfl rfl

/-- An empty ACK announces a right edge that is not before the last one. -/
theorem sendEmptyAck_window (hw : Window isn x a pcb) (ok : Bool) : ∃ a', a ≤ a' ∧ Window isn x a' (pcb.sendEmptyAck ok) := by
  cases ok with
  | false => exact ⟨a, Nat.le_refl _, hw⟩
  | true =>
    refine ⟨x + pcb.rcvAnnWnd, hw.ann, hw.rcvNxt, ?_, Nat.le_add_right _ _, Nat.le_refl _, hw.annWnd, hw.rcvWnd⟩
    simp only [TcpPcb.sendEmptyAck, TcpPcb.announce, if_true]
    rw [hw.rcvNxt, serialAt_add_nat, Nat.cast_add]

/-- An early segment changes the queue and nothing else, but for the empty ACK. -/
theorem receiveOutOfSequence_eq {copyOk ackOk : Bool} (h : pcb.receiveOutOfSequence inseg copyOk ackOk = some pcb') :
    ∃ q, pcb' = { pcb.sendEmptyAck ackOk with ooseq := q } := by
  simp only [TcpPcb.receiveOutOfSequence] at h
  split at h
  · exact ⟨_, (Option.some.inj h).symm⟩
  · obtain ⟨q, -, rfl⟩ := Option.map_eq_some_iff.1 h
    exact ⟨q, rfl⟩

/-- `tcp_receive` of a segment that keeps to the window does not fail. -/
theorem tcpReceive_window (hw : Window isn k a pcb) (hs : IsSegment S isn pos i.inseg) (hlen : i.inseg.tcpLen ≤ 0x7fff)
    (h1 : pos < k + 2 ^ 30) (h2 : k < pos + 2 ^ 30) (hkS : k ≤ S.length) (hend : pos + i.inseg.tcpLen ≤ a)
    (hq : InOoseq S isn a (k + 1) pcb.ooseq) (hu : k < pos → pos < k + pcb.rcvWnd → Unwrapped pcb) :
    ∃ pcb' r, pcb.tcpReceive i = some (pcb', r) ∧ ∃ x' a', k ≤ x' ∧ x' ≤ a ∧ a ≤ a' ∧ Window isn x' a' pcb' := by
  have hb0 := hw.le
  have hb1 := hw.ann
  have hb2 := hw.annWnd
  have hb3 := hw.rcvWnd
  have htw : tcpWnd = 5840 := rfl
  cases hc : 0 < i.inseg.tcpLen && pcb.state.receiving with
  | false =>
    refine ⟨_, _, tcpReceive_idle hc, k, a, Nat.le_refl _, hb0, Nat.le_refl _, ?_⟩
    split
    · exact hw
    · exact hw.congr rfl rfl rfl rfl
  | true =>
    rw [TcpPcb.tcpReceive, if_pos hc]
    rw [Bool.and_eq_true, decide_eq_true_eq] at hc
    obtain ⟨hsome, hspec⟩ := trimFirstEdge_spec hs hc.1 hw.rcvNxt h1 h2
    obtain ⟨⟨pcb₁, inseg⟩, ht⟩ := Option.isSome_iff_exists.1 (hsome hlen)
    obtain ⟨hpcb, pos', hs', hpos', hsum, hor⟩ := hspec _ _ ht
    have hw1 : Window isn k a pcb₁ ∧ pcb₁.ooseq = pcb.ooseq ∧ pcb₁.rcvNxt = pcb.rcvNxt ∧ pcb₁.rcvWnd = pcb.rcvWnd := by
      rcases hpcb with rfl | rfl
      · exact ⟨hw, rfl, rfl, rfl⟩
      · exact ⟨hw.congr rfl rfl rfl rfl, rfl, rfl, rfl⟩
    obtain ⟨hw1, e1, e2, e3⟩ := hw1
    have hwin := inWindow_iff pos' hw1.rcvNxt (by omega) (by omega) (by omega)
    have hseq : pcb₁.rcvNxt = inseg.seqno ↔ k = pos' := by
      rw [hw1.rcvNxt, hs'.seqno, seqEq_iff (by omega) (by omega)]
      omega
    rw [← hs'.seqno] at hwin
    simp only [ht, Option.bind_eq_bind, Option.bind_some]
    by_cases hin : k ≤ pos' ∧ pos' < k + pcb₁.rcvWnd
    · rw [if_pos (hwin.2 hin)]
      by_cases heq : k = pos'
      · rw [if_pos (hseq.2 heq)]
        subst heq
        obtain ⟨p, r, hr, x', hx, hxw⟩ := receiveInSequence_window hw1 hs' hpos' (by omega) (e1 ▸ hq)
        exact ⟨p, r, hr, x', a, hx, hxw.le, Nat.le_refl _, hxw⟩
      · rw [if_neg (mt hseq.1 heq)]
        obtain rfl : pos' = pos := hor.resolve_right (Ne.symm heq)
        have hu1 : Unwrapped pcb₁ := by
          rw [Unwrapped, e2, e3]
          exact hu (by omega) (e3 ▸ hin.2)
        obtain ⟨p, hp, -⟩ := receiveOutOfSequence_spec hu1 hw1.rcvNxt hkS hs' (by omega) hpos' (by omega) hin.2 (e1 ▸ hq) (by omega)
          i.copyOk i.emptyAckOk
        obtain ⟨a', ha', hwa⟩ := sendEmptyAck_window hw1 i.emptyAckOk
        obtain ⟨q, hpq⟩ := receiveOutOfSequence_eq hp
        refine ⟨p, _, by rw [hp]; rfl, k, a', Nat.le_refl _, hb0, ha', ?_⟩
        rw [hpq]
        exact hwa.congr rfl rfl rfl rfl
    · rw [if_neg (mt hwin.1 hin)]
      obtain ⟨a', ha', hwa⟩ := sendEmptyAck_window hw1 i.emptyAckOk
      exact ⟨_, _, rfl, k, a', Nat.le_refl _, hb0, ha', hwa⟩

/-- The FIN that waits behind refused data. -/
def finPending (pcb : TcpPcb) : Nat := if pcb.refusedData.any (·.2) then 1 else 0

/-- There is room: what goes to the application and what it has not reported back, with a FIN it has not been told of, fits into
the window; and what is queued keeps to the right edge that was announced. -/
structure Room (S : Bytes) (isn : SeqNo) (pcb : TcpPcb) (r : TcpRecv) : Prop where
  window : ∃ x a, Window isn x a pcb ∧ (isOpen pcb.state = true → r.gotFin = false →
    x = pcb.received.length + (recvBytes r).length ∧ InOoseq S isn a (x + 1) pcb.ooseq)
  fits : pcb.rcvWnd + pcb.received.length + (recvBytes r).length + (if r.gotFin then 1 else 0) + finPending pcb ≤ tcpWnd + pcb.recved
  recved : pcb.recved ≤ pcb.delivered.length

/-- A change that leaves the window and what has been received alone, or drops some of it for good. -/
structure Calm (p p' : TcpPcb) : Prop where
  rcvNxt : p'.rcvNxt = p.rcvNxt
  edge : p'.rcvAnnRightEdge = p.rcvAnnRightEdge
  annWnd : p'.rcvAnnWnd = p.rcvAnnWnd
  rcvWnd : p'.rcvWnd = p.rcvWnd
  delivered : p'.delivered = p.delivered
  recved : p'.recved = p.recved
  refused : p'.refusedData = p.refusedData ∨ p'.refusedData = none
  isOpen : isOpen p'.state = true → isOpen p.state = true ∧ p'.ooseq = p.ooseq ∧ p'.refusedData = p.refusedData

theorem Room.calm (h : Room S isn pcb r) (hc : Calm pcb pcb') : Room S isn pcb' r := by
  have hlen : pcb'.received.length + finPending pcb' ≤ pcb.received.length + finPending pcb := by
    rcases hc.refused with hr | hr
    · rw [TcpPcb.received, TcpPcb.received, finPending, finPending, hc.delivered, hr]
    · rw [TcpPcb.received, TcpPcb.received, finPending, hc.delivered, hr]
      simp
      omega
  have hfits := h.fits
  refine ⟨?_, ?_, by rw [hc.recved, hc.delivered]; exact h.recved⟩
  · obtain ⟨x, a, hw, hq⟩ := h.window
    refine ⟨x, a, hw.congr hc.rcvNxt hc.edge hc.annWnd hc.rcvWnd, fun ho hg => ?_⟩
    obtain ⟨o1, o2, o3⟩ := hc.isOpen ho
    rw [TcpPcb.received, hc.delivered, o3, o2]
    exact hq o1 hg
  · rw [hc.rcvWnd, hc.recved]
    omega

theorem calm_free (pcb : TcpPcb) : Calm pcb pcb.free :=
  ⟨rfl, rfl, rfl, rfl, rfl, rfl, .inr rfl, fun ho => absurd ho Bool.false_ne_true⟩

/-- What `tcp_receive` takes from a segment that keeps to the window, there is room for. -/
theorem tcpReceive_room (h : Inv S isn pcb) (hr : Room S isn pcb ⟨none, false⟩)
    (hseg : isOpen pcb.state = true → OfStream S isn pcb i ∧ WithinWindow pcb i) :
    ∃ pcb' r, pcb.tcpReceive i = some (pcb', r) ∧ Room S isn pcb' r ∧ (r.gotFin = false → pcb'.state = pcb.state) := by
  have hnow : Calm pcb pcb.tcpAckNow := ⟨rfl, rfl, rfl, rfl, rfl, rfl, .inl rfl, fun ho => ⟨ho, rfl, rfl⟩⟩
  have hidle : ∀ b : Bool, Room S isn (if b then pcb else pcb.tcpAckNow) ⟨none, false⟩ ∧
      (if b then pcb else pcb.tcpAckNow).state = pcb.state := by
    intro b
    cases b with
    | true => exact ⟨hr, rfl⟩
    | false => exact ⟨hr.calm hnow, rfl⟩
  rcases h with ⟨k, h⟩ | h
  · obtain ⟨⟨pos, hs, hn1, hn2, hu⟩, hle, hshort⟩ := hseg h.state
    rw [h.length] at hn1 hn2 hu
    obtain ⟨x, a, hw, hq⟩ := hr.window
    obtain ⟨hx, hq⟩ := hq h.state rfl
    have hxk : x = k := by rw [hx, h.length]; rfl
    subst hxk
    have hb0 := hw.le
    have hb1 := hw.ann
    have hb2 := hw.annWnd
    have hb3 := hw.rcvWnd
    have htw : tcpWnd = 5840 := rfl
    have htl := Seg.tcpLen_le i.inseg
    have hlen : i.inseg.len ≤ tcpWnd := by
      rw [← Seg.bytes_length hs]
      exact hshort
    have hend : pos + i.inseg.tcpLen ≤ a := by
      have hseq : i.seqno + BitVec.ofNat 32 i.inseg.tcpLen = serialAt isn ((pos + i.inseg.tcpLen : Nat) : Int) :=
        Seg.seqno_add hs i.inseg.tcpLen
      rw [hseq, hw.edge, seqLe_iff (by omega) (by omega)] at hle
      omega
    obtain ⟨p, r', hrecv, x', a', hx1, hx2, hx3, hw'⟩ := tcpReceive_window hw hs (by omega) hn1 hn2 h.within hend hq hu
    obtain ⟨n, hrec, -, hb⟩ := tcpReceive_spec hs hn1 hn2 h.rcvNxt h.within (by omega) hq (by omega) (fun _ _ => hend) hu hrecv
    have hwithin := hrec.within
    have hn : (recvBytes r').length = n := by
      rw [hb, List.length_take, List.length_drop]
      omega
    have hwnd := hrec.rcvWnd
    have hrcv : p.received = pcb.received := by
      rw [TcpPcb.received, TcpPcb.received, hrec.keeps.delivered, hrec.keeps.refusedData]
    refine ⟨p, r', hrecv, ⟨⟨x', a', hw', fun _ hg => ?_⟩, ?_, ?_⟩, fun hg => hrec.state.resolve_right (by rw [hg]; simp)⟩
    · have hnxt := hrec.rcvNxt
      rw [hg] at hnxt hwnd
      simp only [Bool.false_eq_true, if_false, Nat.add_zero] at hnxt hwnd
      rw [hw'.rcvNxt, seqEq_iff (by omega) (by omega)] at hnxt
      obtain rfl : x' = x + n := by omega
      rw [hrcv, h.length, hn]
      exact ⟨rfl, Queue.mono hrec.queue (Nat.le_refl _) hx3⟩
    · have hfits := hr.fits
      simp only [recvBytes, Option.map_none, Option.getD_none, List.length_nil, Bool.false_eq_true, if_false, Nat.add_zero] at hfits
      rw [hrcv, hn, hrec.keeps.recved, finPending, hrec.keeps.refusedData, ← finPending]
      omega
    · rw [hrec.keeps.recved, hrec.keeps.delivered]
      exact hr.recved
  · have hst := h.state
    rw [isOpen, Bool.or_eq_false_iff] at hst
    obtain ⟨h1, h2⟩ := hidle (pcb.inWindow i.seqno)
    exact ⟨_, _, tcpReceive_idle (by rw [hst.1, Bool.and_false]), h1, fun _ => h2⟩

/-- What follows `tcp_receive` in `tcp_process` leaves the window alone. -/
theorem processReceive_room {next : TcpPcb → TcpRecv → TcpPcb × TcpVerdict} (h : Inv S isn pcb) (hr : Room S isn pcb ⟨none, false⟩)
    (hseg : isOpen pcb.state = true → OfStream S isn pcb i ∧ WithinWindow pcb i)
    (hnext : ∀ p r, (r.gotFin = false → p.state = pcb.state) → Calm p (next p r).1) :
    ∃ pcb' r v, pcb.processReceive i next = some (pcb', r, v) ∧ Room S isn pcb' r := by
  obtain ⟨p, r, hrecv, hroom, hst⟩ := tcpReceive_room h hr hseg
  exact ⟨(next p r).1, r, (next p r).2, by rw [TcpPcb.processReceive, hrecv]; rfl, hroom.calm (hnext p r hst)⟩

/-- `tcp_process` of a segment that keeps to the window does not fail, and there is room for what it takes. -/
theorem tcpProcess_room (h : Inv S isn pcb) (hr : Room S isn pcb ⟨none, false⟩)
    (hpeer : i.rst = true ∨ (i.syn = true ∧ i.ack = false) ∨ (isOpen pcb.state = true → OfStream S isn pcb i ∧ WithinWindow pcb i)) :
    ∃ pcb' r v, pcb.tcpProcess i = some (pcb', r, v) ∧ Room S isn pcb' r := by
  have hflags : ∀ p : TcpPcb, Calm p p := fun p => ⟨rfl, rfl, rfl, rfl, rfl, rfl, .inl rfl, fun ho => ⟨ho, rfl, rfl⟩⟩
  have hclose : ∀ (p : TcpPcb) (s : TcpState), isOpen s = false → Calm p { p.tcpAckNow with state := s } :=
    fun p s hs => ⟨rfl, rfl, rfl, rfl, rfl, rfl, .inl rfl, fun ho => absurd (hs.symm.trans ho) (by simp)⟩
  have hpassive : ∀ p r, Calm p (TcpPcb.passiveClose p r).1 := by
    intro p r
    rw [TcpPcb.passiveClose]
    split
    · exact hclose p .closeWait rfl
    · exact hflags p
  simp only [TcpPcb.tcpProcess]
  by_cases hrst : i.rst = true
  · rw [if_pos hrst]
    split
    · exact ⟨_, _, _, rfl, hr.calm ⟨rfl, rfl, rfl, rfl, rfl, rfl, .inl rfl, fun ho => ⟨ho, rfl, rfl⟩⟩⟩
    · exact ⟨_, _, _, rfl, hr⟩
  rw [if_neg hrst]
  by_cases hsyn : (i.syn && pcb.state != .synRcvd) = true
  · rw [if_pos hsyn]
    exact ⟨_, _, _, rfl, hr.calm ⟨rfl, rfl, rfl, rfl, rfl, rfl, .inl rfl, fun ho => ⟨ho, rfl, rfl⟩⟩⟩
  rw [if_neg hsyn]
  have hof : pcb.state ≠ .synRcvd → isOpen pcb.state = true → OfStream S isn pcb i ∧ WithinWindow pcb i := by
    intro hne
    refine (hpeer.resolve_left hrst).resolve_left fun hsa => hsyn ?_
    rw [hsa.1, Bool.true_and, bne_iff_ne]
    exact hne
  have hpurge : ∀ p : TcpPcb, Calm p { p.purge with state := .timeWait } ∧ Calm p { p.tcpAckNow.purge with state := .timeWait } :=
    fun p => ⟨⟨rfl, rfl, rfl, rfl, rfl, rfl, .inr rfl, fun ho => absurd ho Bool.false_ne_true⟩,
      rfl, rfl, rfl, rfl, rfl, rfl, .inr rfl, fun ho => absurd ho Bool.false_ne_true⟩
  cases hst : pcb.state with
  | synRcvd =>
    have hest : Room S isn { pcb with state := .established } ⟨none, false⟩ :=
      hr.calm ⟨rfl, rfl, rfl, rfl, rfl, rfl, .inl rfl, fun _ => ⟨by rw [hst]; rfl, rfl, rfl⟩⟩
    simp only
    split
    · rename_i hack
      rw [Bool.and_eq_true] at hack
      split
      · have hinv : Inv S isn { pcb with state := .established } := by
          rcases h with ⟨k, h⟩ | h
          · exact .inl ⟨k, rfl, h.rcvNxt, h.received, h.within, h.rcvWnd, h.queue, h.eof, h.refused, h.acks⟩
          · exact absurd (hst ▸ h.state) (by decide)
        have hof' := (hpeer.resolve_left hrst).resolve_left fun hsa => absurd (hack.1.symm.trans hsa.2) (by simp)
        exact processReceive_room hinv hest (fun _ => hof' (by rw [hst]; rfl)) fun p r _ => hpassive p r
      · exact ⟨_, _, _, rfl, hest⟩
    · exact ⟨_, _, _, rfl, hr⟩
  | closed => exact ⟨_, _, _, rfl, hr⟩
  | timeWait => exact ⟨_, _, _, rfl, hr⟩
  | established => exact processReceive_room h hr (hof (by rw [hst]; simp)) fun p r _ => hpassive p r
  | closeWait => exact processReceive_room h hr (hof (by rw [hst]; simp)) fun p r _ => hpassive p r
  | finWait1 =>
    refine processReceive_room h hr (hof (by rw [hst]; simp)) fun p r hp => ?_
    split_ifs with hg
    · exact (hpurge p).2
    · exact hclose p .closing rfl
    · exact ⟨rfl, rfl, rfl, rfl, rfl, rfl, .inl rfl, fun _ => ⟨by rw [hp (Bool.not_eq_true _ ▸ hg), hst]; rfl, rfl, rfl⟩⟩
    · exact hflags p
  | finWait2 =>
    refine processReceive_room h hr (hof (by rw [hst]; simp)) fun p r _ => ?_
    split_ifs
    · exact (hpurge p).2
    · exact hflags p
  | closing =>
    refine processReceive_room h hr (hof (by rw [hst]; simp)) fun p r _ => ?_
    split_ifs
    · exact (hpurge p).1
    · exact hflags p
  | lastAck =>
    refine processReceive_room h hr (hof (by rw [hst]; simp)) fun p r _ => ?_
    split_ifs <;> exact hflags p

/-- With nothing left for the application. -/
theorem Room.fits_nothing (h : Room S isn pcb ⟨none, false⟩) :
    pcb.rcvWnd + pcb.received.length + finPending pcb ≤ tcpWnd + pcb.recved := by
  have hfits := h.fits
  simpa [recvBytes] using hfits

/-- A connection that takes no more data. -/
theorem room_over (hw : Window isn x a pcb) (hst : isOpen pcb.state = false)
    (hfits : pcb.rcvWnd + pcb.received.length + finPending pcb ≤ tcpWnd + pcb.recved) (hrec : pcb.recved ≤ pcb.delivered.length) :
    Room S isn pcb ⟨none, false⟩ where
  window := ⟨x, a, hw, fun ho => absurd (hst.symm.trans ho) (by simp)⟩
  fits := by simpa [recvBytes] using hfits
  recved := hrec

/-- The FIN gives its place in the window back when the application is told of it. -/
theorem eventClosed_room (hw : Window isn x a pcb) (hst : isOpen pcb.state = false) (hrd : pcb.refusedData = none)
    (hfits : pcb.rcvWnd + pcb.delivered.length + 1 ≤ tcpWnd + pcb.recved) (hrec : pcb.recved ≤ pcb.delivered.length) (answer : TcpAnswer) :
    Room S isn (pcb.eventClosed answer) ⟨none, false⟩ := by
  have hne : pcb.rcvWnd ≠ tcpWnd := by omega
  have hw' : Window isn x a { pcb with rcvWnd := pcb.rcvWnd + 1, eof := true } :=
    ⟨hw.rcvNxt, hw.edge, hw.le, hw.ann, Nat.le_succ_of_le hw.annWnd, by simp only; omega⟩
  have hroom : Room S isn { pcb with rcvWnd := pcb.rcvWnd + 1, eof := true } ⟨none, false⟩ := by
    refine room_over hw' hst ?_ hrec
    simp only [TcpPcb.received, finPending, hrd, Option.map_none, Option.getD_none, List.append_nil, Option.any_none,
      Bool.false_eq_true, if_false, Nat.add_zero]
    omega
  rw [TcpPcb.eventClosed, if_neg hne]
  split
  · exact hroom.calm (calm_free _)
  · exact hroom

/-- Refused data that is offered again keeps its room. -/
theorem processRefusedData_room (h : Inv S isn pcb) (hr : Room S isn pcb ⟨none, false⟩) (recv closed : TcpAnswer) :
    Room S isn (pcb.processRefusedData recv closed) ⟨none, false⟩ := by
  rw [TcpPcb.processRefusedData]
  split
  · exact hr
  rename_i data fin hrd
  have hrec : pcb.received = pcb.delivered ++ data.bytes := by rw [TcpPcb.received, hrd]; rfl
  have hfits := hr.fits_nothing
  have hrecved := hr.recved
  obtain ⟨x, a, hw, hq⟩ := hr.window
  rw [hrec, List.length_append] at hfits
  cases recv with
  | refuse => exact hr
  | abrt => exact hr.calm ⟨rfl, rfl, rfl, rfl, rfl, rfl, .inr rfl, fun ho => absurd ho Bool.false_ne_true⟩
  | ok =>
    have hw' : Window isn x a { pcb with refusedData := none, delivered := pcb.delivered ++ data.bytes } := hw.congr rfl rfl rfl rfl
    cases fin with
    | true =>
      have hover : isOpen pcb.state = false := by
        rcases h with ⟨k, h⟩ | h
        · exact absurd hrd (h.refused data)
        · exact h.state
      rw [finPending, hrd] at hfits
      refine eventClosed_room hw' hover rfl ?_ ?_ closed
      · simp only [List.length_append]
        simp only [Option.any_some, if_true] at hfits
        omega
      · simp only [List.length_append]
        omega
    | false =>
      have hrec' : TcpPcb.received { pcb with refusedData := none, delivered := pcb.delivered ++ data.bytes } = pcb.received := by
        rw [hrec]
        simp [TcpPcb.received]
      refine ⟨⟨x, a, hw', fun ho hg => ?_⟩, ?_, ?_⟩
      · simp only [Bool.false_eq_true, if_false] at ho ⊢
        rw [hrec']
        exact hq ho rfl
      · simp only [Bool.false_eq_true, if_false]
        rw [hrec', hrec]
        simp only [recvBytes, finPending, Option.map_none, Option.getD_none, List.length_nil, List.length_append, Option.any_none,
          Bool.false_eq_true, if_false, Nat.add_zero]
        omega
      · simp only [Bool.false_eq_true, if_false, List.length_append]
        omega

/-- Refused data that is offered again leaves the right edge alone. -/
theorem refused_edge (pcb : TcpPcb) (recv closed : TcpAnswer) :
    (pcb.processRefusedData recv closed).rcvAnnRightEdge = pcb.rcvAnnRightEdge := by
  rw [TcpPcb.processRefusedData]
  split
  · rfl
  · cases recv with
    | refuse => rfl
    | abrt => rfl
    | ok =>
      simp only [TcpPcb.eventClosed]
      split_ifs <;> rfl

/-- A connection freed with data left for the callbacks. -/
theorem Room.free (hr : Room S isn pcb r) : Room S isn pcb.free ⟨none, false⟩ := by
  obtain ⟨x, a, hw, -⟩ := hr.window
  have hfits := hr.fits
  refine room_over (hw.congr rfl rfl rfl rfl) rfl ?_ hr.recved
  have hlen : pcb.free.received.length ≤ pcb.received.length := by simp [TcpPcb.received, TcpPcb.free, TcpPcb.purge]
  have hpend : finPending pcb.free = 0 := rfl
  have hwnd : pcb.free.rcvWnd = pcb.rcvWnd := rfl
  have hrcv : pcb.free.recved = pcb.recved := rfl
  omega

/-- The callbacks do not fail, and what they leave there is room for. -/
theorem notify_room (h : Processed S isn pcb r) (hr : Room S isn pcb r) :
    ∃ pcb', pcb.notify i r = some pcb' ∧ Room S isn pcb' ⟨none, false⟩ := by
  have hrecved := hr.recved
  have hfits := hr.fits
  obtain ⟨x, a, hw, hq⟩ := hr.window
  have hfree := hr.free
  rw [TcpPcb.notify]
  cases hd : r.data with
  | some data =>
    have hrd := h.data (by rw [hd]; rfl)
    have hb : recvBytes r = data.bytes := by rw [recvBytes, hd]; rfl
    have hlen : pcb.received = pcb.delivered := by simp [TcpPcb.received, hrd]
    rw [hb, hlen, finPending, hrd] at hfits
    rw [hb, hlen] at hq
    simp only [Option.any_none, Bool.false_eq_true, if_false, Nat.add_zero] at hfits
    have hnone : ¬pcb.refusedData.isSome = true := by rw [hrd]; simp
    simp only [if_neg hnone]
    split
    · exact ⟨_, rfl, hfree⟩
    · cases i.recv with
      | abrt => exact ⟨_, rfl, hfree⟩
      | ok =>
        refine ⟨_, rfl, ?_⟩
        have hw' : Window isn x a { pcb with delivered := pcb.delivered ++ data.bytes } := hw.congr rfl rfl rfl rfl
        cases hg : r.gotFin with
        | true =>
          rw [if_pos rfl]
          rw [hg] at hfits
          refine eventClosed_room hw' (h.fin hg).1 hrd ?_ ?_ i.closed
          · simp only [List.length_append]
            simp only [if_true] at hfits
            omega
          · simp only [List.length_append]
            omega
        | false =>
          rw [hg] at hfits hq
          simp only [Bool.false_eq_true, if_false, Nat.add_zero] at hfits ⊢
          refine ⟨⟨x, a, hw', fun ho _ => ?_⟩, ?_, ?_⟩
          · obtain ⟨q1, q2⟩ := hq ho rfl
            refine ⟨?_, q2⟩
            simp [TcpPcb.received, recvBytes, hrd, q1]
          · simp [TcpPcb.received, recvBytes, finPending, hrd]
            omega
          · simp only [List.length_append]
            omega
      | refuse =>
        refine ⟨_, rfl, ⟨x, a, hw.congr rfl rfl rfl rfl, fun ho _ => ?_⟩, ?_, hrecved⟩
        · have hg : r.gotFin = false := by
            cases hg : r.gotFin with
            | false => rfl
            | true => exact absurd ((h.fin hg).1.symm.trans ho) (by simp)
          obtain ⟨q1, q2⟩ := hq ho hg
          refine ⟨?_, q2⟩
          simp [TcpPcb.received, recvBytes, q1]
        · simp only [TcpPcb.received, recvBytes, finPending, Option.map_some, Option.getD_some, Option.map_none, Option.getD_none,
            List.length_append, List.length_nil, Option.any_some, Bool.false_eq_true, if_false, Nat.add_zero]
          omega
  | none =>
    have hb : recvBytes r = [] := by rw [recvBytes, hd]; rfl
    simp only
    cases hg : r.gotFin with
    | false =>
      refine ⟨pcb, by simp, ?_⟩
      have hrr : r = ⟨none, false⟩ := by rw [← hd, ← hg]
      exact hrr ▸ hr
    | true =>
      obtain ⟨f1, f2, -⟩ := h.fin hg
      rw [if_pos rfl, f2]
      have hlen : pcb.received = pcb.delivered := by simp [TcpPcb.received, f2]
      rw [hb, hlen, hg] at hfits
      simp only [List.length_nil, if_true, Nat.add_zero] at hfits
      exact ⟨_, rfl, eventClosed_room hw f1 f2 (by omega) hrecved i.closed⟩

/-- A segment that keeps to the window arrives at an active connection. -/
theorem activeInput_room (h : Inv S isn pcb) (hr : Room S isn pcb ⟨none, false⟩)
    (hpeer : i.rst = true ∨ (i.syn = true ∧ i.ack = false) ∨ (OfStream S isn pcb i ∧ WithinWindow pcb i)) :
    ∃ pcb', pcb.activeInput i = some pcb' ∧ Room S isn pcb' ⟨none, false⟩ := by
  have hinv := inv_refused h i.refused i.closed
  have hsame := refused_same h i.refused i.closed
  have hedge := refused_edge pcb i.refused i.closed
  have hroom := processRefusedData_room h hr i.refused i.closed
  simp only [TcpPcb.activeInput]
  generalize pcb.processRefusedData i.refused i.closed = p at hinv hsame hedge hroom ⊢
  split
  · exact ⟨p, rfl, hroom⟩
  · rename_i hgo
    rw [Bool.or_eq_true, not_or] at hgo
    have href : p.refusedData = none ∨ i.inseg.tcpLen = 0 := by
      cases hrd : p.refusedData with
      | none => exact .inl rfl
      | some d =>
        refine .inr (Nat.eq_zero_of_not_pos fun hpos => hgo.2 ?_)
        rw [hrd]
        simp [hpos]
    have hof : i.rst = true ∨ (i.syn = true ∧ i.ack = false) ∨ (isOpen p.state = true → OfStream S isn p i ∧ WithinWindow p i) := by
      refine hpeer.imp_right (Or.imp_right fun hof ho => ?_)
      obtain ⟨h1, h2, h3⟩ := hsame ho
      rw [OfStream, Unwrapped, WithinWindow, h1, h2, h3, hedge]
      exact hof
    obtain ⟨p', r, v, hproc, hroom'⟩ := tcpProcess_room hinv hroom hof
    obtain ⟨hd, -⟩ := tcpProcess_spec hinv (hof.imp_right (Or.imp_right fun hof ho => (hof ho).1)) href hproc
    simp only [hproc, Option.bind_eq_bind, Option.bind_some]
    split
    · exact ⟨_, rfl, hroom'.free⟩
    · exact notify_room hd hroom'

/-- A segment that keeps to the window arrives. -/
theorem tcpInput_room (h : Inv S isn pcb) (hr : Room S isn pcb ⟨none, false⟩)
    (hpeer : i.rst = true ∨ (i.syn = true ∧ i.ack = false) ∨ (OfStream S isn pcb i ∧ WithinWindow pcb i)) :
    ∃ pcb', pcb.tcpInput i = some pcb' ∧ Room S isn pcb' ⟨none, false⟩ := by
  rw [TcpPcb.tcpInput]
  split
  · exact ⟨pcb, rfl, hr⟩
  · refine ⟨_, rfl, ?_⟩
    rw [TcpPcb.timewaitInput]
    split_ifs
    · exact hr
    · exact hr
    · exact hr.calm ⟨rfl, rfl, rfl, rfl, rfl, rfl, .inl rfl, fun ho => ⟨ho, rfl, rfl⟩⟩
    · exact hr
  · exact activeInput_room h hr hpeer

/-- The application reports back bytes it was given: there is as much room again. -/
theorem tcpRecved_room {len : Nat} (hr : Room S isn pcb ⟨none, false⟩) (hlen : pcb.recved + len ≤ pcb.delivered.length) :
    ∃ pcb', pcb.tcpRecved len = some pcb' ∧ Room S isn pcb' ⟨none, false⟩ := by
  have hfits := hr.fits_nothing
  obtain ⟨x, a, hw, hq⟩ := hr.window
  have hb1 := hw.ann
  have hb2 := hw.annWnd
  have hb3 := hw.rcvWnd
  have htw : tcpWnd = 5840 := rfl
  have hrec : pcb.delivered.length ≤ pcb.received.length := by simp [TcpPcb.received]
  rw [TcpPcb.tcpRecved, if_pos (by omega)]
  obtain ⟨w, hu, hw'⟩ := updateRcvAnnWnd_window
    { pcb with rcvWnd := min (pcb.rcvWnd + len) tcpWnd, recved := pcb.recved + len } hw.rcvNxt hw.edge hw.le
    (by simp only; omega) (Nat.min_le_right _ _)
  have hroom : Room S isn { pcb with rcvWnd := min (pcb.rcvWnd + len) tcpWnd, recved := pcb.recved + len, rcvAnnWnd := w } ⟨none, false⟩ := by
    refine ⟨⟨x, a, hw', hq⟩, ?_, hlen⟩
    simp only [TcpPcb.received, finPending] at hfits
    simp only [TcpPcb.received, finPending, recvBytes, Option.map_none, Option.getD_none, List.length_nil, Bool.false_eq_true, if_false,
      Nat.add_zero]
    omega
  simp only [hu, Option.map_some]
  refine ⟨_, rfl, ?_⟩
  split
  · exact hroom.calm ⟨rfl, rfl, rfl, rfl, rfl, rfl, .inl rfl, fun ho => ⟨ho, rfl, rfl⟩⟩
  · exact hroom

/-- Closing leaves the window alone. -/
theorem tcpClose_room (hr : Room S isn pcb ⟨none, false⟩) (finOk : Bool) : Room S isn (pcb.tcpClose finOk) ⟨none, false⟩ := by
  have hrx : Calm pcb { pcb with rxClosed := true } := ⟨rfl, rfl, rfl, rfl, rfl, rfl, .inl rfl, fun ho => ⟨ho, rfl, rfl⟩⟩
  have hfin : isOpen pcb.state = true → Calm pcb { pcb with rxClosed := true, state := .finWait1 } :=
    fun ho => ⟨rfl, rfl, rfl, rfl, rfl, rfl, .inl rfl, fun _ => ⟨ho, rfl, rfl⟩⟩
  simp only [TcpPcb.tcpClose]
  split
  · rename_i hst
    split_ifs
    · exact hr.calm (hfin (by rw [hst]; rfl))
    · exact hr.calm hrx
  · rename_i hst
    split_ifs
    · exact hr.calm ⟨rfl, rfl, rfl, rfl, rfl, rfl, .inr rfl, fun ho => absurd ho Bool.false_ne_true⟩
    · exact hr.calm (hfin (by rw [hst]; rfl))
    · exact hr.calm hrx
  · split_ifs
    · exact hr.calm ⟨rfl, rfl, rfl, rfl, rfl, rfl, .inr rfl, fun ho => absurd ho Bool.false_ne_true⟩
    · exact hr.calm ⟨rfl, rfl, rfl, rfl, rfl, rfl, .inl rfl, fun ho => absurd ho Bool.false_ne_true⟩
    · exact hr.calm hrx
  · exact hr.calm hrx

/-- A segment that goes out announces the window there is. -/
theorem announce_room (hr : Room S isn pcb ⟨none, false⟩) : Room S isn pcb.announce ⟨none, false⟩ := by
  obtain ⟨x, a, hw, hq⟩ := hr.window
  refine ⟨⟨x, x + pcb.rcvAnnWnd, ⟨hw.rcvNxt, ?_, Nat.le_add_right _ _, Nat.le_refl _, hw.annWnd, hw.rcvWnd⟩, fun ho hg => ?_⟩, hr.fits,
    hr.recved⟩
  · simp only [TcpPcb.announce]
    rw [hw.rcvNxt, serialAt_add_nat, Nat.cast_add]
  · obtain ⟨q1, q2⟩ := hq ho hg
    exact ⟨q1, Queue.mono q2 (Nat.le_refl _) hw.ann⟩

/-- `tcp_output` announces the window there is, or nothing. -/
theorem tcpOutput_room (hr : Room S isn pcb ⟨none, false⟩) (s : TcpSending) : Room S isn (pcb.tcpOutput s) ⟨none, false⟩ := by
  have hann := announce_room hr
  have hcalm : ∀ acks, Calm pcb.announce { pcb.announce with ackDelay := false, ackNow := false, acks := acks } :=
    fun _ => ⟨rfl, rfl, rfl, rfl, rfl, rfl, .inl rfl, fun ho => ⟨ho, rfl, rfl⟩⟩
  rw [TcpPcb.tcpOutput]
  split_ifs
  · rw [TcpPcb.sendEmptyAck]
    split_ifs
    · exact hann.calm (hcalm _)
    · exact hr
  · exact hann.calm (hcalm _)
  · exact hr

/-- The timer announces the window there is, and refused data keeps its room. -/
theorem tcpFasttmr_room (h : Inv S isn pcb) (hr : Room S isn pcb ⟨none, false⟩) (s : TcpSending) (recv closed : TcpAnswer) :
    Room S isn (pcb.tcpFasttmr s recv closed) ⟨none, false⟩ := by
  simp only [TcpPcb.tcpFasttmr]
  split
  · have hnow : Inv S isn pcb.tcpAckNow := inv_flags h ⟨rfl, rfl, rfl, rfl, rfl, rfl⟩ rfl rfl rfl rfl rfl
    have hroom : Room S isn pcb.tcpAckNow ⟨none, false⟩ := hr.calm ⟨rfl, rfl, rfl, rfl, rfl, rfl, .inl rfl, fun ho => ⟨ho, rfl, rfl⟩⟩
    refine processRefusedData_room ?_ ((tcpOutput_room hroom s).calm ?_) recv closed
    · exact inv_flags (inv_output hnow s) ⟨rfl, rfl, rfl, rfl, rfl, rfl⟩ rfl rfl rfl rfl rfl
    · exact ⟨rfl, rfl, rfl, rfl, rfl, rfl, .inl rfl, fun ho => ⟨ho, rfl, rfl⟩⟩
  · exact processRefusedData_room h hr recv closed

/-- No event of a peer and an application that keep to the window makes an assertion fail. -/
theorem handle_room {e : TcpPcbEvent} (h : Inv S isn pcb) (hr : Room S isn pcb ⟨none, false⟩) (hk : KeepsToWindow S isn (some pcb) e) :
    ∃ pcb', pcb.handle e = some pcb' ∧ Room S isn pcb' ⟨none, false⟩ := by
  obtain ⟨hpeer, hk⟩ := hk
  obtain ⟨hin, hrecved⟩ := hk pcb rfl
  cases e with
  | input i =>
    refine tcpInput_room h hr ?_
    rcases hpeer with h1 | h1 | h1
    · exact .inl h1
    · exact .inr (.inl h1)
    · exact (hin i rfl).imp_right (Or.imp_right fun hw => ⟨h1, hw⟩)
  | recved len =>
    rw [TcpPcb.handle]
    split
    · exact ⟨pcb, rfl, hr⟩
    · exact tcpRecved_room hr (hrecved len rfl)
  | close finOk => exact ⟨_, rfl, tcpClose_room hr finOk⟩
  | abort => exact ⟨_, rfl, hr.calm (calm_free pcb)⟩
  | output s =>
    refine ⟨_, rfl, ?_⟩
    split
    · exact hr
    · exact tcpOutput_room hr s
  | fastTimer s recv closed =>
    refine ⟨_, rfl, ?_⟩
    split
    · exact hr
    · exact tcpFasttmr_room h hr s recv closed
  | slowTimer =>
    refine ⟨_, rfl, ?_, hr.fits, hr.recved⟩
    obtain ⟨x, a, hw, hq⟩ := hr.window
    exact ⟨x, a, hw.congr rfl rfl rfl rfl, fun ho hg => ⟨(hq ho hg).1, trivial⟩⟩

/-- A connection that has just been opened has all the room. -/
theorem room_new (S : Bytes) (isn : SeqNo) (mss : Nat) : Room S isn (.new isn mss) ⟨none, false⟩ where
  window := ⟨0, 0, ⟨by simp [TcpPcb.new, serialAt], by simp [TcpPcb.new, serialAt], Nat.le_refl _, Nat.zero_le _, Nat.le_refl _,
    Nat.le_refl _⟩, fun _ _ => ⟨rfl, trivial⟩⟩
  fits := Nat.le_refl _
  recved := Nat.le_refl _

/-- Every run keeps the room. -/
theorem run_room {mss : Nat} {es : List TcpPcbEvent} {s : Option TcpPcb} (h : (tcpSystem isn mss).RunWhere (KeepsToWindow S isn) es s) :
    ∃ pcb, s = some pcb ∧ Inv S isn pcb ∧ Room S isn pcb ⟨none, false⟩ := by
  refine h.invariant (fun _ s => ∃ pcb, s = some pcb ∧ Inv S isn pcb ∧ Room S isn pcb ⟨none, false⟩) ?_ ?_
  · rintro s rfl
    exact ⟨_, rfl, inv_new S isn mss, room_new S isn mss⟩
  · rintro _ _ e s' ⟨pcb, rfl, hinv, hroom⟩ hok hstep
    obtain ⟨pcb', hp, hroom'⟩ := handle_room hinv hroom hok
    have hs' : s' = some pcb' := (Option.some.inj hstep).symm.trans hp
    exact ⟨pcb', hs', handle_spec hinv hok.1 hp, hroom'⟩

end TcpWindowAux

open TcpWindowAux

/-- The window is kept. In every run with a peer that sends segments of one stream (near what has been received, and none early while
the right edge of the window wraps) within the window it was told of, and an application that reports back no more than it was given,
1. no assertion on the receiving side fails;
2. what the application has not reported back, with what the peer may still send, is never more than `TCP_WND`. -/
theorem tcp_input_within_window (S : Bytes) (isn : SeqNo) (mss : Nat) {es : List TcpPcbEvent} {s : Option TcpPcb}
    (h : (tcpSystem isn mss).RunWhere (KeepsToWindow S isn) es s) :
    ∃ pcb, s = some pcb ∧ pcb.received.length + (pcb.rcvAnnRightEdge - pcb.rcvNxt).toNat ≤ tcpWnd + pcb.recved := by
  obtain ⟨pcb, rfl, -, hroom⟩ := run_room h
  refine ⟨pcb, rfl, ?_⟩
  have hfits := hroom.fits_nothing
  obtain ⟨x, a, hw, -⟩ := hroom.window
  have hb1 := hw.ann
  have hb2 := hw.annWnd
  have hb3 := hw.rcvWnd
  have htw : tcpWnd = 5840 := rfl
  rw [hw.rcvNxt, hw.edge, toNat_seqAt_sub hw.le (by omega)]
  omega

theorem endFirst_keepsToWindow :
    ((tcpSystem 7 1460).execWhere (KeepsToWindow [1, 2, 3] 7) (some (.new 7 1460)) (endFirst ++ [.recved 3])).isSome = true := by
  decide +kernel

/-- The stream arrives end first and the application reports it back. -/
theorem endFirst_within_window : ∃ es pcb, (tcpSystem 7 1460).RunWhere (KeepsToWindow [1, 2, 3] 7) es (some pcb) ∧ pcb.recved = 3 ∧
    pcb.received.length + (pcb.rcvAnnRightEdge - pcb.rcvNxt).toNat ≤ tcpWnd + pcb.recved := by
  have hrun : (tcpSystem 7 1460).RunWhere (KeepsToWindow [1, 2, 3] 7) (endFirst ++ [.recved 3]) (Option.get _ endFirst_keepsToWindow) :=
    (System.RunWhere.init (M := tcpSystem 7 1460) (s := some (.new 7 1460)) rfl).execWhere (Option.some_get _).symm
  have hrecved : (Option.get _ endFirst_keepsToWindow).map (·.recved) = some 3 := by decide +kernel
  obtain ⟨pcb, hs, hfits⟩ := tcp_input_within_window [1, 2, 3] 7 1460 hrun
  rw [hs] at hrun hrecved
  exact ⟨_, pcb, hrun, Option.some.inj hrecved, hfits⟩

end PsiphonAndroid
