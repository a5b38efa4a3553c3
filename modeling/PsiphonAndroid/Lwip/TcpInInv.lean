import Mathlib
import PsiphonAndroid.Lwip.TcpIn

/-!
# Segments of one stream

The peer sends one stream of bytes, cut into segments as it likes. A segment is at a position of the stream, a natural number;
its sequence number is that position counted from the peer's first one, modulo `2 ^ 32`. `InOoseq` says what `ooseq` is in terms of
positions: segments one behind the other, none overlapping the next, the FIN only on the last. The lemmas here say of each
function of the TCP input what it does to the positions, and that what it makes of segments of the stream are segments again.
-/

namespace PsiphonAndroid

open Lib

/-- `s` is the segment of the stream `S` at position `pos`; the stream's first byte has the sequence number `isn`. -/
structure IsSegment (S : Bytes) (isn : SeqNo) (pos : Nat) (s : TcpSeg) : Prop where
  seqno : s.seqno = serialAt isn pos
  chain : s.p.WellFormed
  bytes : s.p.bytes = (S.drop pos).take s.len
  within : pos + s.len ≤ S.length
  len : s.len < 2 ^ 16
  fin : s.fin = true → pos + s.len = S.length
  syn : s.syn = false

instance (S : Bytes) (isn : SeqNo) (pos : Nat) (s : TcpSeg) : Decidable (IsSegment S isn pos s) :=
  decidable_of_iff (s.seqno = serialAt isn pos ∧ s.p.WellFormed ∧ s.p.bytes = (S.drop pos).take s.len ∧ pos + s.len ≤ S.length ∧
      s.len < 2 ^ 16 ∧ (s.fin = true → pos + s.len = S.length) ∧ s.syn = false)
    ⟨fun ⟨h1, h2, h3, h4, h5, h6, h7⟩ => ⟨h1, h2, h3, h4, h5, h6, h7⟩, fun ⟨h1, h2, h3, h4, h5, h6, h7⟩ => ⟨h1, h2, h3, h4, h5, h6, h7⟩⟩

/-- The segments of a queue are at positions from `lo` on, one behind the other, and end at `hi` at the latest. -/
def InOoseq (S : Bytes) (isn : SeqNo) (hi : Nat) : Nat → List TcpSeg → Prop
  | _, [] => True
  | lo, s :: rest =>
    ∃ pos, lo ≤ pos ∧ pos + s.tcpLen ≤ hi ∧ 0 < s.tcpLen ∧ IsSegment S isn pos s ∧ (s.fin = true → rest = []) ∧
      InOoseq S isn hi (pos + s.len) rest

namespace TcpInAux

variable {S : Bytes} {isn : SeqNo} {hi lo k pos : Nat} {pcb : TcpPcb} {s inseg cseg : TcpSeg} {q : List TcpSeg}

/-! ### Sequence numbers -/

theorem near_of {x y : Int} (h1 : x - y < 2147483648) (h2 : y - x < 2147483648) : Near 32 x y :=
  ⟨by simpa using h1, by simpa using h2⟩

theorem seqAt_add_one (x : Int) : serialAt isn x + 1 = serialAt isn (x + 1) := serialAt_add_nat isn x 1

theorem seqAt_sub_one (x : Int) : serialAt isn x - 1 = serialAt isn (x - 1) := serialAt_sub_nat isn x 1

theorem seqGe_iff {x y : Int} (h1 : x - y < 2147483648) (h2 : y - x < 2147483648) :
    serialGe (serialAt isn x) (serialAt isn y) = true ↔ y ≤ x := serialGe_iff (by decide) isn (near_of h1 h2)

theorem seqGt_iff {x y : Int} (h1 : x - y < 2147483648) (h2 : y - x < 2147483648) :
    serialGt (serialAt isn x) (serialAt isn y) = true ↔ y < x := serialGt_iff (by decide) isn (near_of h1 h2)

theorem seqLt_iff {x y : Int} (h1 : x - y < 2147483648) (h2 : y - x < 2147483648) :
    serialLt (serialAt isn x) (serialAt isn y) = true ↔ x < y := serialLt_iff (by decide) isn (near_of h1 h2)

theorem seqLe_iff {x y : Int} (h1 : x - y < 2147483648) (h2 : y - x < 2147483648) :
    serialLe (serialAt isn x) (serialAt isn y) = true ↔ x ≤ y := serialLe_iff (by decide) isn (near_of h1 h2)

theorem seqEq_iff {x y : Int} (h1 : x - y < 2147483648) (h2 : y - x < 2147483648) :
    serialAt isn x = serialAt isn y ↔ x = y := serialAt_eq_iff (by decide) isn (near_of h1 h2)

theorem seqBetween_iff {x y z : Int} (h1 : x - y < 2147483648) (h2 : y - x < 2147483648) (h3 : x - z < 2147483648)
    (h4 : z - x < 2147483648) :
    serialBetween (serialAt isn x) (serialAt isn y) (serialAt isn z) = true ↔ y ≤ x ∧ x ≤ z :=
  serialBetween_iff (by decide) isn (near_of h1 h2) (near_of h3 h4)

/-- The distance of two positions, from their sequence numbers. -/
theorem toNat_seqAt_sub {x y : Nat} (h : x ≤ y) (hw : y - x < 2147483648) :
    (serialAt isn y - serialAt isn x).toNat = y - x := by
  rw [toNat_serialAt_sub isn (by omega) (by norm_num; omega)]
  omega

/-! ### Segments -/

namespace Seg

/-- Without a SYN the length counts the FIN only. -/
theorem tcpLen_eq (h : IsSegment S isn pos s) : s.tcpLen = s.len + if s.fin then 1 else 0 := by
  rw [TcpSeg.tcpLen, h.syn, Bool.or_false]

theorem len_le (s : TcpSeg) : s.len ≤ s.tcpLen := Nat.le_add_right ..

theorem tcpLen_le (s : TcpSeg) : s.tcpLen ≤ s.len + 1 := by
  rw [TcpSeg.tcpLen]
  split <;> omega

/-- The end of a segment, as a sequence number. -/
theorem seqno_add (h : IsSegment S isn pos s) (n : Nat) : s.seqno + BitVec.ofNat 32 n = serialAt isn ((pos + n : Nat) : Int) := by
  rw [h.seqno, serialAt_add_nat, Nat.cast_add]

theorem bytes_length (h : IsSegment S isn pos s) : s.p.bytes.length = s.len := by
  have := h.within
  rw [h.bytes, List.length_take, List.length_drop]
  omega

theorem totLen (h : IsSegment S isn pos s) : s.p.totLen = s.len := by
  rw [PbufChain.totLen_eq h.chain.lengths, bytes_length h]

/-- A segment cut off at its end is one, without a FIN. -/
theorem cut (h : IsSegment S isn pos s) (n : Nat) (fin : Bool) (hn : n ≤ s.len) {p : PbufChain} (hp : p.WellFormed)
    (hb : p.bytes = s.p.bytes.take n) (hf : fin = true → pos + n = S.length) :
    IsSegment S isn pos { s with len := n, fin := fin, p := p } where
  seqno := h.seqno
  chain := hp
  bytes := by rw [hb, h.bytes, List.take_take, Nat.min_eq_left hn]
  within := by have := h.within; simp only; omega
  len := by have := h.len; simp only; omega
  fin := hf
  syn := h.syn

/-- A segment whose first `n` bytes are hidden is the one `n` bytes further on. -/
theorem advance (h : IsSegment S isn pos s) {n : Nat} (hn : n ≤ s.len) {p : PbufChain} (hp : p.WellFormed)
    (hb : p.bytes = s.p.bytes.drop n) :
    IsSegment S isn (pos + n) { s with seqno := serialAt isn ((pos + n : Nat) : Int), len := s.len - n, p := p } where
  seqno := rfl
  chain := hp
  bytes := by rw [hb, h.bytes, List.drop_take, List.drop_drop]
  within := by have := h.within; simp only; omega
  len := by have := h.len; simp only; omega
  fin := fun hf => by have := h.fin hf; simp only; omega
  syn := h.syn

/-- A segment that ends where the stream ends may carry the FIN. -/
theorem setFin (h : IsSegment S isn pos s) (he : pos + s.len = S.length) : IsSegment S isn pos { s with fin := true } :=
  { h with fin := fun _ => he }

end Seg

/-! ### Queues -/

namespace Queue

theorem mono {lo' hi' : Nat} (h : InOoseq S isn hi lo q) (hlo : lo' ≤ lo) (hhi : hi ≤ hi') : InOoseq S isn hi' lo' q := by
  induction q generalizing lo lo' with
  | nil => trivial
  | cons s rest ih =>
    obtain ⟨pos, h1, h2, h3, h4, h5, h6⟩ := h
    exact ⟨pos, by omega, by omega, h3, h4, h5, ih h6 (Nat.le_refl _)⟩

/-- A segment in front of a queue that starts behind it. -/
theorem cons (hs : IsSegment S isn pos s) (hlo : lo ≤ pos) (hhi : pos + s.tcpLen ≤ hi) (hpos : 0 < s.tcpLen)
    (hf : s.fin = true → q = []) (hq : InOoseq S isn hi (pos + s.len) q) : InOoseq S isn hi lo (s :: q) :=
  ⟨pos, hlo, hhi, hpos, hs, hf, hq⟩

end Queue

/-! ### In sequence -/

/-- What `tcp_receive` does not touch: what the application has been given, and what it refused. -/
structure Keeps (pcb pcb' : TcpPcb) : Prop where
  delivered : pcb'.delivered = pcb.delivered
  recved : pcb'.recved = pcb.recved
  eof : pcb'.eof = pcb.eof
  refusedData : pcb'.refusedData = pcb.refusedData
  rxClosed : pcb'.rxClosed = pcb.rxClosed
  mss : pcb'.mss = pcb.mss

theorem Keeps.refl (pcb : TcpPcb) : Keeps pcb pcb := ⟨rfl, rfl, rfl, rfl, rfl, rfl⟩

theorem Keeps.trans {pcb pcb₁ pcb₂ : TcpPcb} (h : Keeps pcb pcb₁) (h' : Keeps pcb₁ pcb₂) : Keeps pcb pcb₂ :=
  ⟨h'.delivered.trans h.delivered, h'.recved.trans h.recved, h'.eof.trans h.eof, h'.refusedData.trans h.refusedData,
    h'.rxClosed.trans h.rxClosed, h'.mss.trans h.mss⟩

/-- `tcp_update_rcv_ann_wnd` sets the window that is announced, and nothing else. -/
theorem updateRcvAnnWnd_eq {pcb' : TcpPcb} (h : pcb.updateRcvAnnWnd = some pcb') :
    ∃ w, pcb' = { pcb with rcvAnnWnd := w } := by
  simp only [TcpPcb.updateRcvAnnWnd] at h
  split_ifs at h <;> exact ⟨_, (Option.some.inj h).symm⟩

/-- Trimming the first edge gives the segment from `rcv_nxt` on, or leaves it as it is; it fails on a long segment only. -/
theorem trimFirstEdge_spec (hs : IsSegment S isn pos inseg) (hpos : 0 < inseg.tcpLen) (hk : pcb.rcvNxt = serialAt isn k)
    (h1 : pos < k + 2 ^ 30) (h2 : k < pos + 2 ^ 30) :
    (inseg.tcpLen ≤ 0x7fff → (pcb.trimFirstEdge inseg inseg.tcpLen).isSome) ∧
    ∀ pcb' inseg', pcb.trimFirstEdge inseg inseg.tcpLen = some (pcb', inseg') →
      (pcb' = pcb ∨ pcb' = pcb.tcpAckNow) ∧
      ∃ pos', IsSegment S isn pos' inseg' ∧ 0 < inseg'.tcpLen ∧ pos' + inseg'.tcpLen = pos + inseg.tcpLen ∧
        (pos' = pos ∨ pos' = k) := by
  have hlen := hs.len
  have htl := Seg.tcpLen_le inseg
  have hb : serialBetween pcb.rcvNxt (inseg.seqno + 1) (inseg.seqno + BitVec.ofNat 32 inseg.tcpLen - 1) = true ↔
      pos < k ∧ k < pos + inseg.tcpLen := by
    rw [hk, Seg.seqno_add hs, hs.seqno, seqAt_add_one, seqAt_sub_one, seqBetween_iff (by omega) (by omega) (by omega) (by omega)]
    omega
  by_cases hc : pos < k ∧ k < pos + inseg.tcpLen
  · have hoff : (pcb.rcvNxt - inseg.seqno).toNat = k - pos := by
      rw [hk, hs.seqno, toNat_seqAt_sub (by omega) (by omega)]
    obtain ⟨p, hp1, hp2, hp3⟩ := PbufChain.hide_spec hs.chain (k - pos) (by rw [Seg.bytes_length hs]; omega)
    have hseg := Seg.advance hs (n := k - pos) (by omega) hp2 hp3
    rw [show pos + (k - pos) = k by omega, ← hk] at hseg
    simp only [TcpPcb.trimFirstEdge, if_pos (hb.2 hc), hoff, hp1, Option.map_some]
    refine ⟨fun hle => by rw [if_pos (by omega)]; rfl, fun pcb' inseg' h => ?_⟩
    split at h
    · obtain ⟨rfl, rfl⟩ := Prod.mk.inj (Option.some.inj h)
      refine ⟨.inl rfl, k, hseg, ?_, ?_, .inr rfl⟩
      · rw [TcpSeg.tcpLen] at hc ⊢
        simp only
        omega
      · rw [TcpSeg.tcpLen, TcpSeg.tcpLen]
        simp only
        omega
    · cases h
  · simp only [TcpPcb.trimFirstEdge, if_neg (mt hb.1 hc)]
    refine ⟨fun _ => by split <;> rfl, fun pcb' inseg' h => ?_⟩
    split at h
    · obtain ⟨rfl, rfl⟩ := Prod.mk.inj (Option.some.inj h)
      exact ⟨.inr rfl, pos, hs, hpos, rfl, .inl rfl⟩
    · obtain ⟨rfl, rfl⟩ := Prod.mk.inj (Option.some.inj h)
      exact ⟨.inl rfl, pos, hs, hpos, rfl, .inl rfl⟩

/-- What is left of a segment after trimming it to the window fits into it. -/
theorem trimToWindow_spec (hs : IsSegment S isn k inseg) (hpos : 0 < inseg.tcpLen) (hk : pcb.rcvNxt = serialAt isn k)
    (hw : 0 < pcb.rcvWnd) :
    ∃ inseg', pcb.trimToWindow inseg = some inseg' ∧ IsSegment S isn k inseg' ∧ 0 < inseg'.tcpLen ∧
      inseg'.tcpLen ≤ pcb.rcvWnd ∧ inseg'.tcpLen ≤ inseg.tcpLen := by
  rw [TcpPcb.trimToWindow]
  by_cases hlt : pcb.rcvWnd < inseg.tcpLen
  · have htl := Seg.tcpLen_le inseg
    obtain ⟨p, hp1, hp2, hp3⟩ := PbufChain.realloc_spec hs.chain pcb.rcvWnd
    have hcut := Seg.cut hs pcb.rcvWnd false (by omega) hp2 hp3 (by simp)
    have hl := Seg.tcpLen_eq hcut
    simp only [Bool.false_eq_true, if_false, Nat.add_zero] at hl
    refine ⟨_, ?_, hcut, by omega, by omega, by omega⟩
    simp only [if_pos hlt, hs.syn, Bool.false_eq_true, if_false, hp1, Option.bind_eq_bind, Option.bind_some]
    rw [hs.syn] at hl
    rw [hl, hk, hs.seqno, if_pos rfl]
  · exact ⟨inseg, if_neg hlt, hs, hpos, by omega, Nat.le_refl _⟩

/-- The segments of the queue that in-sequence data covers are dropped; the rest of the queue is what it was. -/
theorem dropCovered_spec (hs : IsSegment S isn k inseg) (hf : inseg.fin = false) (hq : InOoseq S isn hi lo q) (hlo : k ≤ lo)
    (hhi : hi ≤ k + 2 ^ 18) :
    IsSegment S isn k (dropCovered inseg q).1 ∧ inseg.tcpLen ≤ (dropCovered inseg q).1.tcpLen ∧
      ((dropCovered inseg q).1.fin = true → (dropCovered inseg q).2 = []) ∧ InOoseq S isn hi lo (dropCovered inseg q).2 ∧
      k + (dropCovered inseg q).1.tcpLen ≤ max (k + inseg.tcpLen) hi := by
  induction q generalizing lo with
  | nil => exact ⟨hs, Nat.le_refl _, fun _ => rfl, trivial, le_max_left _ _⟩
  | cons next rest ih =>
    have hq' := hq
    obtain ⟨pos, h1, h2, h3, h4, h5, h6⟩ := hq
    have hlen := hs.len
    have htl := Seg.tcpLen_le inseg
    have hnl := Seg.len_le next
    rw [dropCovered]
    have hcov : serialGe (inseg.seqno + BitVec.ofNat 32 inseg.tcpLen) (next.seqno + BitVec.ofNat 32 next.len) = true ↔
        pos + next.len ≤ k + inseg.tcpLen := by
      rw [Seg.seqno_add hs, Seg.seqno_add h4, seqGe_iff (by omega) (by omega)]
      omega
    by_cases hc : pos + next.len ≤ k + inseg.tcpLen
    · rw [if_pos (hcov.2 hc)]
      cases hfin : next.fin with
      | false =>
        simp only [Bool.false_and, Bool.false_eq_true, if_false]
        obtain ⟨i1, i2, i3, i4, i5⟩ := ih h6 (by omega)
        exact ⟨i1, i2, i3, Queue.mono i4 (by omega) (Nat.le_refl _), i5⟩
      | true =>
        have hend := h4.fin hfin
        have hn := Seg.tcpLen_eq h4
        rw [hfin, if_pos rfl] at hn
        have hi' := Seg.tcpLen_eq hs
        rw [hf] at hi'
        simp only [Bool.false_eq_true, if_false, Nat.add_zero] at hi'
        have hw := hs.within
        rw [h5 hfin, if_pos (by rw [hs.syn]; rfl), dropCovered]
        have hset := Seg.setFin hs (by omega)
        have hl := Seg.tcpLen_eq hset
        simp only [if_true] at hl
        exact ⟨hset, by simp only; omega, fun _ => rfl, trivial, by simp only; omega⟩
    · rw [if_neg (mt hcov.1 hc)]
      exact ⟨hs, Nat.le_refl _, fun h => absurd (h.symm.trans hf) (by simp), hq', le_max_left _ _⟩

/-- In-sequence data is cut off where the queue starts. -/
theorem trimToQueue_spec (hs : IsSegment S isn k inseg) (hpos : 0 < inseg.tcpLen) (hf : inseg.fin = true → q = [])
    (hq : InOoseq S isn hi (k + 1) q) (hhi : hi ≤ k + 2 ^ 18) :
    ∃ inseg', trimToQueue inseg q = some inseg' ∧ IsSegment S isn k inseg' ∧ 0 < inseg'.tcpLen ∧
      inseg'.tcpLen ≤ inseg.tcpLen ∧ (inseg'.fin = true → q = []) ∧ InOoseq S isn hi (k + inseg'.len) q := by
  cases q with
  | nil => exact ⟨inseg, rfl, hs, hpos, Nat.le_refl _, fun _ => rfl, trivial⟩
  | cons next rest =>
    have hnofin : inseg.fin = false := by
      cases hfin : inseg.fin with
      | false => rfl
      | true => exact absurd (hf hfin) (by simp)
    have hl := Seg.tcpLen_eq hs
    rw [hnofin] at hl
    simp only [Bool.false_eq_true, if_false, Nat.add_zero] at hl
    obtain ⟨pos, h1, h2, h3, h4, h5, h6⟩ := hq
    have hlen := hs.len
    have hov : serialGt (inseg.seqno + BitVec.ofNat 32 inseg.tcpLen) next.seqno = true ↔ pos < k + inseg.tcpLen := by
      rw [Seg.seqno_add hs, h4.seqno, seqGt_iff (by omega) (by omega)]
      omega
    rw [trimToQueue]
    by_cases hc : pos < k + inseg.tcpLen
    · have hd : (next.seqno - inseg.seqno).toNat % 2 ^ 16 = pos - k := by
        rw [h4.seqno, hs.seqno, toNat_seqAt_sub (by omega) (by omega)]
        omega
      obtain ⟨p, hp1, hp2, hp3⟩ := PbufChain.realloc_spec hs.chain (pos - k)
      have hcut := Seg.cut hs (pos - k) inseg.fin (by omega) hp2 hp3 (by rw [hnofin]; simp)
      have hcl := Seg.tcpLen_eq hcut
      simp only [hnofin, Bool.false_eq_true, if_false, Nat.add_zero] at hcl
      rw [hnofin] at hcut
      refine ⟨_, ?_, hcut, by omega, by omega, by simp, ⟨pos, by simp only; omega, h2, h3, h4, h5, h6⟩⟩
      simp only [if_pos (hov.2 hc), hs.syn, Bool.false_eq_true, if_false, hd, hp1, Option.bind_eq_bind, Option.bind_some, hnofin]
      rw [hs.syn] at hcl
      rw [hcl, hs.seqno, h4.seqno, serialAt_add_nat, if_pos (by congr 1; omega)]
    · rw [if_neg (mt hov.1 hc)]
      exact ⟨inseg, rfl, hs, hpos, Nat.le_refl _, hf, ⟨pos, by omega, h2, h3, h4, h5, h6⟩⟩

/-- In-sequence data and the queue after they have been fitted together. -/
theorem adjustQueue_spec (hs : IsSegment S isn k inseg) (hpos : 0 < inseg.tcpLen) (hq : InOoseq S isn hi (k + 1) q)
    (hhi : hi ≤ k + 2 ^ 18) :
    ∃ inseg' q', adjustQueue inseg q = some (inseg', q') ∧ IsSegment S isn k inseg' ∧ 0 < inseg'.tcpLen ∧
      k + inseg'.tcpLen ≤ max (k + inseg.tcpLen) hi ∧ (inseg'.fin = true → q' = []) ∧ InOoseq S isn hi (k + inseg'.len) q' := by
  rw [adjustQueue]
  by_cases he : q = []
  · exact ⟨inseg, [], if_pos he, hs, hpos, le_max_left _ _, fun _ => rfl, trivial⟩
  · rw [if_neg he]
    cases hfin : inseg.fin with
    | true => exact ⟨inseg, [], by simp, hs, hpos, le_max_left _ _, fun _ => rfl, trivial⟩
    | false =>
      simp only [Bool.false_eq_true, if_false]
      obtain ⟨d1, d2, d3, d4, d5⟩ := dropCovered_spec hs hfin hq (by omega) hhi
      obtain ⟨inseg', t1, t2, t3, t4, t5, t6⟩ := trimToQueue_spec d1 (by omega) d3 d4 hhi
      exact ⟨inseg', _, by rw [t1]; rfl, t2, t3, by omega, t5, t6⟩

/-- The bytes that go to the application. -/
def recvBytes (r : TcpRecv) : Bytes := (r.data.map PbufChain.bytes).getD []

/-- `recv_data` is a chain. -/
def RecvOk (r : TcpRecv) : Prop := ∀ d, r.data = some d → d.WellFormed

/-- Data put behind what goes to the application. -/
theorem chain_spec {r : TcpRecv} (hr : RecvOk r) {p : PbufChain} (hp : p.WellFormed) :
    ∃ r', r.chain p = some r' ∧ RecvOk r' ∧ recvBytes r' = recvBytes r ++ p.bytes ∧ r'.gotFin = r.gotFin := by
  rw [TcpRecv.chain]
  by_cases h0 : p.totLen = 0
  · have hb : p.bytes = [] := List.eq_nil_of_length_eq_zero (by rw [← PbufChain.totLen_eq hp.lengths, h0])
    exact ⟨r, if_pos h0, hr, by rw [hb, List.append_nil], rfl⟩
  · rw [if_neg h0]
    cases hd : r.data with
    | none =>
      refine ⟨_, rfl, fun d h => ?_, by simp [recvBytes, hd], rfl⟩
      obtain rfl := Option.some.inj h
      exact hp
    | some d =>
      obtain ⟨c, h1, h2, h3⟩ := PbufChain.cat_spec (hr d hd) hp.lengths
      refine ⟨{ r with data := some c }, by simp only [h1, Option.map_some], fun d' h => ?_, by simp [recvBytes, hd, h3], rfl⟩
      obtain rfl := Option.some.inj h
      exact h2

/-- What has been received after `tcp_receive`: `n` more bytes of the stream, and its end where `fin` is set. -/
structure Received (S : Bytes) (isn : SeqNo) (hi k n : Nat) (pcb pcb' : TcpPcb) (r : TcpRecv) : Prop where
  keeps : Keeps pcb pcb'
  within : k + n ≤ S.length
  fin : r.gotFin = true → k + n = S.length
  rcvNxt : pcb'.rcvNxt = serialAt isn ((k + n + if r.gotFin then 1 else 0 : Nat) : Int)
  rcvWnd : pcb'.rcvWnd + n + (if r.gotFin then 1 else 0) = pcb.rcvWnd
  queue : InOoseq S isn hi (k + n + 1) pcb'.ooseq
  state : pcb'.state = pcb.state ∨ r.gotFin = true ∧ pcb.state = .established ∧ pcb'.state = .closeWait
  acks : ∀ a ∈ pcb'.acks, a ∈ pcb.acks ∨ ∃ j : Nat, j ≤ k + n ∧ a = serialAt isn j

/-- A step of the stream followed by another. -/
theorem take_drop_add (S : Bytes) (k m n : Nat) :
    (S.drop k).take m ++ (S.drop (k + m)).take n = (S.drop k).take (m + n) := by
  rw [← List.drop_drop, ← List.take_add]

/-- What is received after `m` bytes have been taken is received with them. -/
theorem Received.after {pcb₁ pcb' : TcpPcb} {r : TcpRecv} {m n w : Nat} {x : SeqNo}
    (hpcb : pcb₁ = { pcb with rcvNxt := x, rcvWnd := pcb.rcvWnd - m, rcvAnnWnd := w }) (hm : m ≤ pcb.rcvWnd)
    (h : Received S isn hi (k + m) n pcb₁ pcb' r) : Received S isn hi k (m + n) pcb pcb' r := by
  subst hpcb
  have hwnd := h.rcvWnd
  simp only at hwnd
  have hk := h.keeps
  exact ⟨⟨hk.1, hk.2, hk.3, hk.4, hk.5, hk.6⟩, by have := h.within; omega, fun hg => by have := h.fin hg; omega,
    by rw [h.rcvNxt, Nat.add_assoc k], by omega, by rw [← Nat.add_assoc]; exact h.queue, h.state,
    by rw [← Nat.add_assoc]; exact h.acks⟩

/-- The segments that have become contiguous are taken, and the queue then starts behind a gap. -/
theorem dequeue_spec {r r' : TcpRecv} {pcb' : TcpPcb} (hk : pcb.rcvNxt = serialAt isn k) (hkS : k ≤ S.length)
    (hq : InOoseq S isn hi k q) (hhi : hi ≤ k + 2 ^ 18) (hr : RecvOk r) (hfin : r.gotFin = false)
    (h : pcb.dequeue r q = some (pcb', r')) :
    ∃ n, Received S isn hi k n pcb pcb' r' ∧ RecvOk r' ∧ recvBytes r' = recvBytes r ++ (S.drop k).take n := by
  induction q generalizing pcb r k with
  | nil =>
    obtain ⟨rfl, rfl⟩ := Prod.mk.inj (Option.some.inj h)
    refine ⟨0, ⟨⟨rfl, rfl, rfl, rfl, rfl, rfl⟩, hkS, ?_, ?_, ?_, trivial, .inl rfl, fun _ => .inl⟩, hr, by simp⟩
    · rw [hfin]; simp
    · simp [hfin, hk]
    · simp [hfin]
  | cons cseg rest ih =>
    have hq' := hq
    obtain ⟨pos, h1, h2, h3, h4, h5, h6⟩ := hq
    rw [TcpPcb.dequeue] at h
    have heq : cseg.seqno = pcb.rcvNxt ↔ pos = k := by
      rw [h4.seqno, hk, seqEq_iff (by omega) (by omega)]
      omega
    by_cases hc : pos = k
    · subst hc
      rw [if_pos (heq.2 rfl)] at h
      have hw := h4.within
      have hlen := h4.len
      split at h
      · rename_i hwnd
        obtain ⟨pcb₁, hu, h⟩ := Option.bind_eq_some_iff.1 h
        obtain ⟨w, hpcb⟩ := updateRcvAnnWnd_eq hu
        obtain ⟨r₁, hc1, hc2, hc3, hc4⟩ := chain_spec hr h4.chain
        rw [hc1, Option.bind_eq_bind, Option.bind_some] at h
        have htl := Seg.tcpLen_eq h4
        cases hf : cseg.fin with
        | true =>
          rw [hf] at htl
          simp only [hf, if_true, h5 hf, TcpPcb.dequeue] at h htl
          obtain ⟨rfl, rfl⟩ := Prod.mk.inj (Option.some.inj h)
          subst hpcb
          refine ⟨cseg.len, ⟨⟨rfl, rfl, rfl, rfl, rfl, rfl⟩, hw, fun _ => h4.fin hf, ?_, ?_, trivial, ?_, fun _ => .inl⟩, hc2, ?_⟩
          · simp only [if_true]
            rw [hk, serialAt_add_nat, htl]
            congr 1
          · simp only [if_true]
            omega
          · by_cases hst : pcb.state = .established
            · exact .inr ⟨rfl, hst, by simp only [if_pos hst]⟩
            · exact .inl (by simp only [if_neg hst])
          · show recvBytes r₁ = _
            rw [hc3, h4.bytes]
        | false =>
          rw [hf] at htl
          simp only [hf, Bool.false_eq_true, if_false, Nat.add_zero] at h htl
          have hk1 : pcb₁.rcvNxt = serialAt isn ((pos + cseg.len : Nat) : Int) := by
            rw [hpcb]
            simp only
            rw [hk, serialAt_add_nat, htl, Nat.cast_add]
          obtain ⟨n, hrec, hok, hb⟩ := ih hk1 (by omega) h6 (by omega) hc2 (by rw [hc4, hfin]) h
          refine ⟨cseg.len + n, hrec.after (htl ▸ hpcb) (by omega), hok, ?_⟩
          rw [hb, hc3, h4.bytes, List.append_assoc, take_drop_add]
      · cases h
    · rw [if_neg (mt heq.1 hc)] at h
      obtain ⟨rfl, rfl⟩ := Prod.mk.inj (Option.some.inj h)
      refine ⟨0, ⟨⟨rfl, rfl, rfl, rfl, rfl, rfl⟩, hkS, ?_, ?_, ?_, ⟨pos, by omega, h2, h3, h4, h5, h6⟩, .inl rfl, fun _ => .inl⟩, hr,
        by simp⟩
      · rw [hfin]; simp
      · simp [hfin, hk]
      · simp [hfin]

/-- The first chain that goes to the application is the payload of the segment. -/
theorem recvOk_first (hs : IsSegment S isn pos s) (fin : Bool) :
    RecvOk ⟨if 0 < s.p.totLen then some s.p else none, fin⟩ ∧
      recvBytes ⟨if 0 < s.p.totLen then some s.p else none, fin⟩ = s.p.bytes := by
  by_cases h0 : 0 < s.p.totLen
  · simp only [if_pos h0]
    refine ⟨fun d h => ?_, rfl⟩
    obtain rfl := Option.some.inj h
    exact hs.chain
  · simp only [if_neg h0]
    have hb : s.p.bytes = [] := List.eq_nil_of_length_eq_zero (by rw [Seg.bytes_length hs, ← Seg.totLen hs]; omega)
    exact ⟨by simp [RecvOk], by rw [hb]; rfl⟩

/-- The segment that is next in sequence is taken, with what of the queue it makes contiguous. -/
theorem receiveInSequence_spec {r : TcpRecv} {pcb' : TcpPcb} (hk : pcb.rcvNxt = serialAt isn k) (hs : IsSegment S isn k inseg)
    (hpos : 0 < inseg.tcpLen) (hq : InOoseq S isn hi (k + 1) pcb.ooseq) (hhi : hi ≤ k + 2 ^ 18) (hw : 0 < pcb.rcvWnd)
    (h : pcb.receiveInSequence inseg = some (pcb', r)) :
    ∃ n, Received S isn hi k n pcb pcb' r ∧ RecvOk r ∧ recvBytes r = (S.drop k).take n := by
  obtain ⟨s₁, hs1, hs2, hs3, hs4, hs5⟩ := trimToWindow_spec hs hpos hk hw
  obtain ⟨s₂, q', ha1, ha2, ha3, ha4, ha5, ha6⟩ := adjustQueue_spec hs2 hs3 hq hhi
  simp only [TcpPcb.receiveInSequence, hs1, ha1, Option.bind_eq_bind, Option.bind_some] at h
  split at h
  · rename_i hwnd
    obtain ⟨pcb₁, hu, h⟩ := Option.bind_eq_some_iff.1 h
    obtain ⟨w, hpcb⟩ := updateRcvAnnWnd_eq hu
    obtain ⟨⟨pcb₂, r₂⟩, hd, h⟩ := Option.bind_eq_some_iff.1 h
    obtain ⟨rfl, rfl⟩ := Prod.mk.inj (Option.some.inj h)
    have hrest : Keeps pcb₂ pcb₂.tcpAck ∧ pcb₂.tcpAck.rcvNxt = pcb₂.rcvNxt ∧ pcb₂.tcpAck.rcvWnd = pcb₂.rcvWnd ∧
        pcb₂.tcpAck.ooseq = pcb₂.ooseq ∧ pcb₂.tcpAck.state = pcb₂.state ∧ pcb₂.tcpAck.acks = pcb₂.acks := by
      rw [TcpPcb.tcpAck]
      split <;> exact ⟨⟨rfl, rfl, rfl, rfl, rfl, rfl⟩, rfl, rfl, rfl, rfl, rfl⟩
    obtain ⟨a1, a2, a3, a4, a5, a6⟩ := hrest
    have hfirst := recvOk_first ha2 s₂.fin
    have htl := Seg.tcpLen_eq ha2
    have hlen := ha2.len
    have hwi := ha2.within
    suffices hsuf : ∃ n, Received S isn hi k n pcb pcb₂ r₂ ∧ RecvOk r₂ ∧ recvBytes r₂ = (S.drop k).take n by
      obtain ⟨n, hrec, hok, hb⟩ := hsuf
      exact ⟨n, ⟨hrec.keeps.trans a1, hrec.within, hrec.fin, a2 ▸ hrec.rcvNxt, a3 ▸ hrec.rcvWnd, a4 ▸ hrec.queue, a5 ▸ hrec.state,
        a6 ▸ hrec.acks⟩, hok, hb⟩
    cases hf : s₂.fin with
    | true =>
      rw [ha5 hf, TcpPcb.dequeue] at hd
      obtain ⟨rfl, rfl⟩ := Prod.mk.inj (Option.some.inj hd)
      rw [hf] at htl
      simp only [if_true] at htl
      subst hpcb
      refine ⟨s₂.len, ⟨⟨rfl, rfl, rfl, rfl, rfl, rfl⟩, hwi, fun _ => ha2.fin hf, ?_, ?_, trivial, .inl rfl, fun _ => .inl⟩, hfirst.1, ?_⟩
      · simp only [hf, if_true]
        rw [ha2.seqno, serialAt_add_nat, htl]
        congr 1
      · simp only [hf, if_true]
        omega
      · rw [hfirst.2, ha2.bytes]
    | false =>
      rw [hf] at htl
      simp only [Bool.false_eq_true, if_false, Nat.add_zero] at htl
      have hk1 : pcb₁.rcvNxt = serialAt isn ((k + s₂.len : Nat) : Int) := by
        rw [hpcb]
        simp only
        rw [Seg.seqno_add ha2, htl]
      obtain ⟨n, hrec, hok, hb⟩ := dequeue_spec hk1 hwi ha6 (by omega) hfirst.1 hf hd
      refine ⟨s₂.len + n, hrec.after (htl ▸ hpcb) (by omega), hok, ?_⟩
      rw [hb, hfirst.2, ha2.bytes, take_drop_add]
  · cases h

/-! ### Out of sequence -/

/-- A segment without a FIN, cut off at a position inside it or at its end. -/
theorem cutAt_spec (hs : IsSegment S isn pos s) (hf : s.fin = false) (pos' : Nat) (hle : pos ≤ pos') (hn : pos' ≤ pos + s.len) :
    ∃ s', s.cutAt (serialAt isn pos') = some s' ∧ IsSegment S isn pos s' ∧ s'.len = pos' - pos ∧ s'.fin = false := by
  have hlen := hs.len
  have hd : (serialAt isn pos' - s.seqno).toNat % 2 ^ 16 = pos' - pos := by
    rw [hs.seqno, toNat_seqAt_sub hle (by omega)]
    omega
  obtain ⟨p, hp1, hp2, hp3⟩ := PbufChain.realloc_spec hs.chain (pos' - pos)
  have hcut := Seg.cut hs (pos' - pos) s.fin (by omega) hp2 hp3 (by rw [hf]; simp)
  exact ⟨_, by rw [TcpSeg.cutAt, hd, hp1]; rfl, hcut, rfl, hf⟩

/-- A segment without a FIN, cut off where the one behind it starts. -/
theorem cutBefore_spec (hs : IsSegment S isn pos s) (hf : s.fin = false) (pos' : Nat) (hlt : pos < pos') (hnear : pos' < pos + 2 ^ 30) :
    ∃ s', s.cutBefore (serialAt isn pos') = some s' ∧ IsSegment S isn pos s' ∧ s'.len ≤ s.len ∧ pos + s'.len ≤ pos' ∧
      s'.fin = false ∧ (0 < s.len → 0 < s'.len) := by
  have hlen := hs.len
  have hov : serialGt (s.seqno + BitVec.ofNat 32 s.len) (serialAt isn pos') = true ↔ pos' < pos + s.len := by
    rw [Seg.seqno_add hs, seqGt_iff (by omega) (by omega)]
    omega
  rw [TcpSeg.cutBefore]
  by_cases hc : pos' < pos + s.len
  · rw [if_pos (hov.2 hc)]
    obtain ⟨s', h1, h2, h3, h4⟩ := cutAt_spec hs hf pos' (Nat.le_of_lt hlt) (Nat.le_of_lt hc)
    exact ⟨s', h1, h2, by omega, by omega, h4, fun _ => by omega⟩
  · rw [if_neg (mt hov.1 hc)]
    exact ⟨s, rfl, hs, Nat.le_refl _, by omega, hf, fun h => h⟩

/-- Without a FIN the length is that of the payload. -/
theorem tcpLen_of_not_fin (hs : IsSegment S isn pos s) (hf : s.fin = false) : s.tcpLen = s.len := by
  rw [Seg.tcpLen_eq hs, hf]
  rfl

/-- The following segments that an inserted one covers are deleted; the rest of the queue is what it was. -/
theorem deleteCovered_spec (hs : IsSegment S isn pos cseg) (hf : cseg.fin = false) (hend : pos + cseg.tcpLen ≤ hi)
    (hpos : 0 < cseg.tcpLen) (hq : InOoseq S isn hi lo q) (hlo : pos ≤ lo) (hhi : hi ≤ pos + 2 ^ 18) :
    IsSegment S isn pos (deleteCovered cseg q).1 ∧ pos + (deleteCovered cseg q).1.tcpLen ≤ hi ∧
      0 < (deleteCovered cseg q).1.tcpLen ∧ ((deleteCovered cseg q).1.fin = true → (deleteCovered cseg q).2 = []) ∧
      InOoseq S isn hi lo (deleteCovered cseg q).2 := by
  induction q generalizing lo with
  | nil => exact ⟨hs, hend, hpos, fun _ => rfl, trivial⟩
  | cons next rest ih =>
    have hq' := hq
    obtain ⟨pn, h1, h2, h3, h4, h5, h6⟩ := hq
    have hlen := hs.len
    have hnl := Seg.len_le next
    have htl := tcpLen_of_not_fin hs hf
    rw [deleteCovered]
    have hcov : serialGe (cseg.seqno + BitVec.ofNat 32 cseg.len) (next.seqno + BitVec.ofNat 32 next.len) = true ↔
        pn + next.len ≤ pos + cseg.len := by
      rw [Seg.seqno_add hs, Seg.seqno_add h4, seqGe_iff (by omega) (by omega)]
      omega
    by_cases hc : pn + next.len ≤ pos + cseg.len
    · rw [if_pos (hcov.2 hc)]
      cases hfin : next.fin with
      | false =>
        simp only [Bool.false_eq_true, if_false]
        obtain ⟨i1, i2, i3, i4, i5⟩ := ih h6 (by omega)
        exact ⟨i1, i2, i3, i4, Queue.mono i5 (by omega) (Nat.le_refl _)⟩
      | true =>
        have hstream := h4.fin hfin
        have hn := Seg.tcpLen_eq h4
        rw [hfin, if_pos rfl] at hn
        have hw := hs.within
        rw [h5 hfin, if_pos rfl, deleteCovered]
        have hset := Seg.setFin hs (by omega)
        have hl := Seg.tcpLen_eq hset
        simp only [if_true] at hl
        exact ⟨hset, by simp only; omega, by simp only; omega, fun _ => rfl, trivial⟩
    · rw [if_neg (mt hcov.1 hc)]
      exact ⟨hs, hend, hpos, fun h => absurd (h.symm.trans hf) (by simp), hq'⟩

/-- The segment that is inserted is put in front of the rest of the queue, cut off where that starts. -/
theorem insertSegment_of_deleted {next : List TcpSeg} {r : TcpSeg × List TcpSeg} (hr : deleteCovered cseg next = r)
    (hcf : cseg.fin = false) (hs : IsSegment S isn pos r.1) (hend : pos + r.1.tcpLen ≤ hi) (hpos : 0 < r.1.tcpLen)
    (hf : r.1.fin = true → r.2 = []) (hq : InOoseq S isn hi (pos + 1) r.2) (hhi : hi ≤ pos + 2 ^ 18) (hlo : lo ≤ pos) :
    ∃ q', oosInsertSegment cseg next = some q' ∧ InOoseq S isn hi lo q' := by
  simp only [oosInsertSegment, hcf, Bool.false_eq_true, if_false, hr]
  split
  · exact ⟨[r.1], rfl, Queue.cons hs hlo hend hpos (fun _ => rfl) trivial⟩
  · rename_i n rest heq
    rw [heq] at hf hq
    have hnofin : r.1.fin = false := by
      cases hfin : r.1.fin with
      | false => rfl
      | true => exact absurd (hf hfin) (by simp)
    have htl := tcpLen_of_not_fin hs hnofin
    obtain ⟨pn, h1, h2, h3, h4, h5, h6⟩ := hq
    obtain ⟨c, c1, c2, c3, c4, c5, c6⟩ := cutBefore_spec hs hnofin pn (by omega) (by omega)
    have hctl := tcpLen_of_not_fin c2 c5
    refine ⟨c :: n :: rest, ?_, Queue.cons c2 hlo (by omega) (by omega) (by rw [c5]; simp) ⟨pn, c4, h2, h3, h4, h5, h6⟩⟩
    rw [TcpSeg.cutBefore, ← h4.seqno] at c1
    split
    · rename_i hov
      rw [if_pos hov] at c1
      rw [c1]
      rfl
    · rename_i hov
      rw [if_neg hov] at c1
      rw [Option.some.inj c1]

/-- `tcp_oos_insert_segment` in front of segments that start behind the new one. -/
theorem oosInsertSegment_spec (hs : IsSegment S isn pos cseg) (hend : pos + cseg.tcpLen ≤ hi) (hpos : 0 < cseg.tcpLen)
    (hq : InOoseq S isn hi (pos + 1) q) (hhi : hi ≤ pos + 2 ^ 18) (hlo : lo ≤ pos) :
    ∃ q', oosInsertSegment cseg q = some q' ∧ InOoseq S isn hi lo q' := by
  cases hf : cseg.fin with
  | true => exact ⟨[cseg], by rw [oosInsertSegment, if_pos hf], Queue.cons hs hlo hend hpos (fun _ => rfl) trivial⟩
  | false =>
    obtain ⟨d1, d2, d3, d4, d5⟩ := deleteCovered_spec hs hf hend hpos hq (by omega) hhi
    exact insertSegment_of_deleted rfl hf d1 d2 d3 d4 d5 hhi hlo

/-- `tcp_oos_insert_segment` in the place of a shorter segment with the same sequence number. -/
theorem oosInsertSegment_replace {next : TcpSeg} {rest : List TcpSeg} (hs : IsSegment S isn pos cseg) (hend : pos + cseg.tcpLen ≤ hi)
    (hn : IsSegment S isn pos next) (hnpos : 0 < next.tcpLen) (hshort : next.len < cseg.len)
    (hq : InOoseq S isn hi (pos + next.len) rest) (hhi : hi ≤ pos + 2 ^ 18) (hlo : lo ≤ pos) :
    ∃ q', oosInsertSegment cseg (next :: rest) = some q' ∧ InOoseq S isn hi lo q' := by
  have hlen := hs.len
  have hcl := Seg.len_le cseg
  -- A FIN on the shorter segment would be inside the stream.
  have hnofin : next.fin = false := by
    cases hfin : next.fin with
    | false => rfl
    | true => exact absurd (hn.fin hfin) (by have := hs.within; omega)
  have hnl := tcpLen_of_not_fin hn hnofin
  cases hf : cseg.fin with
  | true => exact ⟨[cseg], by rw [oosInsertSegment, if_pos hf], Queue.cons hs hlo hend (by omega) (fun _ => rfl) trivial⟩
  | false =>
    have hcov : deleteCovered cseg (next :: rest) = deleteCovered cseg rest := by
      have hge : serialGe (cseg.seqno + BitVec.ofNat 32 cseg.len) (next.seqno + BitVec.ofNat 32 next.len) = true := by
        rw [Seg.seqno_add hs, Seg.seqno_add hn, seqGe_iff (by omega) (by omega)]
        omega
      rw [deleteCovered, if_pos hge, hnofin]
      rfl
    obtain ⟨d1, d2, d3, d4, d5⟩ := deleteCovered_spec hs hf hend (by omega) hq (by omega) hhi
    exact insertSegment_of_deleted hcov hf d1 d2 d3 d4 (Queue.mono d5 (by omega) (Nat.le_refl _)) hhi hlo

/-- The right edge of the window has not gone past the wrap of the sequence numbers. -/
def Unwrapped (pcb : TcpPcb) : Prop := pcb.rcvNxt.toNat + pcb.rcvWnd < 2 ^ 32
deriving Decidable

/-- As long as the right edge is not past the wrap, the unsigned comparison finds only segments that do overrun the window. -/
theorem overrun_of_unwrapped (hu : Unwrapped pcb) (hk : pcb.rcvNxt = serialAt isn k) (hs : IsSegment S isn pos inseg)
    (hge : k ≤ pos)
    (h : (pcb.rcvNxt + BitVec.ofNat 32 pcb.rcvWnd).toNat < (BitVec.ofNat 32 inseg.tcpLen + inseg.seqno).toNat) :
    k + pcb.rcvWnd < pos + inseg.tcpLen := by
  have hseq : inseg.seqno = pcb.rcvNxt + BitVec.ofNat 32 (pos - k) := by
    rw [hk, serialAt_add_nat, hs.seqno]
    congr 1
    omega
  rw [Unwrapped] at hu
  have h1 : (pcb.rcvNxt + BitVec.ofNat 32 pcb.rcvWnd).toNat = pcb.rcvNxt.toNat + pcb.rcvWnd := by
    rw [BitVec.toNat_add, BitVec.toNat_ofNat, Nat.mod_eq_of_lt (by omega : pcb.rcvWnd < 2 ^ 32), Nat.mod_eq_of_lt hu]
  have h2 : (BitVec.ofNat 32 inseg.tcpLen + inseg.seqno).toNat ≤ inseg.tcpLen + (pcb.rcvNxt.toNat + (pos - k)) := by
    rw [hseq, BitVec.toNat_add, BitVec.toNat_add, BitVec.toNat_ofNat, BitVec.toNat_ofNat]
    have e1 := Nat.mod_le (inseg.tcpLen) (2 ^ 32)
    have e2 := Nat.mod_le (pos - k) (2 ^ 32)
    have e3 := Nat.mod_le (pcb.rcvNxt.toNat + (pos - k) % 2 ^ 32) (2 ^ 32)
    have e4 := Nat.mod_le (inseg.tcpLen % 2 ^ 32 + (pcb.rcvNxt.toNat + (pos - k) % 2 ^ 32) % 2 ^ 32) (2 ^ 32)
    omega
  omega

/-- A segment at the end of the queue, behind one without a FIN. -/
theorem oosAppend_spec {last : TcpSeg} {pl : Nat} (hu : Unwrapped pcb) (hk : pcb.rcvNxt = serialAt isn k)
    (hs : IsSegment S isn pos inseg) (hend : pos + inseg.tcpLen ≤ hi) (hpos : 0 < inseg.tcpLen) (hge : k ≤ pos)
    (hin : pos < k + pcb.rcvWnd) (hl : IsSegment S isn pl last) (hlf : last.fin = false) (hlpos : 0 < last.tcpLen) (hlt : pl < pos)
    (hkl : k ≤ pl) (hhi : hi ≤ k + 2 ^ 18) (hlo : lo ≤ pl) :
    ∃ q', pcb.oosAppend inseg last = some q' ∧ InOoseq S isn hi lo q' := by
  obtain ⟨l, l1, l2, l3, l4, l5, l6⟩ := cutBefore_spec hl hlf pos hlt (by omega)
  have hltl := tcpLen_of_not_fin l2 l5
  have hlast := tcpLen_of_not_fin hl hlf
  have hq0 : ∀ c, IsSegment S isn pos c → 0 < c.tcpLen → c.tcpLen ≤ inseg.tcpLen → InOoseq S isn hi lo [l, c] := by
    intro c hc1 hc2 hc3
    refine Queue.cons l2 hlo (by omega) (by omega) (by rw [l5]; simp) ?_
    exact Queue.cons hc1 l4 (by omega) hc2 (fun _ => rfl) trivial
  rw [← hs.seqno] at l1
  simp only [TcpPcb.oosAppend, l1, Option.bind_eq_bind, Option.bind_some]
  split
  · rename_i hov
    have hover := overrun_of_unwrapped hu hk hs hge hov
    have htl := Seg.tcpLen_le inseg
    have hs' : IsSegment S isn pos { inseg with fin := false } := { hs with fin := by simp }
    obtain ⟨c, c1, c2, c3, c4⟩ := cutAt_spec hs' rfl (k + pcb.rcvWnd) (by omega) (by simp only; omega)
    have hctl := tcpLen_of_not_fin c2 c4
    refine ⟨[l, c], ?_, hq0 c c2 (by omega) (by omega)⟩
    rw [hk, serialAt_add_nat, ← Nat.cast_add, c1, Option.bind_some, if_pos]
    rw [Seg.seqno_add c2, hctl, c3]
    congr 2
    omega
  · exact ⟨[l, inseg], rfl, hq0 inseg hs hpos (Nat.le_refl _)⟩

/-- The queue from the segment before a place on: what is behind it may be replaced by what is queued from the same position. -/
theorem queued_prev {prev : Option TcpSeg} (hne : q ≠ []) (h : InOoseq S isn hi lo (prev.toList ++ q)) :
    ∃ lo', lo ≤ lo' ∧ InOoseq S isn hi lo' q ∧ (∀ q', InOoseq S isn hi lo' q' → InOoseq S isn hi lo (prev.toList ++ q')) ∧
      (prev = none → lo' = lo) := by
  cases prev with
  | none => exact ⟨lo, Nat.le_refl _, h, fun _ h' => h', fun _ => rfl⟩
  | some p =>
    obtain ⟨pp, h1, h2, h3, h4, h5, h6⟩ := h
    have hf : p.fin = true → ∀ q' : List TcpSeg, q' = [] := fun hf => absurd (h5 hf) hne
    exact ⟨pp + p.len, by omega, h6, fun q' h' => ⟨pp, h1, h2, h3, h4, fun hp => hf hp q', h'⟩, by simp⟩

/-- The walk along the queue puts an early segment at its place. -/
theorem oosWalk_spec (hu : Unwrapped pcb) (hk : pcb.rcvNxt = serialAt isn k) (hs : IsSegment S isn pos inseg)
    (hend : pos + inseg.tcpLen ≤ hi) (hpos : 0 < inseg.tcpLen) (hge : k < pos) (hin : pos < k + pcb.rcvWnd) (hhi : hi ≤ k + 2 ^ 18)
    (copyOk : Bool) (prev : Option TcpSeg) (hne : q ≠ []) (hprev : ∀ p, prev = some p → serialGt inseg.seqno p.seqno = true)
    (hq : InOoseq S isn hi lo (prev.toList ++ q)) (hlo : prev = none → lo ≤ pos) (hklo : k ≤ lo) :
    ∃ q', pcb.oosWalk inseg copyOk prev q = some q' ∧ InOoseq S isn hi lo q' := by
  induction q generalizing prev lo with
  | nil => exact absurd rfl hne
  | cons next rest ih =>
    obtain ⟨lo', hlo', hq', hframe, hnone⟩ := queued_prev hne hq
    have hqn := hq'
    obtain ⟨pn, h1, h2, h3, h4, h5, h6⟩ := hq'
    have hsame : ∃ q', some (prev.toList ++ next :: rest) = some q' ∧ InOoseq S isn hi lo q' := ⟨_, rfl, hq⟩
    have hmap : ∀ o : Option (List TcpSeg), (∃ q', o = some q' ∧ InOoseq S isn hi lo' q') →
        ∃ q', o.map (prev.toList ++ ·) = some q' ∧ InOoseq S isn hi lo q' := by
      rintro o ⟨q', rfl, hq'⟩
      exact ⟨_, rfl, hframe q' hq'⟩
    have heq : inseg.seqno = next.seqno ↔ pos = pn := by
      rw [hs.seqno, h4.seqno, seqEq_iff (by omega) (by omega)]
      omega
    have hgt : serialGt inseg.seqno next.seqno = true ↔ pn < pos := by
      rw [hs.seqno, h4.seqno, seqGt_iff (by omega) (by omega)]
      omega
    have hlt : serialLt inseg.seqno next.seqno = true ↔ pos < pn := by
      rw [hs.seqno, h4.seqno, seqLt_iff (by omega) (by omega)]
      omega
    rw [TcpPcb.oosWalk]
    by_cases c1 : pos = pn
    · subst c1
      rw [if_pos (heq.2 rfl)]
      split
      · rename_i hc
        rw [Bool.and_eq_true, decide_eq_true_eq] at hc
        exact hmap _ (oosInsertSegment_replace hs hend h4 h3 hc.1 h6 (by omega) h1)
      · exact hsame
    rw [if_neg (mt heq.1 c1)]
    by_cases c2 : prev = none ∧ pos < pn
    · obtain ⟨rfl, hlt'⟩ := c2
      rw [if_pos (by simp [hlt.2 hlt'])]
      split
      · exact oosInsertSegment_spec hs hend hpos ⟨pn, by omega, h2, h3, h4, h5, h6⟩ (by omega) (hlo rfl)
      · exact ⟨_, rfl, hq⟩
    rw [if_neg (by rw [Bool.and_eq_true, decide_eq_true_eq, hlt]; exact c2)]
    split
    · -- The place is between `prev` and `next`.
      rename_i hbetween
      cases prev with
      | none => cases hbetween
      | some p =>
        split
        · obtain ⟨pp, p1, p2, p3, p4, p5, p6⟩ := hq
          have hpf : p.fin = false := by
            cases hfin : p.fin with
            | false => rfl
            | true => cases p5 hfin
          have hpl := tcpLen_of_not_fin p4 hpf
          have hbw : pp < pos ∧ pos < pn := by
            rw [Option.any_some, hs.seqno, p4.seqno, h4.seqno, seqAt_add_one, seqAt_sub_one,
              seqBetween_iff (by omega) (by omega) (by omega) (by omega)] at hbetween
            omega
          obtain ⟨p', c1, c2, c3, c4, c5, c6⟩ := cutBefore_spec p4 hpf pos hbw.1 (by omega)
          have hcl := tcpLen_of_not_fin c2 c5
          have hnext : InOoseq S isn hi (pos + 1) (next :: rest) := ⟨pn, by omega, h2, h3, h4, h5, h6⟩
          obtain ⟨q', i1, i2⟩ := oosInsertSegment_spec hs hend hpos hnext (by omega) c4
          refine ⟨p' :: q', ?_, Queue.cons c2 p1 (by omega) (by omega) (by rw [c5]; simp) i2⟩
          rw [← hs.seqno] at c1
          simp [c1, i1]
        · exact hsame
    · rename_i hnot
      -- The segment is behind `next`.
      have hbehind : pn < pos := by
        cases prev with
        | none => exact Nat.lt_of_le_of_ne (Nat.le_of_not_lt fun h => c2 ⟨rfl, h⟩) (Ne.symm c1)
        | some p =>
          obtain ⟨pp, p1, p2, p3, p4, p5, p6⟩ := hq
          have hpp := hprev p rfl
          rw [hs.seqno, p4.seqno, seqGt_iff (by omega) (by omega)] at hpp
          rw [Option.any_some, hs.seqno, p4.seqno, h4.seqno, seqAt_add_one, seqAt_sub_one,
            seqBetween_iff (by omega) (by omega) (by omega) (by omega)] at hnot
          omega
      split
      · rename_i hc
        rw [Bool.and_eq_true, decide_eq_true_eq] at hc
        obtain ⟨rfl, -⟩ := hc
        split
        · exact hsame
        · rename_i hfc
          rw [Bool.or_eq_true, not_or] at hfc
          exact hmap _ (oosAppend_spec hu hk hs hend hpos (by omega) hin h4 (by simpa using hfc.1) h3 hbehind (by omega) hhi h1)
      · rename_i hc
        have hrest : rest ≠ [] := fun he => hc (by simp [he, hgt.2 hbehind])
        refine hmap _ (ih (some next) hrest ?_ hqn (by simp) (by omega))
        rintro p hp
        obtain rfl := Option.some.inj hp
        exact hgt.2 hbehind

/-- An empty ACK changes nothing that has been received, and acknowledges `rcv_nxt`. -/
theorem sendEmptyAck_spec (pcb : TcpPcb) (ok : Bool) :
    Keeps pcb (pcb.sendEmptyAck ok) ∧ (pcb.sendEmptyAck ok).rcvNxt = pcb.rcvNxt ∧ (pcb.sendEmptyAck ok).rcvWnd = pcb.rcvWnd ∧
      (pcb.sendEmptyAck ok).ooseq = pcb.ooseq ∧ (pcb.sendEmptyAck ok).state = pcb.state ∧
      ∀ a ∈ (pcb.sendEmptyAck ok).acks, a ∈ pcb.acks ∨ a = pcb.rcvNxt := by
  cases ok with
  | false => exact ⟨.refl pcb, rfl, rfl, rfl, rfl, fun _ => .inl⟩
  | true => exact ⟨⟨rfl, rfl, rfl, rfl, rfl, rfl⟩, rfl, rfl, rfl, rfl, fun a ha => by simpa [TcpPcb.sendEmptyAck] using ha⟩

/-- `tcp_output` changes nothing that has been received, and acknowledges `rcv_nxt`. -/
theorem tcpOutput_spec (pcb : TcpPcb) (s : TcpSending) :
    Keeps pcb (pcb.tcpOutput s) ∧ (pcb.tcpOutput s).rcvNxt = pcb.rcvNxt ∧ (pcb.tcpOutput s).rcvWnd = pcb.rcvWnd ∧
      (pcb.tcpOutput s).ooseq = pcb.ooseq ∧ (pcb.tcpOutput s).state = pcb.state ∧
      ∀ a ∈ (pcb.tcpOutput s).acks, a ∈ pcb.acks ∨ a = pcb.rcvNxt := by
  rw [TcpPcb.tcpOutput]
  split_ifs
  · exact sendEmptyAck_spec pcb s.emptyAckOk
  · exact ⟨⟨rfl, rfl, rfl, rfl, rfl, rfl⟩, rfl, rfl, rfl, rfl, fun _ => .inl⟩
  · exact ⟨.refl pcb, rfl, rfl, rfl, rfl, fun _ => .inl⟩

/-- Nothing is received, and an ACK may go out. -/
theorem received_none {pcb' : TcpPcb} (hk : pcb.rcvNxt = serialAt isn k) (hkS : k ≤ S.length) (hkeeps : Keeps pcb pcb')
    (hnxt : pcb'.rcvNxt = pcb.rcvNxt) (hwnd : pcb'.rcvWnd = pcb.rcvWnd) (hst : pcb'.state = pcb.state)
    (hacks : ∀ a ∈ pcb'.acks, a ∈ pcb.acks ∨ a = pcb.rcvNxt) (hq : InOoseq S isn hi (k + 1) pcb'.ooseq) :
    Received S isn hi k 0 pcb pcb' ⟨none, false⟩ where
  keeps := hkeeps
  within := hkS
  fin := by simp
  rcvNxt := by rw [hnxt, hk]; rfl
  rcvWnd := by rw [hwnd]; rfl
  queue := hq
  state := .inl hst
  acks a ha := (hacks a ha).imp_right fun h => ⟨k, Nat.le_refl _, by rw [h, hk]⟩

/-- An early segment is queued. -/
theorem receiveOutOfSequence_spec (hu : Unwrapped pcb) (hk : pcb.rcvNxt = serialAt isn k) (hkS : k ≤ S.length)
    (hs : IsSegment S isn pos inseg) (hend : pos + inseg.tcpLen ≤ hi) (hpos : 0 < inseg.tcpLen) (hge : k < pos)
    (hin : pos < k + pcb.rcvWnd) (hq : InOoseq S isn hi (k + 1) pcb.ooseq) (hhi : hi ≤ k + 2 ^ 18) (copyOk ackOk : Bool) :
    ∃ pcb', pcb.receiveOutOfSequence inseg copyOk ackOk = some pcb' ∧ Received S isn hi k 0 pcb pcb' ⟨none, false⟩ := by
  obtain ⟨s1, s2, s3, s4, s5, s6⟩ := sendEmptyAck_spec pcb ackOk
  simp only [TcpPcb.receiveOutOfSequence]
  generalize pcb.sendEmptyAck ackOk = pcb₁ at s1 s2 s3 s4 s5 s6
  have hrec : ∀ q', InOoseq S isn hi (k + 1) q' → Received S isn hi k 0 pcb { pcb₁ with ooseq := q' } ⟨none, false⟩ :=
    fun q' hq' => received_none hk hkS ⟨s1.1, s1.2, s1.3, s1.4, s1.5, s1.6⟩ s2 s3 s5 s6 hq'
  by_cases he : pcb₁.ooseq = []
  · refine ⟨_, if_pos he, hrec _ ?_⟩
    cases copyOk with
    | false => trivial
    | true => exact Queue.cons hs (by omega) hend hpos (fun _ => rfl) trivial
  · rw [if_neg he]
    have hu' : Unwrapped pcb₁ := by rw [Unwrapped, s2, s3]; exact hu
    obtain ⟨q', h1, h2⟩ := oosWalk_spec hu' (s2.trans hk) hs hend hpos hge (s3 ▸ hin) hhi copyOk none he (by simp)
      (s4 ▸ hq) (fun _ => hge) (Nat.le_succ k)
    exact ⟨_, by rw [h1]; rfl, hrec q' h2⟩

/-- The window, in positions. -/
theorem inWindow_iff (pos : Nat) (hk : pcb.rcvNxt = serialAt isn k) (hw : pcb.rcvWnd < 2 ^ 16) (h1 : pos < k + 2 ^ 30) (h2 : k < pos + 2 ^ 30) :
    pcb.inWindow (serialAt isn pos) = true ↔ k ≤ pos ∧ pos < k + pcb.rcvWnd := by
  rw [TcpPcb.inWindow, hk, serialAt_add_nat, seqAt_sub_one, seqBetween_iff (by omega) (by omega) (by omega) (by omega)]
  omega

/-- Outside the states that take data, nothing is received. -/
theorem tcpReceive_idle {i : TcpInput} (h : (0 < i.inseg.tcpLen && pcb.state.receiving) = false) :
    pcb.tcpReceive i = some (if pcb.inWindow i.seqno then pcb else pcb.tcpAckNow, ⟨none, false⟩) := by
  rw [TcpPcb.tcpReceive, h]
  rfl

/-- `tcp_receive` of a segment of the stream takes the bytes that follow what has been received, and keeps the queue in order. -/
theorem tcpReceive_spec {i : TcpInput} {pcb' : TcpPcb} {r : TcpRecv} (hs : IsSegment S isn pos i.inseg) (h1 : pos < k + 2 ^ 30)
    (h2 : k < pos + 2 ^ 30) (hk : pcb.rcvNxt = serialAt isn k) (hkS : k ≤ S.length) (hw : pcb.rcvWnd < 2 ^ 16)
    (hq : InOoseq S isn hi (k + 1) pcb.ooseq) (hhi : hi ≤ k + 2 ^ 18)
    (hend : k < pos → pos < k + pcb.rcvWnd → pos + i.inseg.tcpLen ≤ hi)
    (hu : k < pos → pos < k + pcb.rcvWnd → Unwrapped pcb) (h : pcb.tcpReceive i = some (pcb', r)) :
    ∃ n, Received S isn hi k n pcb pcb' r ∧ RecvOk r ∧ recvBytes r = (S.drop k).take n := by
  have hnothing : ∀ {p : TcpPcb}, Received S isn hi k 0 pcb p ⟨none, false⟩ →
      ∃ n, Received S isn hi k n pcb p ⟨none, false⟩ ∧ RecvOk ⟨none, false⟩ ∧ recvBytes ⟨none, false⟩ = (S.drop k).take n :=
    fun hr => ⟨0, hr, by simp [RecvOk], by simp [recvBytes]⟩
  have hnow : Keeps pcb pcb.tcpAckNow := ⟨rfl, rfl, rfl, rfl, rfl, rfl⟩
  cases hc : 0 < i.inseg.tcpLen && pcb.state.receiving with
  | false =>
    rw [tcpReceive_idle hc] at h
    obtain ⟨rfl, rfl⟩ := Prod.mk.inj (Option.some.inj h)
    split
    · exact hnothing (received_none hk hkS (.refl pcb) rfl rfl rfl (fun _ => .inl) hq)
    · exact hnothing (received_none hk hkS hnow rfl rfl rfl (fun _ => .inl) hq)
  | true =>
    rw [TcpPcb.tcpReceive, if_pos hc] at h
    rw [Bool.and_eq_true, decide_eq_true_eq] at hc
    obtain ⟨⟨pcb₁, inseg⟩, ht, h⟩ := Option.bind_eq_some_iff.1 h
    obtain ⟨hpcb, pos', hs', hpos', hsum, hor⟩ := (trimFirstEdge_spec hs hc.1 hk h1 h2).2 _ _ ht
    -- What the rest of the function sees of the pcb is what it was.
    have hsame : Keeps pcb pcb₁ ∧ pcb₁.rcvNxt = pcb.rcvNxt ∧ pcb₁.rcvWnd = pcb.rcvWnd ∧ pcb₁.ooseq = pcb.ooseq ∧
        pcb₁.state = pcb.state ∧ pcb₁.acks = pcb.acks := by
      rcases hpcb with rfl | rfl
      · exact ⟨.refl _, rfl, rfl, rfl, rfl, rfl⟩
      · exact ⟨hnow, rfl, rfl, rfl, rfl, rfl⟩
    obtain ⟨e1, e2, e3, e4, e5, e6⟩ := hsame
    have hback : ∀ {n : Nat} {p : TcpPcb} {r : TcpRecv}, Received S isn hi k n pcb₁ p r → Received S isn hi k n pcb p r :=
      fun hr => ⟨e1.trans hr.keeps, hr.within, hr.fin, hr.rcvNxt, e3 ▸ hr.rcvWnd, hr.queue, e5 ▸ hr.state, e6 ▸ hr.acks⟩
    have hk1 : pcb₁.rcvNxt = serialAt isn k := e2.trans hk
    have hwin := inWindow_iff pos' hk1 (e3 ▸ hw) (by omega) (by omega)
    have hseq : pcb₁.rcvNxt = inseg.seqno ↔ k = pos' := by
      rw [hk1, hs'.seqno, seqEq_iff (by omega) (by omega)]
      omega
    rw [← hs'.seqno] at hwin
    simp only at h
    split at h
    · rename_i hin
      rw [hwin] at hin
      split at h
      · rename_i heq
        obtain rfl := hseq.1 heq
        obtain ⟨n, hr⟩ := receiveInSequence_spec hk1 hs' hpos' (e4 ▸ hq) hhi (by omega) h
        exact ⟨n, hback hr.1, hr.2⟩
      · rename_i hne
        have hlt : k < pos' := Nat.lt_of_le_of_ne hin.1 (mt hseq.2 hne)
        obtain rfl : pos' = pos := hor.resolve_right (by omega)
        have hu1 : Unwrapped pcb₁ := by
          rw [Unwrapped, e2, e3]
          exact hu hlt (e3 ▸ hin.2)
        have hend1 := hend hlt (e3 ▸ hin.2)
        obtain ⟨p, hp, hr⟩ := receiveOutOfSequence_spec hu1 hk1 hkS hs' (by omega) hpos' hlt hin.2 (e4 ▸ hq) hhi i.copyOk i.emptyAckOk
        rw [hp] at h
        obtain ⟨rfl, rfl⟩ := Prod.mk.inj (Option.some.inj h)
        exact hnothing (hback hr)
    · obtain ⟨rfl, rfl⟩ := Prod.mk.inj (Option.some.inj h)
      obtain ⟨s1, s2, s3, s4, s5, s6⟩ := sendEmptyAck_spec pcb₁ i.emptyAckOk
      exact hnothing (hback (received_none hk1 hkS s1 s2 s3 s5 s6 (s4 ▸ e4 ▸ hq)))

end TcpInAux

end PsiphonAndroid
