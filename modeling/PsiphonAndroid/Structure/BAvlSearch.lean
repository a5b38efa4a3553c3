import Mathlib
import PsiphonAndroid.Structure.BAvlInv

/-!
# Searching the AVL tree

The nodes of a tree whose keys go up from left to right: where the walk down ends, what an insertion adds, and what the lookups,
the walks to a neighbour and `BAVL_Verify` return.
-/

namespace PsiphonAndroid

open Lib BinTree

namespace BAVL

variable {P K : Type} {o o' : BAVL P K} {t l r : BinTree P} {fs : List (Frame P)} {par ptr : Option P} {p n : P} {side : Bool}
  {cmp : K → K → Int} {val : K}

/-! ## The walk down -/

/-- Where a walk down for `val` ends that finds nothing: at the place for it. -/
def Place (cmp : K → K → Int) (o : BAVL P K) (val : K) (fs : List (Frame P)) : Prop :=
  (∀ q ∈ before fs, cmp val (o.value q) = 1) ∧ ∀ q ∈ after fs, cmp val (o.value q) = -1

theorem place_append {fs gs : List (Frame P)} (h : Place cmp o val fs) (h' : Place cmp o val gs) : Place cmp o val (fs ++ gs) := by
  refine ⟨fun q hq => ?_, fun q hq => ?_⟩
  · rw [before_append, List.mem_append] at hq
    exact hq.elim (h'.1 q) (h.1 q)
  · rw [after_append, List.mem_append] at hq
    exact hq.elim (h.2 q) (h'.2 q)

/-- One step down, to the side the value is on. -/
theorem place_step (hc : Comparator cmp) {u v : BinTree P} (hs : Ascending cmp o.value (bin side u p v).toList)
    (hcomp : cmp val (o.value p) = if side then 1 else -1) : Place cmp o val [⟨side, p, v⟩] ∧ Ascending cmp o.value u.toList := by
  rw [toList_bin] at hs
  cases side with
  | false =>
    simp only [Bool.false_eq_true, if_false] at hs hcomp
    obtain ⟨hu, hv, -⟩ := List.pairwise_append.1 hs
    refine ⟨⟨by simp [before], fun q hq => ?_⟩, hu⟩
    simp only [after, Bool.false_eq_true, if_false, List.append_nil, List.mem_cons] at hq
    rcases hq with rfl | hq
    · exact hcomp
    · exact hc.lt_of_le_of_lt (by omega) ((List.pairwise_cons.1 hv).1 q hq)
  | true =>
    simp only [if_true] at hs hcomp
    obtain ⟨-, hv, hup⟩ := List.pairwise_append.1 hs
    refine ⟨⟨fun q hq => ?_, by simp [after]⟩, (List.pairwise_cons.1 hv).2⟩
    simp only [before, if_true, List.nil_append, List.mem_append, List.mem_singleton] at hq
    rcases hq with hq | rfl
    · exact hc.gt_of_gt_of_lt hcomp (hup q hq p (by simp))
    · exact hcomp

/-- The walk down ends at a node that compares equal, or at the place for the value. -/
theorem descend_spec (hc : Comparator cmp) (val : K) (fuel : Nat) (h : o.Linked par t (some p)) (hs : Ascending cmp o.value t.toList)
    (hfuel : t.height ≤ fuel) :
    (∃ c ∈ t.toList, descend cmp val fuel o p = some (c, none) ∧ cmp val (o.value c) = 0) ∨
      ∃ f fs, t = plug (f :: fs) .nil ∧ descend cmp val fuel o p = some (f.a, some f.side) ∧ Place cmp o val (f :: fs) := by
  induction fuel generalizing t p par with
  | zero =>
    cases t with
    | nil => cases h
    | node l q r => simp [height] at hfuel
  | succ fuel ih =>
    have hpos : 0 < t.height := by
      cases t with
      | nil => cases h
      | node l q r => simp [height]
    by_cases h0 : cmp val (o.value p) = 0
    · exact .inl ⟨p, h.ptr_mem, by simp [descend, h0], h0⟩
    · obtain ⟨side, hside⟩ : ∃ side, decide (cmp val (o.value p) = 1) = side := ⟨_, rfl⟩
      have hcomp : cmp val (o.value p) = if side then 1 else -1 := by
        rcases hc.range val (o.value p) with hr | hr | hr
        · simp [← hside, hr]
        · exact absurd hr h0
        · simp [← hside, hr]
      obtain ⟨u, q, v, rfl⟩ := exists_bin (t := t) side hpos
      obtain ⟨e, -, hu, -⟩ := linked_bin.1 h
      obtain rfl := Option.some.inj e
      obtain ⟨hplace, hsu⟩ := place_step hc hs hcomp
      rw [height_bin] at hfuel
      simp only [descend, if_neg h0, hside]
      cases hl : (o.node p).link side with
      | none =>
        rw [hl] at hu
        cases u with
        | nil => exact .inr ⟨⟨side, p, v⟩, [], rfl, rfl, hplace⟩
        | node ul m ur => cases hu.1
      | some c =>
        rw [hl] at hu
        rcases ih hu hsu (by omega) with ⟨m, i1, i2, i3⟩ | ⟨f, fs, rfl, i2, i3⟩
        · exact .inl ⟨m, mem_bin.2 (.inl i1), i2, i3⟩
        · refine .inr ⟨f, fs ++ [⟨side, p, v⟩], ?_, i2, ?_⟩
          · rw [← List.cons_append, plug_append]
            rfl
          · rw [← List.cons_append]
            exact place_append i3 hplace

/-- More steps do not change where a walk down has ended. -/
theorem descend_mono {fuel fuel' : Nat} {r : P × Option Bool} (hle : fuel ≤ fuel') (h : descend cmp val fuel o p = some r) :
    descend cmp val fuel' o p = some r := by
  induction fuel generalizing fuel' p with
  | zero => simp [descend] at h
  | succ fuel ih =>
    obtain ⟨fuel', rfl⟩ : ∃ k, fuel' = k + 1 := ⟨fuel' - 1, by omega⟩
    simp only [descend] at h ⊢
    by_cases h0 : cmp val (o.value p) = 0
    · rwa [if_pos h0] at h ⊢
    · rw [if_neg h0] at h ⊢
      cases hl : (o.node p).link (decide (cmp val (o.value p) = 1)) with
      | none => rwa [hl] at h
      | some c =>
        rw [hl] at h
        exact ih (by omega) h

/-! ## Lookups and insertion -/

theorem root_none (h : o.Linked none t none) : t = .nil := by
  cases t with
  | nil => rfl
  | node l q r => cases h.1

/-- The node above a place is the last before it or the first after it. -/
theorem place_neighbour (f : Frame P) (fs : List (Frame P)) :
    (before (f :: fs)).getLast? = some f.a ∨ (after (f :: fs)).head? = some f.a := by
  cases hf : f.side with
  | false => exact .inr (by simp [after, hf])
  | true => exact .inl (by simp [before, hf, ← List.append_assoc])

variable [DecidableEq P]

/-- A leaf in the place the walk down has found. -/
theorem leaf_linked {f : Frame P} (h : o.Linked none (plug (f :: fs) .nil) o.root) (hnd : (plug (f :: fs) .nil).toList.Nodup)
    (hn : n ∉ (plug (f :: fs) .nil).toList) :
    ((o.setLink f.a f.side (some n)).initLeaf n (some f.a)).Linked none (plug (f :: fs) (.node .nil n .nil)) o.root := by
  obtain ⟨ptr, par, hnil, rfl, h2, h3, h4⟩ := linked_plug.1 h
  obtain ⟨e1, e2, -, -, -⟩ := nodup_around_cons.1 (nodup_plug.1 hnd).2.1
  have hna : n ∉ around (f :: fs) := by simpa [toList_plug, around] using hn
  simp only [mem_around_cons, not_or] at hna
  have hother : ∀ q, q ≠ n → q ≠ f.a → (((o.setLink f.a f.side (some n)).initLeaf n (some f.a)).node q).link = (o.node q).link ∧
      (((o.setLink f.a f.side (some n)).initLeaf n (some f.a)).node q).parent = (o.node q).parent := by
    intro q h1 h2
    refine ⟨?_, by simp [h1]⟩
    funext s
    simp [h1, h2]
  have hne : f.a ≠ n := fun he => hna.1 he.symm
  have hsib : ∀ q ∈ f.sib.toList, q ≠ n ∧ q ≠ f.a := fun q hq => ⟨fun he => hna.2.1 (he ▸ hq), fun he => e1 (he ▸ hq)⟩
  have hrest : ∀ q ∈ around fs, q ≠ n ∧ q ≠ f.a := fun q hq => ⟨fun he => hna.2.2 (he ▸ hq), fun he => e2 (he ▸ hq)⟩
  refine linked_plug.2 ⟨some n, some f.a, ⟨rfl, by simp, ?_, ?_⟩, rfl, by simp [hne], ?_, ?_⟩
  · show _ = none
    simp
  · show _ = none
    simp
  · have hl : (((o.setLink f.a f.side (some n)).initLeaf n (some f.a)).node f.a).link (!f.side) = (o.node f.a).link (!f.side) := by
      simp [hne]
    rw [hl]
    exact h3.congr (fun q hq => (hother q (hsib q hq).1 (hsib q hq).2).1) fun q hq => (hother q (hsib q hq).1 (hsib q hq).2).2
  · have hp : (((o.setLink f.a f.side (some n)).initLeaf n (some f.a)).node f.a).parent = (o.node f.a).parent := by simp [hne]
    rw [hp]
    exact h4.congr rfl (fun q hq => (hother q (hrest q hq).1 (hrest q hq).2).1) fun q hq => (hother q (hrest q hq).1 (hrest q hq).2).2

variable [Fintype P]

omit [DecidableEq P] in
/-- What a lookup returns: a node that compares equal, or, in the place for the value, the last node before or the first after it. -/
theorem lookup_spec (hc : Comparator cmp) (val : K) (h : IsTree o t) (hs : Ascending cmp o.value t.toList) :
    (∃ c ∈ t.toList, cmp val (o.value c) = 0 ∧ o.lookup cmp val = some (some c) ∧ o.lookupExact cmp val = some (some c)) ∨
      ∃ xs ys, t.toList = xs ++ ys ∧ (∀ q ∈ xs, cmp val (o.value q) = 1) ∧ (∀ q ∈ ys, cmp val (o.value q) = -1) ∧
        o.lookupExact cmp val = some none ∧
        ∃ c, o.lookup cmp val = some c ∧ (c = xs.getLast? ∨ c = ys.head?) ∧ (c = none → t.toList = []) := by
  cases hr : o.root with
  | none =>
    have ht := h.linked
    rw [hr] at ht
    obtain rfl := root_none ht
    exact .inr ⟨[], [], rfl, by simp, by simp, by simp [lookupExact, hr], none, by simp [lookup, hr], .inl rfl, fun _ => rfl⟩
  | some root =>
    have ht := h.linked
    rw [hr] at ht
    rcases descend_spec hc val (Fintype.card P) ht hs h.height_le with ⟨c, c1, c2, c3⟩ | ⟨f, fs, rfl, c2, c3⟩
    · exact .inl ⟨c, c1, c3, by simp [lookup, hr, c2], by simp [lookupExact, hr, c2]⟩
    · refine .inr ⟨before (f :: fs), after (f :: fs), by rw [toList_plug]; simp, c3.1, c3.2, by simp [lookupExact, hr, c2], some f.a,
        by simp [lookup, hr, c2], ?_, by simp⟩
      exact (place_neighbour f fs).imp Eq.symm Eq.symm

/-- What `BAVL_Insert` does with a node that is not in the tree: nothing where a node compares equal, and otherwise the node comes to
the place of its value. -/
theorem insert_spec (hc : Comparator cmp) (h : IsTree o t) (hs : Ascending cmp o.value t.toList) (hn : n ∉ t.toList) :
    (∃ c ∈ t.toList, cmp (o.value n) (o.value c) = 0 ∧ o.insert cmp n = some (o, some c, false)) ∨
      ∃ o' t' ref xs ys, o.insert cmp n = some (o', ref, true) ∧ IsTree o' t' ∧ o'.value = o.value ∧ t.toList = xs ++ ys ∧
        t'.toList = xs ++ n :: ys ∧ (∀ q ∈ xs, cmp (o.value n) (o.value q) = 1) ∧ (∀ q ∈ ys, cmp (o.value n) (o.value q) = -1) ∧
        (ref = xs.getLast? ∨ ref = ys.head?) := by
  cases hr : o.root with
  | none =>
    have ht := h.linked
    rw [hr] at ht
    obtain rfl := root_none ht
    refine .inr ⟨{ o.initLeaf n none with root := some n }, .node .nil n .nil, none, [], [], by simp only [insert, hr],
      ⟨⟨rfl, by simp [initLeaf], ?_, ?_⟩, ?_, by simp⟩, rfl, rfl, rfl, by simp, by simp, .inl rfl⟩
    · show _ = none
      simp [initLeaf]
    · show _ = none
      simp [initLeaf]
    · simp [Weighed, height, initLeaf]
  | some root =>
    have ht := h.linked
    rw [hr] at ht
    rcases descend_spec hc (o.value n) (Fintype.card P) ht hs h.height_le with ⟨c, c1, c2, c3⟩ | ⟨f, fs, rfl, c2, c3⟩
    · exact .inl ⟨c, c1, c3, by simp [insert, hr, c2]⟩
    · have hna : n ∉ around (f :: fs) := by simpa [toList_plug, around] using hn
      have hnd : (plug (f :: fs) (.node .nil n .nil)).toList.Nodup :=
        nodup_plug.2 ⟨by simp, (nodup_plug.1 h.nodup).2.1, fun x hx => by
          obtain rfl : x = n := by simpa using hx
          exact hna⟩
      have hlinked : ((o.setLink f.a f.side (some n)).initLeaf n (some f.a)).Linked none (plug (f :: fs) (.node .nil n .nil))
          ((o.setLink f.a f.side (some n)).initLeaf n (some f.a)).root := leaf_linked h.linked h.nodup hn
      have hw : WeighedFrames (fun q => (((o.setLink f.a f.side (some n)).initLeaf n (some f.a)).node q).balance) 0 (f :: fs) := by
        refine (weighed_plug.1 h.weighed).2.congr fun q hq => ?_
        have hq' : q ≠ n := fun he => hna (he ▸ hq)
        simp [hq']
      have hlen := Nat.le_trans (length_le_plug (f :: fs) .nil) h.height_le
      rw [List.length_cons] at hlen
      obtain ⟨o', t', r1, r2, r3, r4, r5⟩ := rebalance_spec (Fintype.card P) 1 (by omega) hlinked hnd (by simp [Weighed, height]) hw
        (by simp [height]) (by omega)
      refine .inr ⟨o', t', some f.a, before (f :: fs), after (f :: fs), by simp [insert, hr, c2, r1],
        ⟨r2, r3, r4 ▸ hnd⟩, by rw [r5]; rfl, by rw [toList_plug]; simp, by rw [r4, toList_plug]; simp, c3.1, c3.2, ?_⟩
      exact (place_neighbour f fs).imp Eq.symm Eq.symm

/-! ## Neighbours and ends -/

omit [Fintype P] in
/-- Going up to the first node that is passed from the other side. -/
theorem climb_spec (fuel : Nat) (h : o.LinkedFrames (some n) (o.node n).parent fs) (hnd : (around fs).Nodup)
    (hn : n ∉ around fs) (hfuel : fs.length < fuel) :
    climb side fuel o n = some (if side then (after fs).head? else (before fs).getLast?) := by
  induction fs generalizing n fuel with
  | nil =>
    obtain ⟨fuel, rfl⟩ : ∃ k, fuel = k + 1 := ⟨fuel - 1, by simp at hfuel; omega⟩
    simp only [climb, h.1, before, after]
    simp
  | cons f fs ih =>
    obtain ⟨fuel, rfl⟩ : ∃ k, fuel = k + 1 := ⟨fuel - 1, by simp at hfuel; omega⟩
    rw [List.length_cons] at hfuel
    simp only [mem_around_cons, not_or] at hn
    obtain ⟨e1, e2, -, e4, -⟩ := nodup_around_cons.1 hnd
    have hiff : (o.node f.a).link side = some n ↔ side = f.side := h.link_iff hn.2.1
    obtain ⟨hpar, -, -, hup⟩ := h
    simp only [climb, hpar, hiff]
    by_cases hside : side = f.side
    · rw [if_pos hside, ih fuel hup e4 e2 (by omega)]
      cases hs : f.side <;> simp [hside, hs, before, after]
    · rw [if_neg hside]
      cases hs : f.side <;> simp [hs] at hside <;> simp [hside, hs, before, after, ← List.append_assoc]

/-- The neighbours of a node are the ones the order gives it. -/
theorem neighbour_spec (h : IsTree o t) {xs ys : List P} (ht : t.toList = xs ++ p :: ys) :
    o.neighbour side p = some (if side then ys.head? else xs.getLast?) := by
  obtain ⟨fs, l, r, rfl⟩ := exists_plug_of_mem (x := p) (t := t) (by simp [ht])
  obtain ⟨hL, hR, hf⟩ := h.linked.children
  obtain ⟨d1, d2, d3⟩ := nodup_plug.1 h.nodup
  have hlen := Nat.le_trans (length_le_plug fs (.node l p r)) h.height_le
  simp only [height] at hlen
  have hup : climb side (Fintype.card P) o p = some (if side then (after fs).head? else (before fs).getLast?) :=
    climb_spec (Fintype.card P) hf d2 (d3 p (by simp)) (by omega)
  obtain ⟨rfl, rfl⟩ : xs = before fs ++ l.toList ∧ ys = r.toList ++ after fs := by
    have hnd := h.nodup
    rw [ht, List.nodup_middle, List.nodup_cons, List.mem_append, not_or] at hnd
    rw [toList_plug, toList_node, show before fs ++ (l.toList ++ p :: r.toList) ++ after fs =
      (before fs ++ l.toList) ++ p :: (r.toList ++ after fs) by simp] at ht
    obtain ⟨e1, -, e2⟩ := (List.append_cons_inj_of_notMem hnd.1.1 hnd.1.2).1 ht.symm
    exact ⟨e1, e2⟩
  rw [neighbour]
  cases side with
  | false =>
    cases hl : (o.node p).link false with
    | none =>
      rw [hl] at hL
      cases l with
      | nil => simpa using hup
      | node a q b => cases hL.1
    | some c =>
      rw [hl] at hL
      obtain ⟨m, m1, m2⟩ := farthest_spec true (Fintype.card P) hL (by omega)
      simp only [if_true] at m2
      simp [m1, List.getLast?_append, m2]
  | true =>
    cases hl : (o.node p).link true with
    | none =>
      rw [hl] at hR
      cases r with
      | nil => simpa using hup
      | node a q b => cases hR.1
    | some c =>
      rw [hl] at hR
      obtain ⟨m, m1, m2⟩ := farthest_spec false (Fintype.card P) hR (by omega)
      simp only [Bool.false_eq_true, if_false] at m2
      simp [m1, List.head?_append, m2]

omit [DecidableEq P] in
/-- The ends of the tree are the ends of the order. -/
theorem getEnd_spec (h : IsTree o t) : o.getEnd side = some (if side then t.toList.getLast? else t.toList.head?) := by
  have ht := h.linked
  rw [getEnd]
  cases hr : o.root with
  | none =>
    rw [hr] at ht
    obtain rfl := root_none ht
    simp
  | some root =>
    rw [hr] at ht
    obtain ⟨m, m1, m2⟩ := farthest_spec side (Fintype.card P) ht h.height_le
    simp [m1, m2]

/-! ## The check of the tree -/

omit [Fintype P] in
/-- The assertions about one child. -/
theorem assertChild_spec {comp : Int} (recurser : P → Option Int) (h : o.Linked (some p) t ptr)
    (hcmp : ∀ q ∈ t.toList, cmp (o.value q) (o.value p) = comp) (hrec : ∀ c, ptr = some c → recurser c = some (t.height : Int)) :
    o.assertChild cmp p comp recurser ptr = some (t.height : Int) := by
  cases ptr with
  | none =>
    cases t with
    | nil => rfl
    | node a q b => cases h.1
  | some c => simp [assertChild, h.ptr_parent, hcmp c h.ptr_mem, hrec c rfl]

omit [Fintype P] in
/-- No assertion of the check fails, and it returns the height. -/
theorem assertRecurser_spec (hc : Comparator cmp) (fuel : Nat) (h : o.Linked par t (some p))
    (hw : Weighed (fun q => (o.node q).balance) t) (hs : Ascending cmp o.value t.toList) (hfuel : t.height ≤ fuel) :
    assertRecurser cmp fuel o p = some (t.height : Int) := by
  induction fuel generalizing t p par with
  | zero =>
    cases t with
    | nil => cases h
    | node l q r => simp [height] at hfuel
  | succ fuel ih =>
    cases t with
    | nil => cases h
    | node l q r =>
      obtain ⟨e, -, hL, hR⟩ := h
      obtain rfl := Option.some.inj e
      obtain ⟨w1, w2, w3, w4, w5⟩ := hw
      obtain ⟨s1, s2, s3⟩ := List.pairwise_append.1 hs
      obtain ⟨s4, s5⟩ := List.pairwise_cons.1 s2
      simp only [height] at hfuel
      have hleft := assertChild_spec (assertRecurser cmp fuel o) hL (fun m hm => s3 m hm p (by simp))
        fun c hc' => ih (hc' ▸ hL) w4 s1 (by omega)
      have hright := assertChild_spec (assertRecurser cmp fuel o) hR (fun m hm => hc.gt_iff.2 (s4 m hm))
        fun c hc' => ih (hc' ▸ hR) w5 s5 (by omega)
      simp only at w1 w2 w3
      simp only [assertRecurser, hleft, hright, Option.bind_eq_bind, Option.bind_some, w1, height]
      rw [if_pos ⟨by omega, by omega, trivial⟩]
      simp

/-- `BAVL_Verify` passes on a tree that is in order. -/
theorem verify_spec (hc : Comparator cmp) (h : IsTree o t) (hs : Ascending cmp o.value t.toList) : o.verify cmp = true := by
  have ht := h.linked
  rw [verify]
  cases hr : o.root with
  | none => rfl
  | some root =>
    rw [hr] at ht
    simp [ht.ptr_parent, assertRecurser_spec hc (Fintype.card P) ht h.weighed hs h.height_le]

omit [DecidableEq P] [Fintype P] in
/-- The balance factors bound the heights. -/
theorem Weighed.balanced {b : P → Int} (h : Weighed b t) : t.Balanced := by
  induction t with
  | nil => trivial
  | node l p r ihl ihr =>
    obtain ⟨h1, h2, h3, h4, h5⟩ := h
    exact ⟨by omega, by omega, ihl h4, ihr h5⟩

end BAVL

end PsiphonAndroid
