import Mathlib
import PsiphonAndroid.Lib.Index
import PsiphonAndroid.Structure.BAvlSearch

/-!
# The AVL tree as a table

Calls of `BAVL_Insert` and `BAVL_Remove` one after another, beside the table they stand for. The callers keep two rules: a node
that is inserted is not in the tree, and one that is removed is; and the value of a node stays as it is while the node is in the
tree. `Tracks` ties the memory of the tree to the table.
-/

namespace PsiphonAndroid

open Lib BinTree

/-- A call on the tree: a node is given its value and inserted, or a node is removed. -/
inductive AvlCall (P K : Type) where
  | insert (n : P) (v : K)
  | remove (n : P)
  deriving DecidableEq

/-- The tree, or `none` after a call that has not returned, and the table. -/
structure AvlTable (P K : Type) where
  tree : Option (BAVL P K)
  index : Index K P

/-- `n` is given the value `v`. -/
def BAVL.setValue {P K : Type} [DecidableEq P] (o : BAVL P K) (n : P) (v : K) : BAVL P K :=
  { o with value := Function.update o.value n v }

namespace AvlTable

variable {P K : Type} [DecidableEq P] [Fintype P] {cmp : K → K → Int}

/-- The nodes in the table. -/
def nodes (s : AvlTable P K) : List P := s.index.entries.map Prod.snd

/-- One call. -/
def step (cmp : K → K → Int) (s : AvlTable P K) : AvlCall P K → AvlTable P K
  | .insert n v =>
    { tree := s.tree.bind fun o => ((o.setValue n v).insert cmp n).map Prod.fst
      index := (s.index.insert cmp v n).getD s.index }
  | .remove n => { tree := s.tree.bind fun o => o.remove n, index := s.index.remove n }

/-- What the caller sees to. -/
def Allowed (s : AvlTable P K) : AvlCall P K → Prop
  | .insert n _ => n ∉ s.nodes
  | .remove n => n ∈ s.nodes

instance (s : AvlTable P K) (e : AvlCall P K) : Decidable (s.Allowed e) :=
  match e with
  | .insert n _ => inferInstanceAs (Decidable (n ∉ s.nodes))
  | .remove n => inferInstanceAs (Decidable (n ∈ s.nodes))

/-- The tree from `BAVL_Init` on. -/
def system (cmp : K → K → Int) : System (AvlTable P K) (AvlCall P K) where
  init s := ∃ o, s = ⟨some (BAVL.init o), .empty⟩
  step s e := some (s.step cmp e)

/-- The memory of the tree `t` holds what the table says. -/
structure Tracks (cmp : K → K → Int) (o : BAVL P K) (t : BinTree P) (index : Index K P) : Prop where
  tree : o.IsTree t
  ascending : Ascending cmp o.value t.toList
  holds : index.Holds o.value t.toList

variable {o : BAVL P K} {t : BinTree P} {index : Index K P} {n : P} {v : K}

omit [DecidableEq P] [Fintype P] in
theorem Tracks.perm (h : Tracks cmp o t index) : (index.entries.map Prod.snd).Perm t.toList := h.holds.nodes

omit [DecidableEq P] [Fintype P] in
/-- A node that compares equal is the one the table has. -/
theorem Tracks.index_lookup (h : Tracks cmp o t index) (hc : Comparator cmp) (hn : n ∈ t.toList) (h0 : cmp v (o.value n) = 0) :
    index.lookup cmp v = some n := by
  have hmem : (o.value n, n) ∈ index.entries := h.holds.mem_iff.2 (List.mem_map.2 ⟨n, hn, rfl⟩)
  cases hf : index.entries.find? fun e => decide (cmp v e.1 = 0) with
  | none => exact absurd h0 (by simpa using List.find?_eq_none.1 hf _ hmem)
  | some e =>
    have he := List.find?_some hf
    obtain ⟨m, hm, rfl⟩ := List.mem_map.1 (h.holds.mem_iff.1 (List.mem_of_find?_eq_some hf))
    have heq := h.ascending.eq_of_zero hc hn hm (hc.zero_of_zero h0 (of_decide_eq_true he))
    simp [Index.lookup, hf, heq]

omit [DecidableEq P] [Fintype P] in
/-- Where no node compares equal, the table has nothing. -/
theorem Tracks.index_lookup_none (h : Tracks cmp o t index) (h0 : ∀ n ∈ t.toList, cmp v (o.value n) ≠ 0) :
    index.lookup cmp v = none := by
  rw [Index.lookup, Option.map_eq_none_iff, List.find?_eq_none]
  intro e he
  obtain ⟨m, hm, rfl⟩ := List.mem_map.1 (h.holds.mem_iff.1 he)
  simpa using h0 m hm

omit [DecidableEq P] in
/-- The walk down finds what the table has. -/
theorem Tracks.lookupExact (h : Tracks cmp o t index) (hc : Comparator cmp) (v : K) :
    o.lookupExact cmp v = some (index.lookup cmp v) := by
  rcases BAVL.lookup_spec hc v h.tree h.ascending with ⟨c, c1, c2, -, c4⟩ | ⟨xs, ys, ht, hx, hy, he, -⟩
  · rw [c4, h.index_lookup hc c1 c2]
  · rw [he, h.index_lookup_none fun n hn => ?_]
    rw [ht, List.mem_append] at hn
    rcases hn with hn | hn
    · rw [hx n hn]
      decide
    · rw [hy n hn]
      decide

omit [Fintype P] in
/-- A node outside the tree may be given any value. -/
theorem Tracks.setValue (h : Tracks cmp o t index) (hn : n ∉ t.toList) (v : K) : Tracks cmp (o.setValue n v) t index := by
  have hval : ∀ m ∈ t.toList, (o.setValue n v).value m = o.value m := fun m hm =>
    Function.update_of_ne (fun he : m = n => hn (he ▸ hm)) _ _
  exact ⟨⟨h.tree.linked.congr (fun _ _ => rfl) fun _ _ => rfl, h.tree.weighed, h.tree.nodup⟩, h.ascending.congr hval,
    h.holds.congr hval⟩

/-- `BAVL_Insert` returns what inserting into the table gives, and the tree stands for the table after it. -/
theorem Tracks.insert (h : Tracks cmp o t index) (hc : Comparator cmp) (hn : n ∉ t.toList) (v : K) :
    ∃ o' t' ref, (o.setValue n v).insert cmp n = some (o', ref, (index.insert cmp v n).isSome) ∧
      Tracks cmp o' t' ((index.insert cmp v n).getD index) := by
  have hs := h.setValue hn v
  have hv : (o.setValue n v).value n = v := Function.update_self _ _ _
  rcases BAVL.insert_spec hc hs.tree hs.ascending hn with ⟨c, c1, c2, c3⟩ | ⟨o', t', ref, xs, ys, i1, i2, i3, i4, i5, i6, i7, -⟩
  · rw [hv] at c2
    have hidx : index.insert cmp v n = none := by rw [Index.insert, hs.index_lookup hc c1 c2]
    exact ⟨_, t, some c, by rw [c3, hidx]; rfl, by rw [hidx]; exact hs⟩
  · rw [hv] at i6 i7
    have hidx : index.insert cmp v n = some ⟨index.entries ++ [(v, n)]⟩ := by
      rw [Index.insert, hs.index_lookup_none fun m hm => ?_]
      rw [i4, List.mem_append] at hm
      rcases hm with hm | hm
      · rw [i6 m hm]
        decide
      · rw [i7 m hm]
        decide
    refine ⟨o', t', ref, by rw [i1, hidx]; rfl, i2, ?_, ?_⟩
    · rw [i3, i5]
      refine Ascending.insert (i4 ▸ hs.ascending) hc ?_ ?_
      · rwa [hv]
      · rwa [hv]
    · rw [hidx, i3, i5]
      have hp := hs.holds
      rw [i4] at hp
      have hnew : ((xs ++ n :: ys).map fun m => ((o.setValue n v).value m, m)).Perm
          ((xs ++ ys).map (fun m => ((o.setValue n v).value m, m)) ++ [(v, n)]) := by
        have hm : (xs ++ n :: ys).Perm (xs ++ ys ++ [n]) :=
          List.perm_middle.trans (List.perm_append_singleton n (xs ++ ys)).symm
        refine (hm.map _).trans (List.Perm.of_eq ?_)
        simp [hv]
      exact (List.Perm.append_right [(v, n)] hp).trans hnew.symm

/-- `BAVL_Remove` returns, and the tree stands for the table after it. -/
theorem Tracks.remove (h : Tracks cmp o t index) (hn : n ∈ t.toList) :
    ∃ o' t', o.remove n = some o' ∧ Tracks cmp o' t' (index.remove n) := by
  obtain ⟨o', t', r1, r2, r3, r4⟩ := BAVL.remove_spec h.tree hn
  refine ⟨o', t', r1, r2, ?_, ?_⟩
  · rw [r3, r4]
    exact List.Pairwise.sublist List.erase_sublist h.ascending
  · rw [r3, r4]
    exact h.holds.remove h.tree.nodup n

/-- The tree stands for the table. -/
def Sound (cmp : K → K → Int) (s : AvlTable P K) : Prop := ∃ o t, s.tree = some o ∧ Tracks cmp o t s.index

/-- An empty tree stands for the empty table. -/
theorem sound_init {s : AvlTable P K} (h : (system cmp).init s) : Sound cmp s := by
  obtain ⟨o, rfl⟩ := h
  exact ⟨_, .nil, rfl, ⟨rfl, trivial, List.nodup_nil⟩, List.Pairwise.nil, Index.holds_empty _⟩

/-- Every call the rules allow returns and keeps the tree in step with the table. -/
theorem sound_step {s : AvlTable P K} (hc : Comparator cmp) (h : Sound cmp s) (e : AvlCall P K) (he : s.Allowed e) :
    Sound cmp (s.step cmp e) := by
  obtain ⟨o, t, ho, ht⟩ := h
  cases e with
  | insert n v =>
    have hn : n ∉ t.toList := fun hm => he (ht.perm.mem_iff.2 hm)
    obtain ⟨o', t', ref, i1, i2⟩ := ht.insert hc hn v
    exact ⟨o', t', by simp [step, ho, i1], i2⟩
  | remove n =>
    obtain ⟨o', t', r1, r2⟩ := ht.remove (ht.perm.mem_iff.1 he)
    exact ⟨o', t', by simp [step, ho, r1], r2⟩

/-- So it is along every run. -/
theorem sound_run {es : List (AvlCall P K)} {s : AvlTable P K} (hc : Comparator cmp)
    (h : (system cmp).RunWhere Allowed es s) : Sound cmp s := by
  refine h.invariant (fun _ s => Sound cmp s) (fun s hs => sound_init hs) ?_
  intro es s e s' hs he hstep
  obtain rfl := Option.some.inj hstep
  exact sound_step hc hs e he

end AvlTable

end PsiphonAndroid
