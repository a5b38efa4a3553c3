import Mathlib
import PsiphonAndroid.UdpGw.Trees

/-!
# The AVL tree over whole runs

What a caller of `BAVL.h` may rely on after any sequence of insertions and removals that keeps its rules: every call returns, the
tree passes its own check, and all its answers are those of the table; and what the balance is for, a bound on the walks down.
-/

namespace PsiphonAndroid

open Lib BinTree

variable {P K : Type} [DecidableEq P] [Fintype P] {cmp : K → K → Int}

/-- After every run that keeps the rules: (1) every call has returned, and `BAVL_Verify` passes; (2) the nodes, in the order of
their values, are those of the table; (3) `BAVL_LookupExact` finds what the table has; (4) `BAVL_Insert` succeeds exactly where the
table takes the value; (5) `BAVL_GetFirst` and `BAVL_GetLast` give the ends of the order, and `BAVL_GetNext` and `BAVL_GetPrev` the
neighbours in it. -/
theorem avl_table_agrees (hc : Comparator cmp) {es : List (AvlCall P K)} {s : AvlTable P K}
    (h : (AvlTable.system cmp).RunWhere AvlTable.Allowed es s) :
    ∃ o l, (s.tree = some o ∧ o.verify cmp = true) ∧ (l.Perm s.nodes ∧ Ascending cmp o.value l) ∧
      (∀ v, o.lookupExact cmp v = some (s.index.lookup cmp v)) ∧
      (∀ n v, n ∉ s.nodes → ∃ o' ref, (o.setValue n v).insert cmp n = some (o', ref, (s.index.insert cmp v n).isSome)) ∧
      (o.getFirst = some l.head? ∧ o.getLast = some l.getLast? ∧
        ∀ xs n ys, l = xs ++ n :: ys → o.getNext n = some ys.head? ∧ o.getPrev n = some xs.getLast?) := by
  obtain ⟨o, t, ho, ht⟩ := AvlTable.sound_run hc h
  refine ⟨o, t.toList, ⟨ho, BAVL.verify_spec hc ht.tree ht.ascending⟩, ⟨ht.perm.symm, ht.ascending⟩, ht.lookupExact hc, ?_, ?_⟩
  · intro n v hn
    obtain ⟨o', t', ref, i1, -⟩ := ht.insert hc (fun hm => hn (ht.perm.mem_iff.2 hm)) v
    exact ⟨o', ref, i1⟩
  · refine ⟨BAVL.getEnd_spec ht.tree, BAVL.getEnd_spec ht.tree, ?_⟩
    intro xs n ys hl
    exact ⟨BAVL.neighbour_spec ht.tree hl, BAVL.neighbour_spec ht.tree hl⟩

namespace AvlTableAux

/-- A tree without nodes, in memory that holds anything. -/
def blank : AvlTable (Fin 4) Nat := ⟨some (BAVL.init ⟨none, fun _ => ⟨none, fun _ => none, 7⟩, fun _ => 0⟩), .empty⟩

/-- Three nodes in ascending order, a fourth whose value is there already, and the removal of the first. -/
def fewCalls : List (AvlCall (Fin 4) Nat) := [.insert 0 10, .insert 1 20, .insert 2 30, .insert 3 20, .remove 0]

/-- The state after the calls. -/
def afterFew : AvlTable (Fin 4) Nat := fewCalls.foldl (AvlTable.step bCompare) blank

theorem run_few : (AvlTable.system bCompare).RunWhere AvlTable.Allowed fewCalls afterFew := by
  have h0 : (AvlTable.system bCompare).RunWhere AvlTable.Allowed [] blank := .init ⟨_, rfl⟩
  have he : (AvlTable.system bCompare).execWhere AvlTable.Allowed blank fewCalls = some afterFew := rfl
  exact h0.execWhere he

end AvlTableAux

open AvlTableAux

/-- After the few calls nodes 1 and 2 are left, and the fourth node would still be refused. -/
theorem fewCalls_agree : ∃ (o : BAVL (Fin 4) Nat) (l : List (Fin 4)), (afterFew.tree = some o ∧ o.verify bCompare = true) ∧ l.Perm [1, 2] ∧
    o.lookupExact bCompare 20 = some (some 1) ∧ ∃ o' ref, (o.setValue 3 20).insert bCompare 3 = some (o', ref, false) := by
  obtain ⟨o, l, h1, h2, h3, h4, -⟩ := avl_table_agrees bCompare_comparator run_few
  have hnodes : afterFew.nodes = [1, 2] := by decide
  refine ⟨o, l, h1, hnodes ▸ h2.1, ?_, ?_⟩
  · rw [h3]
    decide
  · exact h4 3 20 (by rw [hnodes]; decide)

/-- After every run that keeps the rules, a walk down the tree of `m` nodes, as `BAVL_Insert`, `BAVL_Lookup` and `BAVL_LookupExact`
make it, compares at most `h` times, where `fib (h + 2) ≤ m + 1`. -/
theorem avl_walk_bounded (hc : Comparator cmp) {es : List (AvlCall P K)} {s : AvlTable P K}
    (h : (AvlTable.system cmp).RunWhere AvlTable.Allowed es s) :
    ∃ o height, s.tree = some o ∧ Nat.fib (height + 2) ≤ s.nodes.length + 1 ∧
      ∀ v root, o.root = some root → ∃ r, o.descend cmp v height root = some r ∧ o.descend cmp v (Fintype.card P) root = some r := by
  obtain ⟨o, t, ho, ht⟩ := AvlTable.sound_run hc h
  refine ⟨o, t.height, ho, ?_, ?_⟩
  · rw [show s.nodes.length = t.toList.length from ht.perm.length_eq]
    exact (BAVL.Weighed.balanced ht.tree.weighed).fib_le
  · intro v root hr
    have hl := ht.tree.linked
    rw [hr] at hl
    obtain ⟨r, hd⟩ : ∃ r, o.descend cmp v t.height root = some r := by
      rcases BAVL.descend_spec hc v t.height hl ht.ascending (Nat.le_refl _) with ⟨c, -, hd, -⟩ | ⟨f, fs, -, hd, -⟩
      · exact ⟨_, hd⟩
      · exact ⟨_, hd⟩
    exact ⟨r, hd, BAVL.descend_mono ht.tree.height_le hd⟩

/-- The two nodes left after the few calls are found with at most two comparisons. -/
theorem fewCalls_bounded : ∃ o height, afterFew.tree = some o ∧ Nat.fib (height + 2) ≤ 3 ∧
    ∀ v root, o.root = some root → ∃ r, o.descend bCompare v height root = some r := by
  obtain ⟨o, height, h1, h2, h3⟩ := avl_walk_bounded bCompare_comparator run_few
  refine ⟨o, height, h1, h2, ?_⟩
  intro v root hr
  obtain ⟨r, hd, -⟩ := h3 v root hr
  exact ⟨r, hd⟩

end PsiphonAndroid
