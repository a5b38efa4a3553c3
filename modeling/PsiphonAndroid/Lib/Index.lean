import Mathlib.Data.Finset.Card
import Mathlib.Data.List.Nodup
import Mathlib.Data.List.Perm.Basic

/-!
# Indexes over records

A search tree whose keys live in the records it holds. An entry is the key a record had when it was inserted, with the record;
looking a key up compares it with the keys the records had then, as the walk down a tree does, and a record is removed by its
node, without looking at its key. `Index.Holds` says that an index is in step with the records: it has each record of a list
once, under the key the record has now. Beside it, the two other things such tables need: a search for a free number that goes
round in a circle, and a list kept in the order of last use.
-/

namespace Lib

/-- The entries of a search tree: the key at insertion and the record. -/
structure Index (K N : Type*) where
  entries : List (K × N)
  deriving DecidableEq

namespace Index

variable {K N : Type*}

/-- A tree with no entries. -/
def empty : Index K N := ⟨[]⟩

/-- The record under a key, with the order `cmp` of the tree. -/
def lookup (cmp : K → K → Int) (t : Index K N) (k : K) : Option N := (t.entries.find? fun e => cmp k e.1 = 0).map Prod.snd

/-- Inserting fails when the key is there already. -/
def insert (cmp : K → K → Int) (t : Index K N) (k : K) (n : N) : Option (Index K N) :=
  match t.lookup cmp k with
  | none => some ⟨t.entries ++ [(k, n)]⟩
  | some _ => none

/-- Removing a record by its node. -/
def remove [DecidableEq N] (t : Index K N) (n : N) : Index K N := ⟨t.entries.filter fun e => e.2 ≠ n⟩

/-- The index has the records of `l`, each once and under the key it has now. -/
def Holds (t : Index K N) (key : N → K) (l : List N) : Prop := t.entries.Perm (l.map fun n => (key n, n))

variable {cmp : K → K → Int} {t : Index K N} {key : N → K} {l : List N}

theorem holds_empty (key : N → K) : (empty : Index K N).Holds key [] := List.Perm.refl _

/-- The records of the index are the records of the list. -/
theorem Holds.nodes (h : t.Holds key l) : (t.entries.map Prod.snd).Perm l := by
  have := h.map Prod.snd
  rwa [List.map_map, show (Prod.snd ∘ fun n => (key n, n)) = id from rfl, List.map_id] at this

/-- What a lookup finds is a record with that key. -/
theorem Holds.of_lookup (hc : ∀ a b, cmp a b = 0 ↔ a = b) (h : t.Holds key l) {k : K} {n : N}
    (hl : t.lookup cmp k = some n) : n ∈ l ∧ key n = k := by
  unfold lookup at hl
  rw [Option.map_eq_some_iff] at hl
  obtain ⟨e, he, rfl⟩ := hl
  have hk := List.find?_some he
  have hm := h.mem_iff.mp (List.mem_of_find?_eq_some he)
  rw [List.mem_map] at hm
  obtain ⟨m, hm, rfl⟩ := hm
  exact ⟨hm, ((hc _ _).mp (of_decide_eq_true hk)).symm⟩

/-- A lookup finds nothing exactly when no record has the key. -/
theorem Holds.lookup_none (hc : ∀ a b, cmp a b = 0 ↔ a = b) (h : t.Holds key l) {k : K} :
    t.lookup cmp k = none ↔ ∀ n ∈ l, key n ≠ k := by
  unfold lookup
  rw [Option.map_eq_none_iff, List.find?_eq_none]
  constructor
  · intro hn n hm hk
    refine hn (key n, n) (h.mem_iff.mpr (List.mem_map.mpr ⟨n, hm, rfl⟩)) ?_
    exact decide_eq_true ((hc _ _).mpr hk.symm)
  · intro hn e he hk
    obtain ⟨m, hm, rfl⟩ := List.mem_map.mp (h.mem_iff.mp he)
    exact hn m hm ((hc _ _).mp (of_decide_eq_true hk)).symm

/-- Where no two records share a key, a record is found under its own. -/
theorem Holds.lookup_key (hc : ∀ a b, cmp a b = 0 ↔ a = b) (h : t.Holds key l)
    (hinj : ∀ n ∈ l, ∀ m ∈ l, key n = key m → n = m) {n : N} (hn : n ∈ l) : t.lookup cmp (key n) = some n := by
  cases hl : t.lookup cmp (key n) with
  | none => exact absurd rfl ((h.lookup_none hc).mp hl n hn)
  | some m =>
    obtain ⟨hm, hk⟩ := h.of_lookup hc hl
    rw [hinj m hm n hn hk]

/-- A record with a new key can be inserted. -/
theorem Holds.insert (hc : ∀ a b, cmp a b = 0 ↔ a = b) (h : t.Holds key l) {n : N} (hn : ∀ m ∈ l, key m ≠ key n) :
    ∃ t', t.insert cmp (key n) n = some t' ∧ t'.Holds key (l ++ [n]) := by
  refine ⟨⟨t.entries ++ [(key n, n)]⟩, ?_, ?_⟩
  · unfold Index.insert
    rw [(h.lookup_none hc).mpr hn]
  · unfold Holds
    rw [List.map_append]
    exact h.append (List.Perm.refl _)

/-- Removing a record leaves the others. -/
theorem Holds.remove [DecidableEq N] (h : t.Holds key l) (hl : l.Nodup) (n : N) : (t.remove n).Holds key (l.erase n) := by
  unfold Holds Index.remove
  have hf := h.filter (fun e => decide (e.2 ≠ n))
  rw [List.filter_map] at hf
  rw [hl.erase_eq_filter n]
  refine hf.trans (List.Perm.of_eq ?_)
  congr 1
  apply List.filter_congr
  intro m _
  simp only [Function.comp_apply, ne_eq, decide_not, bne]
  rfl

/-- Changing keys of records that are not in the index. -/
theorem Holds.congr (h : t.Holds key l) {key' : N → K} (hk : ∀ n ∈ l, key' n = key n) : t.Holds key' l := by
  refine h.trans (List.Perm.of_eq (List.map_congr_left ?_))
  intro n hn
  rw [hk n hn]

/-- The order of the list does not matter. -/
theorem Holds.perm (h : t.Holds key l) {l' : List N} (hp : l.Perm l') : t.Holds key l' := List.Perm.trans h (hp.map _)

/-- A record with a new key does not make two records share one. -/
theorem inj_append (hinj : ∀ n ∈ l, ∀ m ∈ l, key n = key m → n = m) {n : N} (hn : ∀ m ∈ l, key m ≠ key n) :
    ∀ a ∈ l ++ [n], ∀ b ∈ l ++ [n], key a = key b → a = b := by
  intro a ha b hb he
  rw [List.mem_append, List.mem_singleton] at ha hb
  rcases ha with ha | rfl
  · rcases hb with hb | rfl
    · exact hinj a ha b hb he
    · exact absurd he (hn a ha)
  · rcases hb with hb | rfl
    · exact absurd he.symm (hn b hb)
    · rfl

end Index

/-! ## Going round in a circle -/

/-- The number after `i` among `0 … m - 1`, and `0` after the last. -/
def circleNext (m i : Nat) : Nat := if i = m - 1 then 0 else i + 1

theorem circleNext_lt {m i : Nat} (h : i < m) : circleNext m i < m := by
  unfold circleNext
  split <;> omega

theorem circleNext_mod {m i : Nat} (h : i < m) : circleNext m i = (i + 1) % m := by
  unfold circleNext
  split
  · rename_i hi
    rw [show i + 1 = m by omega, Nat.mod_self]
  · rw [Nat.mod_eq_of_lt (by omega)]

/-- Fewer numbers than there are leave one of them out. -/
theorem exists_unused {m : Nat} {l : List Nat} (h : l.length < m) : ∃ j < m, j ∉ l := by
  have hc : l.toFinset.card < (Finset.range m).card := by
    rw [Finset.card_range]
    exact lt_of_le_of_lt (List.toFinset_card_le l) h
  obtain ⟨j, hj, hn⟩ := Finset.exists_mem_notMem_of_card_lt_card hc
  exact ⟨j, Finset.mem_range.mp hj, fun hm => hn (List.mem_toFinset.mpr hm)⟩

/-! ## The order of last use -/

section Recency

variable {N : Type*}

/-- Every record was last used before the ones after it. -/
def ByLastUse (lastUse : N → Nat) (l : List N) : Prop := l.Pairwise fun a b => lastUse a < lastUse b

/-- The first of the list is the least recently used. -/
theorem ByLastUse.head_le {lastUse : N → Nat} {n : N} {l : List N} (h : ByLastUse lastUse (n :: l)) :
    ∀ m ∈ n :: l, lastUse n ≤ lastUse m := by
  intro m hm
  rcases List.mem_cons.mp hm with rfl | hm
  · exact le_refl _
  · exact le_of_lt ((List.pairwise_cons.mp h).1 m hm)

variable [DecidableEq N]

/-- Taking a record to the end of the list. -/
def moveToEnd (l : List N) (n : N) : List N := l.erase n ++ [n]

theorem moveToEnd_perm {l : List N} {n : N} (h : n ∈ l) : (moveToEnd l n).Perm l := by
  refine (List.perm_append_comm).trans ?_
  exact (List.perm_cons_erase h).symm

theorem mem_moveToEnd {l : List N} {n m : N} (h : n ∈ l) : m ∈ moveToEnd l n ↔ m ∈ l := (moveToEnd_perm h).mem_iff

/-- A record used now belongs at the end. -/
theorem ByLastUse.touch {lastUse : N → Nat} {l : List N} (h : ByLastUse lastUse l) {now : Nat} (hnow : ∀ m ∈ l, lastUse m < now)
    (hl : l.Nodup) (n : N) : ByLastUse (Function.update lastUse n now) (moveToEnd l n) := by
  have hne : ∀ m ∈ l.erase n, m ≠ n ∧ m ∈ l := fun m hm => (hl.mem_erase_iff).mp hm
  unfold ByLastUse moveToEnd
  refine List.pairwise_append.mpr ⟨?_, List.pairwise_singleton _ _, ?_⟩
  · refine (h.sublist List.erase_sublist).imp_of_mem ?_
    intro a b ha hb hab
    rwa [Function.update_of_ne (hne a ha).1, Function.update_of_ne (hne b hb).1]
  · intro a ha b hb
    rw [List.mem_singleton] at hb
    subst hb
    rw [Function.update_self, Function.update_of_ne (hne a ha).1]
    exact hnow a (hne a ha).2

end Recency

end Lib
