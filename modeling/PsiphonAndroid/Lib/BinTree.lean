import Mathlib

/-!
# Binary trees and their contexts

A binary tree, the tree around a subtree as a list of frames from the subtree up, and the balance of AVL trees. `bin side t a s`
is the node `a` with `t` on the side `side` and `s` on the other one, so that what holds of one side is said once. An algorithm
that walks up from a node is followed by `plug`: the tree is the subtree put back into its frames.
-/

namespace Lib

/-- A binary tree with a value at every node. -/
inductive BinTree (α : Type*) where
  | nil
  | node (l : BinTree α) (a : α) (r : BinTree α)
deriving DecidableEq

/-- One step from a subtree up: the side it is on, the node above and the other subtree. -/
structure Frame (α : Type*) where
  side : Bool
  a : α
  sib : BinTree α

namespace BinTree

variable {α β : Type*} {t s l r : BinTree α} {a : α} {fs : List (Frame α)}

/-- The values from left to right. -/
def toList : BinTree α → List α
  | nil => []
  | node l a r => l.toList ++ a :: r.toList

/-- The number of levels. -/
def height : BinTree α → Nat
  | nil => 0
  | node l _ r => max l.height r.height + 1

/-- The node `a` with `t` on the side `side`. -/
def bin (side : Bool) (t : BinTree α) (a : α) (s : BinTree α) : BinTree α := if side then node s a t else node t a s

/-- The tree of the same shape with every value replaced. -/
def map (f : α → β) : BinTree α → BinTree β
  | nil => nil
  | node l a r => node (l.map f) (f a) (r.map f)

/-- The tree whose subtree in the frames `fs` is `t`. -/
def plug : List (Frame α) → BinTree α → BinTree α
  | [], t => t
  | f :: fs, t => plug fs (bin f.side t f.a f.sib)

/-- The values before a subtree. -/
def before : List (Frame α) → List α
  | [] => []
  | f :: fs => before fs ++ if f.side then f.sib.toList ++ [f.a] else []

/-- The values after a subtree. -/
def after : List (Frame α) → List α
  | [] => []
  | f :: fs => (if f.side then [] else f.a :: f.sib.toList) ++ after fs

/-- The empty tree has no values. -/
@[simp] theorem toList_nil : (nil : BinTree α).toList = [] := rfl

/-- A value stands between those of its two subtrees. -/
@[simp] theorem toList_node : (node l a r).toList = l.toList ++ a :: r.toList := rfl

/-- The sides do not matter for the height. -/
@[simp] theorem height_bin (side : Bool) : (bin side t a s).height = max t.height s.height + 1 := by
  cases side with
  | false => rfl
  | true => simp [bin, height, Nat.max_comm]

/-- The same tree, with its other side named. -/
theorem bin_not (side : Bool) : bin (!side) t a s = bin side s a t := by
  cases side <;> rfl

/-- In order, from the side that is named. -/
theorem toList_bin (side : Bool) :
    (bin side t a s).toList = if side then s.toList ++ a :: t.toList else t.toList ++ a :: s.toList := by
  cases side <;> rfl

/-- The values of a tree are its own and those of its two subtrees. -/
theorem mem_bin {side : Bool} {x : α} : x ∈ (bin side t a s).toList ↔ x ∈ t.toList ∨ x = a ∨ x ∈ s.toList := by
  rw [toList_bin]
  split
  · simp only [List.mem_append, List.mem_cons]
    tauto
  · simp only [List.mem_append, List.mem_cons]

/-- A rotation keeps the order of the values. -/
theorem toList_rotate (side : Bool) {b : α} {x : BinTree α} :
    (bin side (bin side t a x) b s).toList = (bin side t a (bin side x b s)).toList := by
  cases side <;> simp [toList_bin]

/-- A subtree stands between what its frames have before and after it. -/
theorem toList_plug (fs : List (Frame α)) (t : BinTree α) : (plug fs t).toList = before fs ++ t.toList ++ after fs := by
  induction fs generalizing t with
  | nil => simp [plug, before, after]
  | cons f fs ih =>
    rw [plug, ih, toList_bin, before, after]
    split <;> simp

/-- Inner frames first. -/
theorem plug_append (fs gs : List (Frame α)) (t : BinTree α) : plug (fs ++ gs) t = plug gs (plug fs t) := by
  induction fs generalizing t with
  | nil => rfl
  | cons f fs ih => exact ih _

/-- Outer frames come before inner ones. -/
theorem before_append (fs gs : List (Frame α)) : before (fs ++ gs) = before gs ++ before fs := by
  induction fs with
  | nil => simp [before]
  | cons f fs ih => simp [before, ih]

/-- Outer frames come after inner ones. -/
theorem after_append (fs gs : List (Frame α)) : after (fs ++ gs) = after fs ++ after gs := by
  induction fs with
  | nil => simp [after]
  | cons f fs ih => simp [after, ih]

/-- Replacing the values keeps their order. -/
theorem toList_map (f : α → β) (t : BinTree α) : (t.map f).toList = t.toList.map f := by
  induction t with
  | nil => rfl
  | node l a r ihl ihr => simp [map, toList, ihl, ihr]

/-- Replacing the values keeps the height. -/
@[simp] theorem height_map (f : α → β) (t : BinTree α) : (t.map f).height = t.height := by
  induction t with
  | nil => rfl
  | node l a r ihl ihr => simp [map, height, ihl, ihr]

/-- Replacing the values of a tree given by a side. -/
theorem map_bin (f : α → β) (side : Bool) : (bin side t a s).map f = bin side (t.map f) (f a) (s.map f) := by
  cases side <;> rfl

/-- A map on the frames. -/
def mapFrames (f : α → β) (fs : List (Frame α)) : List (Frame β) := fs.map fun g => ⟨g.side, f g.a, g.sib.map f⟩

/-- Replacing in a subtree and in its frames. -/
theorem map_plug (f : α → β) (fs : List (Frame α)) (t : BinTree α) : (plug fs t).map f = plug (mapFrames f fs) (t.map f) := by
  induction fs generalizing t with
  | nil => rfl
  | cons g fs ih => rw [plug, ih, map_bin]; rfl

/-- Every value of a tree is at the root of a subtree. -/
theorem exists_plug_of_mem {x : α} (h : x ∈ t.toList) : ∃ fs l r, t = plug fs (node l x r) := by
  induction t with
  | nil => nomatch h
  | node l a r ihl ihr =>
    simp only [toList_node, List.mem_append, List.mem_cons] at h
    rcases h with h | rfl | h
    · obtain ⟨fs, l', r', rfl⟩ := ihl h
      exact ⟨fs ++ [⟨false, a, r⟩], l', r', by rw [plug_append]; rfl⟩
    · exact ⟨[], l, r, rfl⟩
    · obtain ⟨fs, l', r', rfl⟩ := ihr h
      exact ⟨fs ++ [⟨true, a, l⟩], l', r', by rw [plug_append]; rfl⟩

/-- The last value of a tree has nothing on its right. -/
theorem exists_plug_last (h : t ≠ nil) :
    ∃ fs l x, t = plug fs (node l x nil) ∧ ∀ f ∈ fs, f.side = true := by
  induction t with
  | nil => exact absurd rfl h
  | node l a r _ ihr =>
    by_cases hr : r = nil
    · subst hr
      exact ⟨[], l, a, rfl, nofun⟩
    · obtain ⟨fs, l', x, rfl, hs⟩ := ihr hr
      refine ⟨fs ++ [⟨true, a, l⟩], l', x, by rw [plug_append]; rfl, fun f hf => ?_⟩
      rcases List.mem_append.1 hf with hf | hf
      · exact hs f hf
      · rw [List.mem_singleton.1 hf]

/-- A subtree on the right edge has nothing after it. -/
theorem after_of_right (h : ∀ f ∈ fs, f.side = true) : after fs = [] := by
  induction fs with
  | nil => rfl
  | cons f fs ih => simp [after, h f (by simp), ih fun g hg => h g (by simp [hg])]

/-! ## No value twice -/

/-- The values around a subtree. -/
def around (fs : List (Frame α)) : List α := before fs ++ after fs

/-- The values of a frame are its own and its sibling's. -/
theorem mem_around_cons {f : Frame α} {x : α} : x ∈ around (f :: fs) ↔ x = f.a ∨ x ∈ f.sib.toList ∨ x ∈ around fs := by
  simp only [around, before, after]
  split <;> simp only [List.mem_append, List.mem_cons, List.not_mem_nil] <;> tauto

/-- The same, as a permutation. -/
theorem around_cons_perm (f : Frame α) : (around (f :: fs)).Perm (f.a :: (f.sib.toList ++ around fs)) := by
  simp only [around, before, after]
  split
  · simp only [List.nil_append, List.append_assoc]
    refine (List.perm_append_comm_assoc _ _ _).trans ?_
    simp only [List.cons_append, List.nil_append]
    exact (List.Perm.append_left _ List.perm_middle).trans List.perm_middle
  · simp only [List.append_nil, List.cons_append]
    refine List.perm_middle.trans (List.Perm.cons _ ?_)
    exact List.perm_append_comm_assoc _ _ _

/-- No value stands twice in the frames. -/
theorem nodup_around_cons {f : Frame α} : (around (f :: fs)).Nodup ↔
    f.a ∉ f.sib.toList ∧ f.a ∉ around fs ∧ f.sib.toList.Nodup ∧ (around fs).Nodup ∧ ∀ x ∈ f.sib.toList, x ∉ around fs := by
  rw [(around_cons_perm f).nodup_iff, List.nodup_cons, List.nodup_append', List.mem_append, not_or, List.disjoint_left]
  tauto

/-- No value stands twice in a tree. -/
theorem nodup_bin {side : Bool} : (bin side t a s).toList.Nodup ↔
    a ∉ t.toList ∧ a ∉ s.toList ∧ t.toList.Nodup ∧ s.toList.Nodup ∧ ∀ x ∈ t.toList, x ∉ s.toList := by
  have hp : (bin side t a s).toList.Perm (a :: (t.toList ++ s.toList)) := by
    rw [toList_bin]
    split
    · exact List.perm_middle.trans (List.Perm.cons _ List.perm_append_comm)
    · exact List.perm_middle
  rw [hp.nodup_iff, List.nodup_cons, List.nodup_append', List.mem_append, not_or, List.disjoint_left]
  tauto

/-- The same with the left side first. -/
theorem nodup_node : (node l a r).toList.Nodup ↔
    a ∉ l.toList ∧ a ∉ r.toList ∧ l.toList.Nodup ∧ r.toList.Nodup ∧ ∀ x ∈ l.toList, x ∉ r.toList :=
  show (bin false l a r).toList.Nodup ↔ _ from nodup_bin

/-- No value stands twice in a subtree and its frames. -/
theorem nodup_plug : (plug fs t).toList.Nodup ↔ t.toList.Nodup ∧ (around fs).Nodup ∧ ∀ x ∈ t.toList, x ∉ around fs := by
  have hp : (plug fs t).toList.Perm (t.toList ++ around fs) := by
    rw [toList_plug, around, List.append_assoc]
    exact List.perm_append_comm_assoc _ _ _
  rw [hp.nodup_iff, List.nodup_append', List.disjoint_left]

/-! ## Balance -/

/-- The heights of the two subtrees of every node differ by at most one. -/
def Balanced : BinTree α → Prop
  | nil => True
  | node l _ r => l.height ≤ r.height + 1 ∧ r.height ≤ l.height + 1 ∧ l.Balanced ∧ r.Balanced

/-- There is a value on every level. -/
theorem height_le_length (t : BinTree α) : t.height ≤ t.toList.length := by
  induction t with
  | nil => exact Nat.le_refl _
  | node l a r ihl ihr => simp only [height, toList_node, List.length_append, List.length_cons]; omega

/-- Each frame is a level above the subtree. -/
theorem length_le_plug (fs : List (Frame α)) (t : BinTree α) : fs.length + t.height ≤ (plug fs t).height := by
  induction fs generalizing t with
  | nil => exact Nat.le_of_eq (Nat.zero_add _)
  | cons f fs ih =>
    have := ih (bin f.side t f.a f.sib)
    rw [height_bin] at this
    simp only [List.length_cons, plug]
    omega

/-- A balanced tree of height `h` has at least `fib (h + 2) - 1` values. -/
theorem Balanced.fib_le (h : t.Balanced) : Nat.fib (t.height + 2) ≤ t.toList.length + 1 := by
  induction t with
  | nil => exact Nat.le_refl _
  | node l a r ihl ihr =>
    obtain ⟨h1, h2, h3, h4⟩ := h
    have hl := ihl h3
    have hr := ihr h4
    have hfib : Nat.fib (max l.height r.height + 1 + 2) = Nat.fib (max l.height r.height + 1) + Nat.fib (max l.height r.height + 2) :=
      Nat.fib_add_two
    simp only [height, toList_node, List.length_append, List.length_cons]
    rw [hfib]
    rcases Nat.le_total l.height r.height with hle | hle
    · have hmono : Nat.fib (r.height + 1) ≤ Nat.fib (l.height + 2) := Nat.fib_mono (by omega)
      rw [Nat.max_eq_right hle]
      omega
    · have hmono : Nat.fib (l.height + 1) ≤ Nat.fib (r.height + 2) := Nat.fib_mono (by omega)
      rw [Nat.max_eq_left hle]
      omega

end BinTree

/-! ## Search trees -/

/-- A comparator that returns `-1`, `0` or `1` and makes a total order. -/
structure Comparator {K : Type*} (cmp : K → K → Int) : Prop where
  range : ∀ a b, cmp a b = -1 ∨ cmp a b = 0 ∨ cmp a b = 1
  swap : ∀ a b, cmp b a = -cmp a b
  trans : ∀ a b c, cmp a b ≤ 0 → cmp b c ≤ 0 → cmp a c ≤ 0

namespace Comparator

variable {K : Type*} {cmp : K → K → Int} {a b c : K}

/-- Chains of comparisons, the second strict. -/
theorem lt_of_le_of_lt (h : Comparator cmp) (h1 : cmp a b ≤ 0) (h2 : cmp b c = -1) : cmp a c = -1 := by
  have hle := h.trans a b c h1 (by omega)
  rcases h.range a c with h3 | h3 | h3
  · exact h3
  · -- `c ≤ a ≤ b` would contradict `b < c`.
    have hcb := h.trans c a b (by rw [h.swap]; omega) h1
    rw [h.swap] at hcb
    omega
  · omega

/-- Chains of comparisons, the first strict. -/
theorem lt_of_lt_of_le (h : Comparator cmp) (h1 : cmp a b = -1) (h2 : cmp b c ≤ 0) : cmp a c = -1 := by
  have hle := h.trans a b c (by omega) h2
  rcases h.range a c with h3 | h3 | h3
  · exact h3
  · have hba := h.trans b c a h2 (by rw [h.swap]; omega)
    rw [h.swap] at hba
    omega
  · omega

/-- Comparing the other way around. -/
theorem gt_iff (h : Comparator cmp) : cmp a b = 1 ↔ cmp b a = -1 := by
  rw [h.swap b a]
  omega

/-- Chains of comparisons downwards. -/
theorem gt_of_gt_of_lt (h : Comparator cmp) (h1 : cmp a b = 1) (h2 : cmp c b = -1) : cmp a c = 1 :=
  h.gt_iff.2 (h.lt_of_lt_of_le h2 (by rw [h.swap]; omega))

/-- What compares equal to one key compares equal among itself. -/
theorem zero_of_zero (h : Comparator cmp) (h1 : cmp a b = 0) (h2 : cmp a c = 0) : cmp b c = 0 := by
  have hle := h.trans b a c (by rw [h.swap]; omega) (by omega)
  have hge := h.trans c a b (by rw [h.swap]; omega) (by omega)
  rw [h.swap] at hge
  omega

/-- The order of the keys that records have. -/
theorem comap {L : Type*} (h : Comparator cmp) (f : L → K) : Comparator fun x y => cmp (f x) (f y) where
  range x y := h.range (f x) (f y)
  swap x y := h.swap (f x) (f y)
  trans x y z := h.trans (f x) (f y) (f z)

/-- A second order decides where the first one finds no difference. -/
theorem lex {cmp' : K → K → Int} (h : Comparator cmp) (h' : Comparator cmp') :
    Comparator fun x y => if cmp x y ≠ 0 then cmp x y else cmp' x y where
  range x y := by
    split
    · exact h.range x y
    · exact h'.range x y
  swap x y := by
    rw [h.swap x y, h'.swap x y]
    split <;> split <;> omega
  trans x y z h1 h2 := by
    by_cases hxy : cmp x y = 0
    · by_cases hyz : cmp y z = 0
      · have hxz : cmp x z = 0 := h.zero_of_zero (by rw [h.swap]; omega) hyz
        simp only [hxy, hyz, hxz, ne_eq, not_true_eq_false, if_false] at h1 h2 ⊢
        exact h'.trans x y z h1 h2
      · simp only [hyz, ne_eq, not_false_eq_true, if_true] at h2
        rcases h.range y z with hr | hr | hr
        · have hxz : cmp x z = -1 := h.lt_of_le_of_lt (by omega : cmp x y ≤ 0) hr
          simp [hxz]
        · omega
        · omega
    · simp only [hxy, ne_eq, not_false_eq_true, if_true] at h1
      have hle : cmp y z ≤ 0 := by
        split at h2
        · exact h2
        · omega
      rcases h.range x y with hr | hr | hr
      · have hxz := h.lt_of_lt_of_le hr hle
        simp [hxz]
      · omega
      · omega

end Comparator

/-- The keys of the values go up from left to right. -/
def Ascending {α K : Type*} (cmp : K → K → Int) (key : α → K) (l : List α) : Prop := l.Pairwise fun x y => cmp (key x) (key y) = -1

section Ascending

variable {α K : Type*} {cmp : K → K → Int} {key key' : α → K} {l xs ys : List α} {x y : α}

/-- No two values of an ascending list have keys that compare equal. -/
theorem Ascending.eq_of_zero (h : Ascending cmp key l) (hc : Comparator cmp) (hx : x ∈ l) (hy : y ∈ l)
    (h0 : cmp (key x) (key y) = 0) : x = y := by
  have hle : l.Pairwise fun a b => cmp (key a) (key b) = 0 → a = b := h.imp fun hlt h0 => by omega
  have hge : l.Pairwise (flip fun a b => cmp (key a) (key b) = 0 → a = b) := h.imp fun {a b} hlt h0 => by
    rw [hc.swap] at h0
    omega
  exact List.Pairwise.forall_of_forall_of_flip (fun _ _ _ => rfl) hle hge hx hy h0

/-- The order is one of the keys. -/
theorem Ascending.congr (h : Ascending cmp key l) (hk : ∀ a ∈ l, key' a = key a) : Ascending cmp key' l := by
  refine List.Pairwise.imp_of_mem ?_ h
  intro a b ha hb hab
  rwa [hk a ha, hk b hb]

/-- A value in the place of its key. -/
theorem Ascending.insert (h : Ascending cmp key (xs ++ ys)) (hc : Comparator cmp) (hx : ∀ a ∈ xs, cmp (key x) (key a) = 1)
    (hy : ∀ a ∈ ys, cmp (key x) (key a) = -1) : Ascending cmp key (xs ++ x :: ys) := by
  obtain ⟨h1, h2, h3⟩ := List.pairwise_append.1 h
  refine List.pairwise_append.2 ⟨h1, List.pairwise_cons.2 ⟨hy, h2⟩, fun a ha b hb => ?_⟩
  rcases List.mem_cons.1 hb with rfl | hb
  · exact hc.gt_iff.1 (hx a ha)
  · exact h3 a ha b hb

end Ascending

end Lib
