import Mathlib
import PsiphonAndroid.Structure.BAvl

/-!
# The AVL tree in memory

`Linked` says that a tree is laid out in the nodes, by their links and their parents, and `Weighed` that the balance factors are
those of the tree. The operations on links are followed on `Linked` alone: a rotation turns one tree into another, a swap of two
nodes renames them, and a subtree is replaced in the frames around it. The heights are then a matter of `Weighed`.
-/

namespace PsiphonAndroid

open Lib BinTree

namespace BAVL

variable {P K : Type}

/-- The tree hangs at `ptr`, with `par` above it. -/
def Linked (o : BAVL P K) : Option P → BinTree P → Option P → Prop
  | _, .nil, ptr => ptr = none
  | par, .node l p r, ptr =>
    ptr = some p ∧ (o.node p).parent = par ∧ Linked o (some p) l ((o.node p).link false) ∧ Linked o (some p) r ((o.node p).link true)

/-- The frames around a subtree that hangs at `ptr` with `par` above it. -/
def LinkedFrames (o : BAVL P K) : Option P → Option P → List (Frame P) → Prop
  | ptr, par, [] => par = none ∧ o.root = ptr
  | ptr, par, f :: fs =>
    par = some f.a ∧ (o.node f.a).link f.side = ptr ∧ Linked o (some f.a) f.sib ((o.node f.a).link (!f.side)) ∧
      LinkedFrames o (some f.a) (o.node f.a).parent fs

/-- Every node has the balance factor its subtrees give it, and it is one of `-1`, `0` and `1`. -/
def Weighed (balance : P → Int) : BinTree P → Prop
  | .nil => True
  | .node l p r =>
    balance p = r.height - l.height ∧ -1 ≤ balance p ∧ balance p ≤ 1 ∧ Weighed balance l ∧ Weighed balance r

/-- The same of the frames around a subtree of height `h`. -/
def WeighedFrames (balance : P → Int) : Nat → List (Frame P) → Prop
  | _, [] => True
  | h, f :: fs =>
    balance f.a = optneg (f.sib.height - h) f.side ∧ -1 ≤ balance f.a ∧ balance f.a ≤ 1 ∧ Weighed balance f.sib ∧
      WeighedFrames balance (max h f.sib.height + 1) fs

/-! ## What is written -/

section Writes

variable [DecidableEq P]

/-- `setParent` writes the parent of one node. -/
@[simp] theorem setParent_parent (o : BAVL P K) (n m : P) (q : Option P) :
    ((o.setParent n q).node m).parent = if m = n then q else (o.node m).parent := by
  by_cases h : m = n
  · simp [setParent, h]
  · simp [setParent, h]

/-- It writes no link. -/
@[simp] theorem setParent_link (o : BAVL P K) (n m : P) (q : Option P) : ((o.setParent n q).node m).link = (o.node m).link := by
  by_cases h : m = n
  · simp [setParent, h]
  · simp [setParent, h]

/-- It writes no balance factor. -/
@[simp] theorem setParent_balance (o : BAVL P K) (n m : P) (q : Option P) :
    ((o.setParent n q).node m).balance = (o.node m).balance := by
  by_cases h : m = n
  · simp [setParent, h]
  · simp [setParent, h]

/-- It keeps the root. -/
@[simp] theorem setParent_root (o : BAVL P K) (n : P) (q : Option P) : (o.setParent n q).root = o.root := rfl

/-- It keeps the values. -/
@[simp] theorem setParent_value (o : BAVL P K) (n : P) (q : Option P) : (o.setParent n q).value = o.value := rfl

/-- `setLink` writes no parent. -/
@[simp] theorem setLink_parent (o : BAVL P K) (n m : P) (side : Bool) (q : Option P) :
    ((o.setLink n side q).node m).parent = (o.node m).parent := by
  by_cases h : m = n
  · simp [setLink, h]
  · simp [setLink, h]

/-- It writes one link of one node. -/
@[simp] theorem setLink_link (o : BAVL P K) (n m : P) (side s : Bool) (q : Option P) :
    ((o.setLink n side q).node m).link s = if m = n ∧ s = side then q else (o.node m).link s := by
  by_cases h : m = n
  · subst h
    by_cases hs : s = side
    · simp [setLink, hs]
    · simp [setLink, hs]
  · simp [setLink, h]

/-- It writes no balance factor. -/
@[simp] theorem setLink_balance (o : BAVL P K) (n m : P) (side : Bool) (q : Option P) :
    ((o.setLink n side q).node m).balance = (o.node m).balance := by
  by_cases h : m = n
  · simp [setLink, h]
  · simp [setLink, h]

/-- It keeps the root. -/
@[simp] theorem setLink_root (o : BAVL P K) (n : P) (side : Bool) (q : Option P) : (o.setLink n side q).root = o.root := rfl

/-- It keeps the values. -/
@[simp] theorem setLink_value (o : BAVL P K) (n : P) (side : Bool) (q : Option P) : (o.setLink n side q).value = o.value := rfl

/-- `setBalance` writes no parent. -/
@[simp] theorem setBalance_parent (o : BAVL P K) (n m : P) (b : Int) : ((o.setBalance n b).node m).parent = (o.node m).parent := by
  by_cases h : m = n
  · simp [setBalance, h]
  · simp [setBalance, h]

/-- It writes no link. -/
@[simp] theorem setBalance_link (o : BAVL P K) (n m : P) (b : Int) : ((o.setBalance n b).node m).link = (o.node m).link := by
  by_cases h : m = n
  · simp [setBalance, h]
  · simp [setBalance, h]

/-- It writes the balance factor of one node. -/
@[simp] theorem setBalance_balance (o : BAVL P K) (n m : P) (b : Int) :
    ((o.setBalance n b).node m).balance = if m = n then b else (o.node m).balance := by
  by_cases h : m = n
  · simp [setBalance, h]
  · simp [setBalance, h]

@[simp] theorem setBalance_root (o : BAVL P K) (n : P) (b : Int) : (o.setBalance n b).root = o.root := rfl

@[simp] theorem setBalance_value (o : BAVL P K) (n : P) (b : Int) : (o.setBalance n b).value = o.value := rfl

/-- `adopt` writes the parent of the child, where there is one. -/
@[simp] theorem adopt_parent (o : BAVL P K) (c : Option P) (q m : P) :
    ((o.adopt c q).node m).parent = if c = some m then some q else (o.node m).parent := by
  cases c with
  | none => simp [adopt]
  | some c =>
    by_cases h : m = c
    · simp [adopt, h]
    · simp [adopt, h, Ne.symm h]

/-- It writes no link. -/
@[simp] theorem adopt_link (o : BAVL P K) (c : Option P) (q m : P) : ((o.adopt c q).node m).link = (o.node m).link := by
  cases c <;> simp [adopt]

/-- It writes no balance factor. -/
@[simp] theorem adopt_balance (o : BAVL P K) (c : Option P) (q m : P) : ((o.adopt c q).node m).balance = (o.node m).balance := by
  cases c <;> simp [adopt]

@[simp] theorem adopt_root (o : BAVL P K) (c : Option P) (q : P) : (o.adopt c q).root = o.root := by
  cases c <;> rfl

@[simp] theorem adopt_value (o : BAVL P K) (c : Option P) (q : P) : (o.adopt c q).value = o.value := by
  cases c <;> rfl

/-- `replaceChild` writes no parent. -/
@[simp] theorem replaceChild_parent (o : BAVL P K) (q new : Option P) (old m : P) :
    ((o.replaceChild q old new).node m).parent = (o.node m).parent := by
  cases q <;> simp [replaceChild]

/-- It writes the link of the parent on the side where the old child was. -/
@[simp] theorem replaceChild_link (o : BAVL P K) (q new : Option P) (old m : P) (s : Bool) :
    ((o.replaceChild q old new).node m).link s =
      if q = some m ∧ s = decide ((o.node m).link true = some old) then new else (o.node m).link s := by
  cases q with
  | none => simp [replaceChild]
  | some q =>
    simp only [replaceChild, setLink_link, Option.some.injEq]
    by_cases h : m = q
    · subst h
      simp
    · simp [h, Ne.symm h]

/-- It writes no balance factor. -/
@[simp] theorem replaceChild_balance (o : BAVL P K) (q new : Option P) (old m : P) :
    ((o.replaceChild q old new).node m).balance = (o.node m).balance := by
  cases q <;> simp [replaceChild]

/-- Without a parent it writes the root. -/
@[simp] theorem replaceChild_root (o : BAVL P K) (q new : Option P) (old : P) :
    (o.replaceChild q old new).root = if q = none then new else o.root := by
  cases q <;> simp [replaceChild]

@[simp] theorem replaceChild_value (o : BAVL P K) (q new : Option P) (old : P) : (o.replaceChild q old new).value = o.value := by
  cases q <;> rfl

/-- `initLeaf` writes the parent of the leaf. -/
@[simp] theorem initLeaf_parent (o : BAVL P K) (n m : P) (q : Option P) :
    ((o.initLeaf n q).node m).parent = if m = n then q else (o.node m).parent := by
  by_cases h : m = n
  · simp [initLeaf, h]
  · simp [initLeaf, h]

/-- The leaf has no children. -/
@[simp] theorem initLeaf_link (o : BAVL P K) (n m : P) (q : Option P) (s : Bool) :
    ((o.initLeaf n q).node m).link s = if m = n then none else (o.node m).link s := by
  by_cases h : m = n
  · simp [initLeaf, h]
  · simp [initLeaf, h]

/-- Its balance factor is zero. -/
@[simp] theorem initLeaf_balance (o : BAVL P K) (n m : P) (q : Option P) :
    ((o.initLeaf n q).node m).balance = if m = n then 0 else (o.node m).balance := by
  by_cases h : m = n
  · simp [initLeaf, h]
  · simp [initLeaf, h]

@[simp] theorem initLeaf_root (o : BAVL P K) (n : P) (q : Option P) : (o.initLeaf n q).root = o.root := rfl

@[simp] theorem initLeaf_value (o : BAVL P K) (n : P) (q : Option P) : (o.initLeaf n q).value = o.value := rfl

end Writes

/-! ## Trees in memory -/

variable {o o' : BAVL P K} {t s a x l r : BinTree P} {fs : List (Frame P)} {par par' ptr new : Option P} {p n m : P} {side : Bool}

/-- The layout of a node and its subtrees, with either side named first. -/
theorem linked_bin : o.Linked par (bin side t p s) ptr ↔ ptr = some p ∧ (o.node p).parent = par ∧
    o.Linked (some p) t ((o.node p).link side) ∧ o.Linked (some p) s ((o.node p).link (!side)) := by
  cases side with
  | false => rfl
  | true => simp only [bin, if_true, Linked, Bool.not_true]; tauto

/-- The layout of a tree is that of a subtree and of its frames. -/
theorem linked_plug : o.Linked none (plug fs t) o.root ↔ ∃ ptr par, o.Linked par t ptr ∧ o.LinkedFrames ptr par fs := by
  induction fs generalizing t with
  | nil =>
    refine ⟨fun h => ⟨_, _, h, rfl, rfl⟩, ?_⟩
    rintro ⟨ptr, par, h, rfl, rfl⟩
    exact h
  | cons f fs ih =>
    rw [plug, ih]
    constructor
    · rintro ⟨ptr, par, h, hf⟩
      obtain ⟨rfl, rfl, h1, h2⟩ := linked_bin.1 h
      exact ⟨_, _, h1, rfl, rfl, h2, hf⟩
    · rintro ⟨ptr, par, h, rfl, rfl, h2, hf⟩
      exact ⟨_, _, linked_bin.2 ⟨rfl, rfl, h, h2⟩, hf⟩

/-- A tree hangs at one of its nodes. -/
theorem Linked.ptr_mem (h : o.Linked par t (some p)) : p ∈ t.toList := by
  cases t with
  | nil => cases h
  | node l q r =>
    obtain ⟨hp, -⟩ := h
    obtain rfl := Option.some.inj hp
    simp

/-- What is above a subtree is in its frames. -/
theorem LinkedFrames.par_mem (h : o.LinkedFrames ptr (some p) fs) : p ∈ around fs := by
  cases fs with
  | nil => cases h.1
  | cons f fs =>
    obtain rfl := Option.some.inj h.1
    exact mem_around_cons.2 (.inl rfl)

/-- A tree in nodes whose links and parents are not touched. -/
theorem Linked.congr (h : o.Linked par t ptr) (hl : ∀ q ∈ t.toList, (o'.node q).link = (o.node q).link)
    (hp : ∀ q ∈ t.toList, (o'.node q).parent = (o.node q).parent) : o'.Linked par t ptr := by
  induction t generalizing par ptr with
  | nil => exact h
  | node l p r ihl ihr =>
    obtain ⟨h1, h2, h3, h4⟩ := h
    rw [Linked, hl p (by simp), hp p (by simp)]
    exact ⟨h1, h2, ihl h3 (fun q hq => hl q (by simp [hq])) (fun q hq => hp q (by simp [hq])),
      ihr h4 (fun q hq => hl q (by simp [hq])) (fun q hq => hp q (by simp [hq]))⟩

/-- The node at which a tree hangs has the parent above it. -/
theorem Linked.ptr_parent (h : o.Linked par t (some p)) : (o.node p).parent = par := by
  cases t with
  | nil => cases h
  | node l q r =>
    obtain ⟨hp, h2, -⟩ := h
    obtain rfl := Option.some.inj hp
    exact h2

/-- A tree with nodes hangs at a node. -/
theorem Linked.exists_ptr (h : o.Linked par t ptr) (ht : t ≠ .nil) : ∃ p, ptr = some p := by
  cases t with
  | nil => exact absurd rfl ht
  | node l q r => exact ⟨q, h.1⟩

/-- A child has its parent. -/
theorem Linked.down (h : o.Linked par t ptr) (hp : p ∈ t.toList) (hl : (o.node p).link side = some n) :
    n ∈ t.toList ∧ (o.node n).parent = some p := by
  induction t generalizing par ptr with
  | nil => cases hp
  | node l q r ihl ihr =>
    obtain ⟨-, -, h3, h4⟩ := h
    simp only [toList_node, List.mem_append, List.mem_cons] at hp ⊢
    rcases hp with hp | rfl | hp
    · exact (ihl h3 hp).imp_left .inl
    · have hchild : ∀ {u : BinTree P}, o.Linked (some p) u ((o.node p).link side) → n ∈ u.toList ∧ (o.node n).parent = some p := by
        intro u hu
        rw [hl] at hu
        exact ⟨hu.ptr_mem, hu.ptr_parent⟩
      cases side with
      | false => exact (hchild h3).imp_left .inl
      | true => exact (hchild h4).imp_left fun hm => .inr (.inr hm)
    · exact (ihr h4 hp).imp_left fun hm => .inr (.inr hm)

/-- A node is the top of the tree, or the child of its parent. -/
theorem Linked.up (h : o.Linked par t ptr) (hp : p ∈ t.toList) :
    (ptr = some p ∧ (o.node p).parent = par) ∨ ∃ n ∈ t.toList, (o.node p).parent = some n ∧ ∃ s, (o.node n).link s = some p := by
  induction t generalizing par ptr with
  | nil => cases hp
  | node l q r ihl ihr =>
    obtain ⟨h1, h2, h3, h4⟩ := h
    simp only [toList_node, List.mem_append, List.mem_cons] at hp ⊢
    rcases hp with hp | rfl | hp
    · rcases ihl h3 hp with ⟨e1, e2⟩ | ⟨n, e1, e2⟩
      · exact .inr ⟨q, .inr (.inl rfl), e2, false, e1⟩
      · exact .inr ⟨n, .inl e1, e2⟩
    · exact .inl ⟨h1, h2⟩
    · rcases ihr h4 hp with ⟨e1, e2⟩ | ⟨n, e1, e2⟩
      · exact .inr ⟨q, .inr (.inl rfl), e2, true, e1⟩
      · exact .inr ⟨n, .inr (.inr e1), e2⟩

/-- A node with its two subtrees, in a tree that is in memory. -/
theorem Linked.children (h : o.Linked none (plug fs (.node l p r)) o.root) :
    o.Linked (some p) l ((o.node p).link false) ∧ o.Linked (some p) r ((o.node p).link true) ∧
      o.LinkedFrames (some p) (o.node p).parent fs := by
  obtain ⟨ptr, par, h, hf⟩ := linked_plug.1 h
  obtain ⟨rfl, rfl, h3, h4⟩ := h
  exact ⟨h3, h4, hf⟩

/-- No node is its own child. -/
theorem Linked.not_self (h : o.Linked none t o.root) (hnd : t.toList.Nodup) (hp : p ∈ t.toList) : (o.node p).link side ≠ some p := by
  intro he
  obtain ⟨fs, l, r, rfl⟩ := exists_plug_of_mem hp
  obtain ⟨h1, h2, -⟩ := h.children
  obtain ⟨e1, e2, -⟩ := nodup_node.1 (nodup_plug.1 hnd).1
  cases side with
  | false => exact e1 (he ▸ h1).ptr_mem
  | true => exact e2 (he ▸ h2).ptr_mem

/-- A tree that gets another parent. -/
theorem Linked.reparent [DecidableEq P] (h : o.Linked par t ptr) (hnd : t.toList.Nodup) (hl : ∀ q ∈ t.toList, (o'.node q).link = (o.node q).link)
    (hp : ∀ q ∈ t.toList, (o'.node q).parent = if ptr = some q then par' else (o.node q).parent) : o'.Linked par' t ptr := by
  cases t with
  | nil => exact h
  | node l p r =>
    obtain ⟨rfl, h2, h3, h4⟩ := h
    obtain ⟨n1, n2, -⟩ := nodup_node.1 hnd
    have hsame : ∀ q, q ≠ p → q ∈ (BinTree.node l p r).toList → (o'.node q).parent = (o.node q).parent := by
      intro q hne hq
      rw [hp q hq, if_neg (fun he => hne (Option.some.inj he).symm)]
    rw [Linked, hl p (by simp), hp p (by simp), if_pos rfl]
    refine ⟨rfl, rfl, h3.congr (fun q hq => hl q (by simp [hq])) fun q hq => ?_, h4.congr (fun q hq => hl q (by simp [hq])) fun q hq => ?_⟩
    · exact hsame q (fun he => n1 (he ▸ hq)) (by simp [hq])
    · exact hsame q (fun he => n2 (he ▸ hq)) (by simp [hq])

/-- Frames in nodes that are not touched. -/
theorem LinkedFrames.congr (h : o.LinkedFrames ptr par fs) (hr : o'.root = o.root)
    (hl : ∀ q ∈ around fs, (o'.node q).link = (o.node q).link) (hp : ∀ q ∈ around fs, (o'.node q).parent = (o.node q).parent) :
    o'.LinkedFrames ptr par fs := by
  induction fs generalizing par ptr with
  | nil => exact ⟨h.1, hr.trans h.2⟩
  | cons f fs ih =>
    obtain ⟨h1, h2, h3, h4⟩ := h
    have hin : ∀ q, q ∈ f.sib.toList ∨ q ∈ around fs → q ∈ around (f :: fs) := fun q hq => mem_around_cons.2 (.inr hq)
    rw [LinkedFrames, hl f.a (mem_around_cons.2 (.inl rfl)), hp f.a (mem_around_cons.2 (.inl rfl))]
    exact ⟨h1, h2, h3.congr (fun q hq => hl q (hin q (.inl hq))) (fun q hq => hp q (hin q (.inl hq))),
      ih h4 (fun q hq => hl q (hin q (.inr hq))) (fun q hq => hp q (hin q (.inr hq)))⟩

variable [DecidableEq P]

omit [DecidableEq P] in
/-- The links of the node above a subtree tell its side. -/
theorem LinkedFrames.link_iff {f : Frame P} (h : o.LinkedFrames (some n) par (f :: fs)) (hn : n ∉ f.sib.toList) :
    (o.node f.a).link side = some n ↔ side = f.side := by
  obtain ⟨-, h2, h3, -⟩ := h
  refine ⟨fun he => ?_, fun he => he ▸ h2⟩
  by_contra hne
  obtain rfl : side = !f.side := Bool.eq_not_of_ne hne
  rw [he] at h3
  exact hn h3.ptr_mem

/-- The test of the source for the side on which a child is. -/
theorem LinkedFrames.side_eq {f : Frame P} (h : o.LinkedFrames (some n) par (f :: fs)) (hn : n ∉ f.sib.toList) :
    decide ((o.node f.a).link true = some n) = f.side := by
  simp only [h.link_iff hn]
  cases f.side <;> rfl

/-- Another subtree in the frames: the link that had led to `n` leads to the new one. -/
theorem LinkedFrames.replace (h : o.LinkedFrames (some n) par fs) (hnd : (around fs).Nodup) (hn : n ∉ around fs)
    (hr : o'.root = if par = none then new else o.root) (hp : ∀ q ∈ around fs, (o'.node q).parent = (o.node q).parent)
    (hl : ∀ q ∈ around fs, ∀ s, (o'.node q).link s =
      if par = some q ∧ s = decide ((o.node q).link true = some n) then new else (o.node q).link s) :
    o'.LinkedFrames new par fs := by
  cases fs with
  | nil =>
    obtain ⟨rfl, -⟩ := h
    exact ⟨rfl, hr⟩
  | cons f fs =>
    obtain ⟨n1, n2, n3, n4, n5⟩ := nodup_around_cons.1 hnd
    have hf : f.a ∈ around (f :: fs) := mem_around_cons.2 (.inl rfl)
    have hside := h.side_eq fun hq => hn (mem_around_cons.2 (.inr (.inl hq)))
    obtain ⟨rfl, h2, h3, h4⟩ := h
    have hother : ∀ q, q ≠ f.a → q ∈ around (f :: fs) → (o'.node q).link = (o.node q).link := by
      intro q hne hq
      funext s
      rw [hl q hq s, if_neg (fun he => hne (Option.some.inj he.1).symm)]
    have hlf : ∀ s, (o'.node f.a).link s = if s = f.side then new else (o.node f.a).link s := by
      intro s
      rw [hl f.a hf s, hside]
      simp
    rw [LinkedFrames, hlf, hlf, hp f.a hf, if_pos rfl, if_neg (by simp)]
    refine ⟨rfl, rfl, h3.congr (fun q hq => ?_) (fun q hq => ?_), h4.congr (by rw [hr, if_neg (by simp)]) (fun q hq => ?_) (fun q hq => ?_)⟩
    · exact hother q (fun he => n1 (he ▸ hq)) (mem_around_cons.2 (.inr (.inl hq)))
    · exact hp q (mem_around_cons.2 (.inr (.inl hq)))
    · exact hother q (fun he => n2 (he ▸ hq)) (mem_around_cons.2 (.inr (.inr hq)))
    · exact hp q (mem_around_cons.2 (.inr (.inr hq)))

/-! ## Rotations -/

/-- What a rotation writes. -/
theorem rotate_eq (hn : (o.node p).link side = some n) (hne : n ≠ p) (hpp : (o.node p).parent ≠ some p)
    (hpn : (o.node p).parent ≠ some n) (hx : (o.node n).link (!side) ≠ some p) (hxn : (o.node n).link (!side) ≠ some n) :
    ∃ o', o.rotate p (!side) = some o' ∧ o'.value = o.value ∧ (o'.root = if (o.node p).parent = none then some n else o.root) ∧
      (∀ q, (o'.node q).balance = (o.node q).balance) ∧
      (∀ q, (o'.node q).parent = if q = p then some n else if q = n then (o.node p).parent
        else if (o.node n).link (!side) = some q then some p else (o.node q).parent) ∧
      ∀ q s, (o'.node q).link s = if q = p then if s = side then (o.node n).link (!side) else (o.node p).link s
        else if q = n then if s = side then (o.node n).link s else some p
        else if (o.node p).parent = some q ∧ s = decide ((o.node q).link true = some p) then some n else (o.node q).link s := by
  simp only [rotate, Bool.not_not, hn, Option.bind_eq_bind, Option.bind_some]
  refine ⟨_, rfl, by simp, ?_, by simp, fun q => ?_, fun q s => ?_⟩
  · simp [hx]
  · simp [hx]
  · by_cases hqp : q = p
    · subst hqp
      simp [hx, hpp, Ne.symm hne]
    · by_cases hqn : q = n
      · subst hqn
        simp only [replaceChild_link, setLink_link, adopt_link, setParent_link, setParent_parent, setLink_parent, adopt_parent]
        cases s <;> cases side <;> simp_all
      · simp [hx, hqp, hqn]

/-- A rotation in memory is one of the tree. -/
theorem rotate_spec (hl : o.Linked none (plug fs (bin side (bin side a n x) p s)) o.root)
    (hnd : (plug fs (bin side (bin side a n x) p s)).toList.Nodup) :
    ∃ o', o.rotate p (!side) = some o' ∧ o'.Linked none (plug fs (bin side a n (bin side x p s))) o'.root ∧
      (∀ q, (o'.node q).balance = (o.node q).balance) ∧ o'.value = o.value := by
  obtain ⟨ptr, par, h, hf⟩ := linked_plug.1 hl
  obtain ⟨rfl, rfl, h1, hs⟩ := linked_bin.1 h
  obtain ⟨hn, hnp, ha, hx⟩ := linked_bin.1 h1
  obtain ⟨d1, d2, d3⟩ := nodup_plug.1 hnd
  obtain ⟨e1, e2, e3, e4, e5⟩ := nodup_bin.1 d1
  obtain ⟨g1, g2, g3, g4, g5⟩ := nodup_bin.1 e3
  simp only [mem_bin, not_or] at e1 e5 d3
  have hxroot : ∀ q, (o.node n).link (!side) = some q → q ∈ x.toList := fun q hq => (hq ▸ hx).ptr_mem
  have hproot : ∀ q, (o.node p).parent = some q → q ∈ around fs := fun q hq => (hq ▸ hf).par_mem
  obtain ⟨o', hr, hv, hroot, hb, hP, hL⟩ := rotate_eq hn (fun he => e1.2.1 he.symm) (fun he => d3 p (by simp) (hproot p he))
    (fun he => d3 n (by simp) (hproot n he)) (fun he => e1.2.2 (hxroot p he)) (fun he => g2 (hxroot n he))
  have hLsame : ∀ q, q ≠ p → q ≠ n → q ∉ around fs → (o'.node q).link = (o.node q).link := by
    intro q h1 h2 h3
    funext s
    rw [hL, if_neg h1, if_neg h2, if_neg fun he => h3 (hproot q he.1)]
  have hPsame : ∀ q, q ≠ p → q ≠ n → q ∉ x.toList → (o'.node q).parent = (o.node q).parent := by
    intro q h1 h2 h3
    rw [hP, if_neg h1, if_neg h2, if_neg fun he => h3 (hxroot q he)]
  have hnep : n ≠ p := fun he => e1.2.1 he.symm
  have hnlink : ∀ s, (o'.node n).link s = if s = side then (o.node n).link s else some p := fun s => by rw [hL, if_neg hnep, if_pos rfl]
  have hplink : ∀ s, (o'.node p).link s = if s = side then (o.node n).link (!side) else (o.node p).link s := fun s => by
    rw [hL, if_pos rfl]
  refine ⟨o', hr, linked_plug.2 ⟨some n, (o.node p).parent, linked_bin.2 ⟨rfl, ?_, ?_, linked_bin.2 ⟨?_, ?_, ?_, ?_⟩⟩, ?_⟩, hb, hv⟩
  · rw [hP, if_neg hnep, if_pos rfl]
  · rw [hnlink, if_pos rfl]
    refine ha.congr (fun q hq => ?_) fun q hq => ?_
    · exact hLsame q (fun he => e1.1 (he ▸ hq)) (fun he => g1 (he ▸ hq)) (d3 q (.inl (.inl hq)))
    · exact hPsame q (fun he => e1.1 (he ▸ hq)) (fun he => g1 (he ▸ hq)) (g5 q hq)
  · rw [hnlink, if_neg (by simp)]
  · rw [hP, if_pos rfl]
  · rw [hplink, if_pos rfl]
    refine hx.reparent g4 (fun q hq => ?_) fun q hq => ?_
    · exact hLsame q (fun he => e1.2.2 (he ▸ hq)) (fun he => g2 (he ▸ hq)) (d3 q (.inl (.inr (.inr hq))))
    · rw [hP, if_neg (fun he : q = p => e1.2.2 (he ▸ hq)), if_neg (fun he : q = n => g2 (he ▸ hq))]
  · rw [hplink, if_neg (by simp)]
    refine hs.congr (fun q hq => ?_) fun q hq => ?_
    · exact hLsame q (fun he => e2 (he ▸ hq)) (fun he => e5 n (.inr (.inl rfl)) (he ▸ hq)) (d3 q (.inr (.inr hq)))
    · exact hPsame q (fun he => e2 (he ▸ hq)) (fun he => e5 n (.inr (.inl rfl)) (he ▸ hq)) fun hqx => e5 q (.inr (.inr hqx)) hq
  · have hap : ∀ q ∈ around fs, q ≠ p ∧ q ≠ n ∧ q ∉ x.toList := fun q hq =>
      ⟨fun he => d3 p (.inr (.inl rfl)) (he ▸ hq), fun he => d3 n (.inl (.inr (.inl rfl))) (he ▸ hq), fun hqx => d3 q (.inl (.inr (.inr hqx))) hq⟩
    refine hf.replace d2 (d3 p (.inr (.inl rfl))) hroot (fun q hq => ?_) fun q hq s => ?_
    · exact hPsame q (hap q hq).1 (hap q hq).2.1 (hap q hq).2.2
    · rw [hL, if_neg (hap q hq).1, if_neg (hap q hq).2.1]

/-! ## Balance factors -/

variable {b b' : P → Int} {h : Nat}

/-- Turning a balance factor around keeps its range. -/
theorem optneg_range {e : Int} (h1 : -1 ≤ e) (h2 : e ≤ 1) (side : Bool) : -1 ≤ optneg e side ∧ optneg e side ≤ 1 := by
  cases side with
  | false => exact ⟨h1, h2⟩
  | true => simp only [optneg, if_true]; omega

/-- Turning around twice. -/
theorem optneg_optneg (e : Int) (side : Bool) : optneg (optneg e side) side = e := by
  cases side <;> simp [optneg]

theorem optneg_sub (e d : Int) (side : Bool) : optneg e side - optneg d side = optneg (e - d) side := by
  cases side with
  | false => rfl
  | true => simp only [optneg, if_true]; omega

omit [DecidableEq P] in
/-- The balance factor of a node, seen from either side. -/
theorem weighed_bin : Weighed b (bin side t p s) ↔
    b p = optneg (s.height - t.height) side ∧ -1 ≤ b p ∧ b p ≤ 1 ∧ Weighed b t ∧ Weighed b s := by
  cases side with
  | false => rfl
  | true =>
    simp only [bin, if_true, Weighed, optneg, Int.neg_sub]
    tauto

omit [DecidableEq P] in
/-- The balance factors of a tree are those of a subtree and of its frames. -/
theorem weighed_plug : Weighed b (plug fs t) ↔ Weighed b t ∧ WeighedFrames b t.height fs := by
  induction fs generalizing t with
  | nil => simp [plug, WeighedFrames]
  | cons f fs ih =>
    rw [plug, ih, weighed_bin, height_bin, WeighedFrames]
    tauto

omit [DecidableEq P] in
/-- Only the balance factors of the nodes of the tree matter. -/
theorem Weighed.congr (hw : Weighed b t) (hb : ∀ q ∈ t.toList, b' q = b q) : Weighed b' t := by
  induction t with
  | nil => trivial
  | node l p r ihl ihr =>
    obtain ⟨h1, h2, h3, h4, h5⟩ := hw
    rw [Weighed, hb p (by simp)]
    exact ⟨h1, h2, h3, ihl h4 fun q hq => hb q (by simp [hq]), ihr h5 fun q hq => hb q (by simp [hq])⟩

omit [DecidableEq P] in
/-- Only the balance factors of the nodes of the frames matter. -/
theorem WeighedFrames.congr (hw : WeighedFrames b h fs) (hb : ∀ q ∈ around fs, b' q = b q) : WeighedFrames b' h fs := by
  induction fs generalizing h with
  | nil => trivial
  | cons f fs ih =>
    obtain ⟨h1, h2, h3, h4, h5⟩ := hw
    rw [WeighedFrames, hb f.a (mem_around_cons.2 (.inl rfl))]
    exact ⟨h1, h2, h3, h4.congr fun q hq => hb q (mem_around_cons.2 (.inr (.inl hq))),
      ih h5 fun q hq => hb q (mem_around_cons.2 (.inr (.inr hq)))⟩

/-- The balance factors are not part of the layout. -/
theorem linked_setBalance {c : Int} : (o.setBalance n c).Linked par t ptr ↔ o.Linked par t ptr :=
  ⟨fun hl => hl.congr (fun q _ => by simp) fun q _ => by simp, fun hl => hl.congr (fun q _ => by simp) fun q _ => by simp⟩

/-- What `transform` leaves: a tree with the same nodes in the same order, in the same frames. -/
structure Transformed (o o' : BAVL P K) (fs : List (Frame P)) (t t' : BinTree P) : Prop where
  linked : o'.Linked none (plug fs t') o'.root
  weighed : Weighed (fun q => (o'.node q).balance) t'
  toList : t'.toList = t.toList
  balance : ∀ q, q ∉ t.toList → (o'.node q).balance = (o.node q).balance
  value : o'.value = o.value
  height_le : t'.height ≤ t.height
  le_height : t.height ≤ t'.height + 1

omit [DecidableEq P] in
/-- A tree with a level has a node on top. -/
theorem exists_bin (side : Bool) (ht : 0 < t.height) : ∃ l p r, t = bin side l p r := by
  cases t with
  | nil => cases ht
  | node l p r =>
    cases side with
    | false => exact ⟨l, p, r, rfl⟩
    | true => exact ⟨r, p, l, rfl⟩

/-- One rotation, with the factors of the two nodes that change places. -/
theorem rotate_transformed (bp bn : Int) (hl : o.Linked none (plug fs (bin side (bin side a n x) p s)) o.root)
    (hnd : (plug fs (bin side (bin side a n x) p s)).toList.Nodup) (wa : Weighed (fun q => (o.node q).balance) a)
    (wx : Weighed (fun q => (o.node q).balance) x) (ws : Weighed (fun q => (o.node q).balance) s)
    (hbp : bp = optneg (s.height - x.height) side) (hbn : bn = optneg (max x.height s.height + 1 - a.height) side)
    (hp : -1 ≤ bp ∧ bp ≤ 1) (hn : -1 ≤ bn ∧ bn ≤ 1) (h1 : max a.height (max x.height s.height + 1) ≤ max (max a.height x.height + 1) s.height)
    (h2 : max (max a.height x.height + 1) s.height ≤ max a.height (max x.height s.height + 1) + 1) :
    ∃ o', o.rotate p (!side) = some o' ∧
      Transformed o ((o'.setBalance p bp).setBalance n bn) fs (bin side (bin side a n x) p s) (bin side a n (bin side x p s)) := by
  obtain ⟨o', r1, r2, r3, r4⟩ := rotate_spec hl hnd
  obtain ⟨e1, e2, e3, e4, e5⟩ := nodup_bin.1 (nodup_plug.1 hnd).1
  obtain ⟨g1, g2, g3, g4, g5⟩ := nodup_bin.1 e3
  simp only [mem_bin, not_or] at e1 e5
  have hpn : p ≠ n := e1.2.1
  have hkeep : ∀ q, q ≠ p → q ≠ n → (((o'.setBalance p bp).setBalance n bn).node q).balance = (o.node q).balance := by
    intro q h1 h2
    simp [h1, h2, r3]
  refine ⟨o', r1, linked_setBalance.2 (linked_setBalance.2 r2), ?_, (toList_rotate side).symm, fun q hq => ?_, r4, ?_, ?_⟩
  · refine weighed_bin.2 ⟨by simp [hbn], by simpa using hn.1, by simpa using hn.2, wa.congr fun q hq => ?_, ?_⟩
    · exact hkeep q (fun he => e1.1 (he ▸ hq)) (fun he => g1 (he ▸ hq))
    · refine weighed_bin.2 ⟨by simp [hpn, hbp], by simpa [hpn] using hp.1, by simpa [hpn] using hp.2, wx.congr fun q hq => ?_,
        ws.congr fun q hq => ?_⟩
      · exact hkeep q (fun he => e1.2.2 (he ▸ hq)) (fun he => g2 (he ▸ hq))
      · exact hkeep q (fun he => e2 (he ▸ hq)) (fun he => e5 n (.inr (.inl rfl)) (he ▸ hq))
  · simp only [mem_bin, not_or] at hq
    exact hkeep q hq.2.1 hq.1.2.1
  · simp only [height_bin]
    omega
  · simp only [height_bin]
    omega

/-- Two rotations, which bring the grandchild to the top, with the factors of the three nodes that change places. -/
theorem rotateTwice_transformed {y z : BinTree P} {g : P} (bp bn : Int)
    (hl : o.Linked none (plug fs (bin side (bin side a n (bin side y g z)) p s)) o.root)
    (hnd : (plug fs (bin side (bin side a n (bin side y g z)) p s)).toList.Nodup) (wa : Weighed (fun q => (o.node q).balance) a)
    (wy : Weighed (fun q => (o.node q).balance) y) (wz : Weighed (fun q => (o.node q).balance) z)
    (ws : Weighed (fun q => (o.node q).balance) s) (hbp : bp = optneg (s.height - z.height) side)
    (hbn : bn = optneg (y.height - a.height) side) (has : a.height = s.height) (hyz : max y.height z.height = s.height)
    (h1 : z.height ≤ y.height + 1) (h2 : y.height ≤ z.height + 1) :
    ∃ o₁ o₂, o.rotate n side = some o₁ ∧ o₁.rotate p (!side) = some o₂ ∧ (∀ q, (o₂.node q).balance = (o.node q).balance) ∧
      Transformed o (((o₂.setBalance p bp).setBalance n bn).setBalance g 0) fs (bin side (bin side a n (bin side y g z)) p s)
        (bin side (bin side a n y) g (bin side z p s)) := by
  have hl1 : o.Linked none (plug (⟨side, p, s⟩ :: fs) (bin (!side) (bin (!side) z g y) n a)) o.root := by
    rw [bin_not, bin_not]
    exact hl
  have hnd1 : (plug (⟨side, p, s⟩ :: fs) (bin (!side) (bin (!side) z g y) n a)).toList.Nodup := by
    rw [bin_not, bin_not]
    exact hnd
  obtain ⟨o₁, r1, r2, r3, r4⟩ := rotate_spec hl1 hnd1
  rw [bin_not, bin_not] at r2
  rw [Bool.not_not] at r1
  have hnd2 : (plug fs (bin side (bin side (bin side a n y) g z) p s)).toList.Nodup := by
    rw [toList_plug, toList_bin, toList_rotate, ← toList_bin, ← toList_plug]
    exact hnd
  have hl2 : o₁.Linked none (plug fs (bin side (bin side (bin side a n y) g z) p s)) o₁.root := r2
  obtain ⟨o₂, q1, q2, q3, q4⟩ := rotate_spec hl2 hnd2
  obtain ⟨e1, e2, e3, e4, e5⟩ := nodup_bin.1 (nodup_plug.1 hnd).1
  obtain ⟨g1, g2, g3, g4, g5⟩ := nodup_bin.1 e3
  obtain ⟨f1, f2, f3, f4, f5⟩ := nodup_bin.1 g4
  simp only [mem_bin, not_or] at e1 e5 g1 g2 g5
  have hpn : p ≠ n := e1.2.1
  have hpg : p ≠ g := e1.2.2.2.1
  have hng : n ≠ g := g2.2.1
  have hkeep : ∀ q, q ≠ p → q ≠ n → q ≠ g →
      ((((o₂.setBalance p bp).setBalance n bn).setBalance g 0).node q).balance = (o.node q).balance := by
    intro q h1 h2 h3
    simp [h1, h2, h3, q3, r3]
  refine ⟨o₁, o₂, r1, q1, fun q => (q3 q).trans (r3 q), linked_setBalance.2 (linked_setBalance.2 (linked_setBalance.2 q2)), ?_, ?_,
    fun q hq => ?_, q4.trans r4, ?_, ?_⟩
  · have hya := optneg_range (e := y.height - a.height) (by omega) (by omega) side
    have hsz := optneg_range (e := s.height - z.height) (by omega) (by omega) side
    rw [← hbn] at hya
    rw [← hbp] at hsz
    refine weighed_bin.2 ⟨?_, by simp, by simp, weighed_bin.2 ⟨by simp [hng, hbn], by simpa [hng] using hya.1, by simpa [hng] using hya.2,
      wa.congr fun q hq => ?_, wy.congr fun q hq => ?_⟩, weighed_bin.2 ⟨by simp [hpg, hpn, hbp], by simpa [hpg, hpn] using hsz.1,
      by simpa [hpg, hpn] using hsz.2, wz.congr fun q hq => ?_, ws.congr fun q hq => ?_⟩⟩
    · have hlevel : (((bin side z p s).height : Int) - (bin side a n y).height) = 0 := by
        simp only [height_bin]
        omega
      rw [hlevel]
      cases side <;> simp [optneg]
    · exact hkeep q (fun he => e1.1 (he ▸ hq)) (fun he => g1 (he ▸ hq)) fun he => (g5 q hq).2.1 he
    · exact hkeep q (fun he => e1.2.2.1 (he ▸ hq)) (fun he => g2.1 (he ▸ hq)) (fun he => f1 (he ▸ hq))
    · exact hkeep q (fun he => e1.2.2.2.2 (he ▸ hq)) (fun he => g2.2.2 (he ▸ hq)) (fun he => f2 (he ▸ hq))
    · exact hkeep q (fun he => e2 (he ▸ hq)) (fun he => e5 n (.inr (.inl rfl)) (he ▸ hq))
        (fun he => e5 g (.inr (.inr (.inr (.inl rfl)))) (he ▸ hq))
  · rw [← toList_rotate, toList_bin, toList_rotate, ← toList_bin]
  · simp only [mem_bin, not_or] at hq
    exact hkeep q hq.2.1 hq.1.2.1 hq.1.2.2.2.1
  · simp only [height_bin]
    omega
  · simp only [height_bin]
    omega

/-! ### A root that is too heavy by two on `side` -/

omit [DecidableEq P] in
/-- What `transform` reads there: the side, and how far the child on it leans the same way. -/
theorem heavy_balance {e : Int} (hb : (o.node p).balance = optneg (-2) side) (hn : (o.node n).balance = optneg e side) :
    ((o.node p).balance = 2 ∨ (o.node p).balance = -2) ∧ decide ((o.node p).balance = 2) = side ∧
      (o.node n).balance * (if side then 1 else -1) = -e := by
  rw [hb, hn]
  cases side with
  | false => exact ⟨.inr rfl, rfl, by simp [optneg]⟩
  | true => exact ⟨.inl rfl, rfl, by simp [optneg]⟩

omit [DecidableEq P] in
/-- The child on the heavy side hangs at the root. -/
theorem heavy_link (hl : o.Linked none (plug fs (bin side (bin side a n x) p s)) o.root) : (o.node p).link side = some n := by
  obtain ⟨_, _, htree, -⟩ := linked_plug.1 hl
  obtain ⟨-, -, hchild, -⟩ := linked_bin.1 htree
  exact (linked_bin.1 hchild).1

/-- The child leans the same way: one rotation takes one off the height. -/
theorem transform_outer (delta : Int) (hl : o.Linked none (plug fs (bin side (bin side a n x) p s)) o.root)
    (hnd : (plug fs (bin side (bin side a n x) p s)).toList.Nodup) (ht : Weighed (fun q => (o.node q).balance) (bin side a n x))
    (hs : Weighed (fun q => (o.node q).balance) s) (hb : (o.node p).balance = optneg (-2) side)
    (hh : (bin side a n x).height = s.height + 2) (hcase : (a.height : Int) - x.height = 1) :
    ∃ o', o.transform p delta =
        some (o', n, delta + (bin side a n (bin side x p s)).height - (bin side (bin side a n x) p s).height) ∧
      Transformed o o' fs (bin side (bin side a n x) p s) (bin side a n (bin side x p s)) := by
  obtain ⟨w1, -, -, wa, wx⟩ := weighed_bin.1 ht
  obtain ⟨hor, hside, hn⟩ := heavy_balance hb w1
  rw [height_bin] at hh
  obtain ⟨o', r1, r2⟩ := rotate_transformed 0 0 hl hnd wa wx hs (by cases side <;> simp [optneg] <;> omega)
    (by cases side <;> simp [optneg] <;> omega) (by omega) (by omega) (by omega) (by omega)
  refine ⟨_, ?_, r2⟩
  simp only [transform, if_pos hor, hside, heavy_link hl, Option.bind_eq_bind, Option.bind_some, hn]
  rw [if_pos (by omega), r1, Option.bind_some]
  simp only [height_bin]
  congr 3
  omega

/-- The child is level: one rotation keeps the height. -/
theorem transform_level (delta : Int) (hl : o.Linked none (plug fs (bin side (bin side a n x) p s)) o.root)
    (hnd : (plug fs (bin side (bin side a n x) p s)).toList.Nodup) (ht : Weighed (fun q => (o.node q).balance) (bin side a n x))
    (hs : Weighed (fun q => (o.node q).balance) s) (hb : (o.node p).balance = optneg (-2) side)
    (hh : (bin side a n x).height = s.height + 2) (hcase : (a.height : Int) - x.height = 0) :
    ∃ o', o.transform p delta =
        some (o', n, delta + (bin side a n (bin side x p s)).height - (bin side (bin side a n x) p s).height) ∧
      Transformed o o' fs (bin side (bin side a n x) p s) (bin side a n (bin side x p s)) := by
  obtain ⟨w1, -, -, wa, wx⟩ := weighed_bin.1 ht
  obtain ⟨hor, hside, hn⟩ := heavy_balance hb w1
  rw [height_bin] at hh
  obtain ⟨o', r1, r2⟩ := rotate_transformed (1 * if side then 1 else -1) (-1 * if side then 1 else -1) hl hnd wa wx hs
    (by cases side <;> simp [optneg] <;> omega) (by cases side <;> simp [optneg] <;> omega) (by cases side <;> simp)
    (by cases side <;> simp) (by omega) (by omega)
  refine ⟨_, ?_, r2⟩
  simp only [transform, if_pos hor, hside, heavy_link hl, Option.bind_eq_bind, Option.bind_some, hn]
  rw [if_neg (by omega), if_pos (by omega), r1, Option.bind_some]
  simp only [height_bin]
  congr 3
  omega

/-- The child leans the other way: two rotations take one off the height. -/
theorem transform_inner {y z : BinTree P} {g : P} (delta : Int)
    (hl : o.Linked none (plug fs (bin side (bin side a n (bin side y g z)) p s)) o.root)
    (hnd : (plug fs (bin side (bin side a n (bin side y g z)) p s)).toList.Nodup)
    (ht : Weighed (fun q => (o.node q).balance) (bin side a n (bin side y g z)))
    (hs : Weighed (fun q => (o.node q).balance) s) (hb : (o.node p).balance = optneg (-2) side)
    (hh : (bin side a n (bin side y g z)).height = s.height + 2) (hcase : (a.height : Int) - (bin side y g z).height = -1) :
    ∃ o', o.transform p delta = some (o', g, delta + (bin side (bin side a n y) g (bin side z p s)).height -
        (bin side (bin side a n (bin side y g z)) p s).height) ∧
      Transformed o o' fs (bin side (bin side a n (bin side y g z)) p s) (bin side (bin side a n y) g (bin side z p s)) := by
  obtain ⟨w1, -, -, wa, wx⟩ := weighed_bin.1 ht
  obtain ⟨v1, v2, v3, wy, wz⟩ := weighed_bin.1 wx
  obtain ⟨hor, hside, hn⟩ := heavy_balance hb w1
  have hg : (o.node n).link (!side) = some g := by
    obtain ⟨_, _, htree, -⟩ := linked_plug.1 hl
    obtain ⟨-, -, hchild, -⟩ := linked_bin.1 htree
    obtain ⟨-, -, -, hx⟩ := linked_bin.1 hchild
    exact (linked_bin.1 hx).1
  have hpg : g ≠ p := by
    obtain ⟨e1, -⟩ := nodup_bin.1 (nodup_plug.1 hnd).1
    simp only [mem_bin, not_or] at e1
    exact Ne.symm e1.2.2.2.1
  simp only [height_bin] at hh hcase
  rw [v1] at v2 v3
  -- The grandchild leans by one at most, to either side.
  have hyz : z.height ≤ y.height + 1 ∧ y.height ≤ z.height + 1 := by
    cases side with
    | false => simp only [optneg, Bool.false_eq_true, if_false] at v2 v3; omega
    | true => simp only [optneg, if_true] at v2 v3; omega
  have hbp : -max 0 ((o.node g).balance * if side then 1 else -1) * (if side then 1 else -1) = optneg (s.height - z.height) side := by
    rw [v1]
    cases side with
    | false => simp only [optneg, Bool.false_eq_true, if_false]; omega
    | true => simp only [optneg, if_true]; omega
  have hbn : max 0 (-(o.node g).balance * if side then 1 else -1) * (if side then 1 else -1) = optneg (y.height - a.height) side := by
    rw [v1]
    cases side with
    | false => simp only [optneg, Bool.false_eq_true, if_false]; omega
    | true => simp only [optneg, if_true]; omega
  obtain ⟨o₁, o₂, r1, q1, hsame, htr⟩ := rotateTwice_transformed _ _ hl hnd wa wy wz hs hbp hbn (by omega) (by omega) hyz.1 hyz.2
  refine ⟨_, ?_, htr⟩
  simp only [transform, if_pos hor, hside, heavy_link hl, Option.bind_eq_bind, Option.bind_some, hn]
  have hgsame : ∀ bp, ((o₂.setBalance p bp).node g).balance = (o.node g).balance := fun bp => by simp [hpg, hsame]
  simp only [height_bin]
  rw [if_neg (by omega), if_neg (by omega), if_pos (by omega), hg, Option.bind_some, r1, Option.bind_some, q1, Option.bind_some, hgsame,
    hsame]
  congr 3
  omega

/-- A tree that is too heavy on one side by two is set right, in one of three ways. -/
theorem transform_heavy (delta : Int) (hl : o.Linked none (plug fs (bin side t p s)) o.root)
    (hnd : (plug fs (bin side t p s)).toList.Nodup) (ht : Weighed (fun q => (o.node q).balance) t)
    (hs : Weighed (fun q => (o.node q).balance) s) (hb : (o.node p).balance = optneg (-2) side) (hh : t.height = s.height + 2) :
    ∃ o' l n r, o.transform p delta = some (o', n, delta + (bin side l n r).height - (bin side t p s).height) ∧
      Transformed o o' fs (bin side t p s) (bin side l n r) := by
  obtain ⟨a, n, x, rfl⟩ := exists_bin (t := t) side (by omega)
  obtain ⟨w1, w2, w3, -⟩ := weighed_bin.1 ht
  have hcase : (a.height : Int) - x.height = 1 ∨ (a.height : Int) - x.height = 0 ∨ (a.height : Int) - x.height = -1 := by
    rw [w1] at w2 w3
    cases side with
    | false => simp only [optneg, Bool.false_eq_true, if_false] at w2 w3; omega
    | true => simp only [optneg, if_true] at w2 w3; omega
  rcases hcase with hcase | hcase | hcase
  · obtain ⟨o', h1, h2⟩ := transform_outer delta hl hnd ht hs hb hh hcase
    exact ⟨o', _, _, _, h1, h2⟩
  · obtain ⟨o', h1, h2⟩ := transform_level delta hl hnd ht hs hb hh hcase
    exact ⟨o', _, _, _, h1, h2⟩
  · obtain ⟨y, g, z, rfl⟩ := exists_bin (t := x) side (by omega)
    obtain ⟨o', h1, h2⟩ := transform_inner delta hl hnd ht hs hb hh hcase
    exact ⟨o', _, _, _, h1, h2⟩

/-- `transform` of a tree with at most one wrong balance factor, at its root. -/
theorem transform_spec (delta : Int) (hl : o.Linked none (plug fs (bin side t p s)) o.root)
    (hnd : (plug fs (bin side t p s)).toList.Nodup) (ht : Weighed (fun q => (o.node q).balance) t)
    (hs : Weighed (fun q => (o.node q).balance) s) (hb : (o.node p).balance = optneg (s.height - t.height) side)
    (h1 : t.height ≤ s.height + 2) (h2 : s.height ≤ t.height + 2) :
    ∃ o' l n r, o.transform p delta = some (o', n, delta + (bin side l n r).height - (bin side t p s).height) ∧
      Transformed o o' fs (bin side t p s) (bin side l n r) ∧
      (t.height ≤ s.height + 1 → s.height ≤ t.height + 1 → (bin side l n r).height = (bin side t p s).height) := by
  by_cases c1 : t.height = s.height + 2
  · obtain ⟨o', l, n, r, e1, e2⟩ := transform_heavy delta hl hnd ht hs
      (by rw [hb, c1]; congr 1; omega) c1
    exact ⟨o', l, n, r, e1, e2, fun h => by omega⟩
  by_cases c2 : s.height = t.height + 2
  · rw [← bin_not side (t := s) (s := t)] at hl hnd ⊢
    obtain ⟨o', l, n, r, e1, e2⟩ := transform_heavy delta hl hnd hs ht
      (by rw [hb, c2]; cases side <;> simp [optneg]) c2
    refine ⟨o', r, n, l, ?_, ?_, fun _ h => by omega⟩
    · rw [← bin_not side (t := l) (s := r)]
      exact e1
    · rw [← bin_not side (t := l) (s := r)]
      exact e2
  · have hnot : ¬((o.node p).balance = 2 ∨ (o.node p).balance = -2) := by
      rw [hb]
      cases side with
      | false => simp only [optneg, Bool.false_eq_true, if_false]; omega
      | true => simp only [optneg, if_true]; omega
    have hrange := optneg_range (e := s.height - t.height) (by omega) (by omega) side
    rw [← hb] at hrange
    refine ⟨o, t, p, s, ?_, ⟨hl, weighed_bin.2 ⟨hb, hrange.1, hrange.2, ht, hs⟩, rfl, fun _ _ => rfl, rfl, Nat.le_refl _,
      Nat.le_succ _⟩, fun _ _ => rfl⟩
    rw [transform, if_neg hnot]
    congr 3
    omega

/-- One step up. -/
theorem rebalance_step {f : Frame P} {deltac : Int} (fuel : Nat) (hl : o.Linked none (plug (f :: fs) t) o.root)
    (hnd : (plug (f :: fs) t).toList.Nodup) (ht : Weighed (fun q => (o.node q).balance) t)
    (hw : WeighedFrames (fun q => (o.node q).balance) h (f :: fs)) (hh : (t.height : Int) = h + deltac)
    (hd : -1 ≤ deltac ∧ deltac ≤ 1) (hne : deltac ≠ 0) :
    ∃ o' l n r delta, Transformed o o' fs (bin f.side t f.a f.sib) (bin f.side l n r) ∧
      ((bin f.side l n r).height : Int) = (max h f.sib.height + 1 : Nat) + delta ∧ -1 ≤ delta ∧ delta ≤ 1 ∧
      ((o'.node n).parent = none → o.rebalance (fuel + 1) f.a f.side deltac = some o') ∧
      ∀ q, (o'.node n).parent = some q →
        o.rebalance (fuel + 1) f.a f.side deltac = rebalance fuel o' q (decide ((o'.node q).link true = some n)) delta := by
  obtain ⟨h1, h2, h3, h4, -⟩ := hw
  simp only at h1 h2 h3
  have hnd' : (plug fs (bin f.side t f.a f.sib)).toList.Nodup := hnd
  obtain ⟨e1, e2, -, -, -⟩ := nodup_bin.1 (nodup_plug.1 hnd').1
  have hdelta : max deltac (optneg (o.node f.a).balance f.side) - max 0 (optneg (o.node f.a).balance f.side) =
      (bin f.side t f.a f.sib).height - (max h f.sib.height + 1 : Nat) := by
    rw [h1, optneg_optneg, height_bin]
    omega
  have hbal : (o.node f.a).balance - optneg deltac f.side = optneg (f.sib.height - t.height) f.side := by
    rw [h1, optneg_sub]
    congr 1
    omega
  have hse : -1 ≤ (f.sib.height : Int) - h ∧ (f.sib.height : Int) - h ≤ 1 := by
    have hr := optneg_range h2 h3 f.side
    rwa [h1, optneg_optneg] at hr
  have hl' : (o.setBalance f.a (optneg (f.sib.height - t.height) f.side)).Linked none (plug fs (bin f.side t f.a f.sib)) o.root :=
    linked_setBalance.2 hl
  have hkeep : ∀ q, q ≠ f.a → ((o.setBalance f.a (optneg (f.sib.height - t.height) f.side)).node q).balance = (o.node q).balance :=
    fun q hq => by simp [hq]
  obtain ⟨o', l, n, r, r1, r2, r3⟩ := transform_spec ((bin f.side t f.a f.sib).height - (max h f.sib.height + 1 : Nat) : Int) hl' hnd'
    (ht.congr fun q hq => hkeep q fun he => e1 (he ▸ hq)) (h4.congr fun q hq => hkeep q fun he => e2 (he ▸ hq)) (by simp) (by omega)
    (by omega)
  have hle := r2.height_le
  have hge := r2.le_height
  have hnew : (bin f.side t f.a f.sib).height = max t.height f.sib.height + 1 := height_bin f.side
  -- Rebalancing was needed where the heavier subtree gained or the lighter one lost a level.
  have hrange : -1 ≤ ((bin f.side l n r).height : Int) - (max h f.sib.height + 1 : Nat) ∧
      ((bin f.side l n r).height : Int) - (max h f.sib.height + 1 : Nat) ≤ 1 := by
    by_cases hc : t.height ≤ f.sib.height + 1 ∧ f.sib.height ≤ t.height + 1
    · have := r3 hc.1 hc.2
      omega
    · omega
  have hsum : ((bin f.side t f.a f.sib).height - (max h f.sib.height + 1 : Nat) : Int) + (bin f.side l n r).height -
      (bin f.side t f.a f.sib).height = (bin f.side l n r).height - (max h f.sib.height + 1 : Nat) := by omega
  rw [hsum] at r1
  have heq : o.rebalance (fuel + 1) f.a f.side deltac = (o'.node n).parent.elim (some o') fun q =>
      rebalance fuel o' q (decide ((o'.node q).link true = some n)) ((bin f.side l n r).height - (max h f.sib.height + 1 : Nat)) := by
    rw [rebalance]
    simp only [if_pos (show -1 ≤ deltac ∧ deltac ≤ 1 ∧ -1 ≤ (o.node f.a).balance ∧ (o.node f.a).balance ≤ 1 from ⟨hd.1, hd.2, h2, h3⟩),
      if_neg hne, hdelta, hbal, r1, Option.bind_eq_bind, Option.bind_some, if_pos hrange]
    rw [if_pos (by omega)]
    cases (o'.node n).parent <;> rfl
  refine ⟨o', l, n, r, _, ⟨r2.linked, r2.weighed, r2.toList, fun q hq => ?_, r2.value, r2.height_le, r2.le_height⟩, ?_, hrange.1, hrange.2,
    fun hn => ?_, fun q hq => ?_⟩
  · rw [r2.balance q hq]
    exact hkeep q fun he => hq (mem_bin.2 (.inr (.inl he)))
  · omega
  · rw [heq, hn, Option.elim_none]
  · rw [heq, hq, Option.elim_some]

/-- The walk up: the subtree `t` has changed its height by `deltac`, and the factors above are those of before. -/
theorem rebalance_spec {f : Frame P} (fuel : Nat) (deltac : Int) (hfuel : fs.length < fuel)
    (hl : o.Linked none (plug (f :: fs) t) o.root) (hnd : (plug (f :: fs) t).toList.Nodup)
    (ht : Weighed (fun q => (o.node q).balance) t) (hw : WeighedFrames (fun q => (o.node q).balance) h (f :: fs))
    (hh : (t.height : Int) = h + deltac) (hd : -1 ≤ deltac ∧ deltac ≤ 1) :
    ∃ o' t', o.rebalance fuel f.a f.side deltac = some o' ∧ o'.Linked none t' o'.root ∧ Weighed (fun q => (o'.node q).balance) t' ∧
      t'.toList = (plug (f :: fs) t).toList ∧ o'.value = o.value := by
  induction fuel generalizing f fs t o h deltac with
  | zero => omega
  | succ fuel ih =>
    by_cases hne : deltac = 0
    · have hh' : t.height = h := by omega
      refine ⟨o, plug (f :: fs) t, ?_, hl, weighed_plug.2 ⟨ht, hh' ▸ hw⟩, rfl, rfl⟩
      obtain ⟨-, h2, h3, -, -⟩ := hw
      simp only at h2 h3
      simp only [rebalance, hne, h2, h3]
      simp
    · obtain ⟨o₁, l, n, r, delta, r1, r2, r3, r4, r5, r6⟩ := rebalance_step fuel hl hnd ht hw hh hd hne
      obtain ⟨-, -, -, -, hw'⟩ := hw
      obtain ⟨ptr, par, hlin, hfr⟩ := linked_plug.1 r1.linked
      obtain ⟨rfl, rfl, -, -⟩ := linked_bin.1 hlin
      have hnd' : (plug fs (bin f.side t f.a f.sib)).toList.Nodup := hnd
      have hlist : (plug fs (bin f.side l n r)).toList = (plug fs (bin f.side t f.a f.sib)).toList := by
        rw [toList_plug, toList_plug, r1.toList]
      cases fs with
      | nil => exact ⟨o₁, bin f.side l n r, r5 hfr.1, r1.linked, r1.weighed, hlist, r1.value⟩
      | cons g gs =>
        have hdis := (nodup_plug.1 hnd').2.2
        have hn : n ∉ g.sib.toList := fun hq => by
          rw [← hlist] at hnd'
          exact (nodup_plug.1 hnd').2.2 n (mem_bin.2 (.inr (.inl rfl))) (mem_around_cons.2 (.inr (.inl hq)))
        have hw₁ : WeighedFrames (fun q => (o₁.node q).balance) (max h f.sib.height + 1) (g :: gs) :=
          hw'.congr fun q hq => r1.balance q fun hm => hdis q hm hq
        rw [List.length_cons] at hfuel
        obtain ⟨o', t', i1, i2, i3, i4, i5⟩ := ih delta (by omega) r1.linked (hlist ▸ hnd') r1.weighed hw₁ r2 ⟨r3, r4⟩
        refine ⟨o', t', ?_, i2, i3, i4.trans hlist, i5.trans r1.value⟩
        rw [r6 g.a hfr.1, hfr.side_eq hn]
        exact i1

/-! ## Two nodes change places -/

/-- The links and the parents of the nodes `D` agree. -/
structure Wired (o : BAVL P K) (D : List P) : Prop where
  down : ∀ q ∈ D, ∀ s c, (o.node q).link s = some c → (o.node c).parent = some q
  up : ∀ q ∈ D, ∀ p, (o.node q).parent = some p → ∃ s, (o.node p).link s = some q
  apart : ∀ q ∈ D, ∀ c, (o.node q).link false = some c → (o.node q).link true ≠ some c

/-- The children on `side` change their parents. -/
theorem swapChildren_parent {n1 n2 : P} (q : P) : ((o.swapChildren n1 n2 side).node q).parent =
    if (o.node n1).link side = some q then some n2 else if (o.node n2).link side = some q then some n1 else (o.node q).parent := by
  simp [swapChildren]

/-- The two nodes change their links on `side`. -/
theorem swapChildren_link {n1 n2 : P} (q : P) (s : Bool) : ((o.swapChildren n1 n2 side).node q).link s =
    if s = side then (if q = n2 then (o.node n1).link side else if q = n1 then (o.node n2).link side else (o.node q).link s)
    else (o.node q).link s := by
  simp [swapChildren]
  grind

/-- The two nodes change their parents. -/
theorem swapParents_parent {n1 n2 : P} (q : P) : ((o.swapParents n1 n2).node q).parent =
    if q = n2 then (o.node n1).parent else if q = n1 then (o.node n2).parent else (o.node q).parent := by
  simp [swapParents]

/-- The parents change their links to the two nodes. -/
theorem swapParents_link {n1 n2 : P} (hp : (o.node n1).parent ≠ (o.node n2).parent) (q : P) (s : Bool) :
    ((o.swapParents n1 n2).node q).link s =
      if (o.node n1).parent = some q ∧ s = decide ((o.node q).link true = some n1) then some n2
      else if (o.node n2).parent = some q ∧ s = decide ((o.node q).link true = some n2) then some n1 else (o.node q).link s := by
  simp [swapParents]
  grind

theorem swapApart_parent {D : List P} {n1 n2 : P} (hw : Wired o D) (h1 : n1 ∈ D) (h2 : n2 ∈ D) (hne : n1 ≠ n2)
    (hp : (o.node n1).parent ≠ (o.node n2).parent) (h11 : (o.node n1).parent ≠ some n1) (h12 : (o.node n1).parent ≠ some n2)
    (h21 : (o.node n2).parent ≠ some n1) (h22 : (o.node n2).parent ≠ some n2) (q : P) (hq : q ∈ D) :
    ((o.swapApart n1 n2).node (Equiv.swap n1 n2 q)).parent = (o.node q).parent.map (Equiv.swap n1 n2) := by
  have hd1 := hw.down n1 h1
  have hd2 := hw.down n2 h2
  have hu := hw.up q hq
  have hl1 : ∀ s, ((o.swapParents n1 n2).node n1).link s = (o.node n1).link s := fun s => by simp [swapParents_link hp, h11, h21]
  have hl2 : ∀ s, ((o.swapParents n1 n2).node n2).link s = (o.node n2).link s := fun s => by simp [swapParents_link hp, h12, h22]
  have hP : ∀ m, ((o.swapApart n1 n2).node m).parent = if (o.node n1).link true = some m then some n2
      else if (o.node n2).link true = some m then some n1 else if (o.node n1).link false = some m then some n2
      else if (o.node n2).link false = some m then some n1 else if m = n2 then (o.node n1).parent else if m = n1 then (o.node n2).parent
      else (o.node m).parent := fun m => by
    simp [swapApart, swapChildren_parent, swapChildren_link, swapParents_parent, hl1, hl2]
  rw [hP]
  cases hpar : (o.node q).parent with
  | none =>
    simp only [Option.map_none, Equiv.swap_apply_def]
    grind
  | some p =>
    obtain ⟨s, hs⟩ := hu p hpar
    simp only [Option.map_some, Equiv.swap_apply_def]
    cases s <;> grind

theorem swapApart_link {D : List P} {n1 n2 : P} (hw : Wired o D) (h1 : n1 ∈ D) (h2 : n2 ∈ D) (hne : n1 ≠ n2)
    (hp : (o.node n1).parent ≠ (o.node n2).parent) (h11 : (o.node n1).parent ≠ some n1) (h12 : (o.node n1).parent ≠ some n2)
    (h21 : (o.node n2).parent ≠ some n1) (h22 : (o.node n2).parent ≠ some n2) (q : P) (hq : q ∈ D) (s : Bool) :
    ((o.swapApart n1 n2).node (Equiv.swap n1 n2 q)).link s = ((o.node q).link s).map (Equiv.swap n1 n2) := by
  have hd1 := hw.down n1 h1
  have hd2 := hw.down n2 h2
  have hd := hw.down q hq
  have hu1 := hw.up n1 h1
  have hu2 := hw.up n2 h2
  have hap := hw.apart q hq
  have hL : ∀ m s, ((o.swapApart n1 n2).node m).link s = if m = n2 then (o.node n1).link s else if m = n1 then (o.node n2).link s
      else if (o.node n1).parent = some m ∧ s = decide ((o.node m).link true = some n1) then some n2
      else if (o.node n2).parent = some m ∧ s = decide ((o.node m).link true = some n2) then some n1 else (o.node m).link s := fun m s => by
    have hl1 : ∀ s, ((o.swapParents n1 n2).node n1).link s = (o.node n1).link s := fun s => by simp [swapParents_link hp, h11, h21]
    have hl2 : ∀ s, ((o.swapParents n1 n2).node n2).link s = (o.node n2).link s := fun s => by simp [swapParents_link hp, h12, h22]
    cases s <;> simp [swapApart, swapChildren_link, hl1, hl2] <;> simp [swapParents_link hp]
  rw [hL]
  cases hlink : (o.node q).link s with
  | none =>
    simp only [Option.map_none, Equiv.swap_apply_def]
    cases s <;> grind
  | some c =>
    have hc := hd s c hlink
    simp only [Option.map_some, Equiv.swap_apply_def]
    cases s <;> grind

theorem swapLinked_spec {D : List P} {n1 n2 : P} (hw : Wired o D) (h1 : n1 ∈ D) (h2 : n2 ∈ D) (hne : n1 ≠ n2)
    (h11 : (o.node n1).parent ≠ some n1) (h12 : (o.node n1).parent ≠ some n2) (h21 : (o.node n1).link false = some n2) (q : P) (hq : q ∈ D) :
    ((o.swapLinked n1 n2).node (Equiv.swap n1 n2 q)).parent = (o.node q).parent.map (Equiv.swap n1 n2) ∧
    ∀ s, ((o.swapLinked n1 n2).node (Equiv.swap n1 n2 q)).link s = ((o.node q).link s).map (Equiv.swap n1 n2) := by
  have hd1 := hw.down n1 h1
  have hd2 := hw.down n2 h2
  have hd := hw.down q hq
  have hu := hw.up q hq
  have hap := hw.apart q hq
  have hside : (o.node n1).link true ≠ some n2 := hw.apart n1 h1 n2 h21
  have hpar := hd1 false n2 h21
  have hP : ∀ m, ((o.swapLinked n1 n2).node m).parent = if (o.node n1).link true = some m then some n2 else if m = n1 then some n2
      else if m = n2 then (o.node n1).parent else if (o.node n2).link true = some m then some n1
      else if (o.node n2).link false = some m then some n1 else (o.node m).parent := fun m => by
    simp [swapLinked, hside]
    grind
  have hL : ∀ m s, ((o.swapLinked n1 n2).node m).link s = if m = n2 then (if s then (o.node n1).link true else some n1)
      else if m = n1 then (o.node n2).link s
      else if (o.node n1).parent = some m ∧ s = decide ((o.node m).link true = some n1) then some n2 else (o.node m).link s := fun m s => by
    simp [swapLinked, hside]
    cases s <;> grind
  refine ⟨?_, fun s => ?_⟩
  · rw [hP]
    cases hpq : (o.node q).parent with
    | none =>
      simp only [Option.map_none, Equiv.swap_apply_def]
      grind
    | some p =>
      obtain ⟨s, hs⟩ := hu p hpq
      simp only [Option.map_some, Equiv.swap_apply_def]
      cases s <;> grind
  · rw [hL]
    cases hlink : (o.node q).link s with
    | none =>
      simp only [Option.map_none, Equiv.swap_apply_def]
      have hu1 := hw.up n1 h1
      cases s <;> grind
    | some c =>
      have hc := hd s c hlink
      have hu1 := hw.up n1 h1
      simp only [Option.map_some, Equiv.swap_apply_def]
      cases s <;> grind

omit [DecidableEq P] in
/-- A tree in memory is wired. -/
theorem Linked.wired (h : o.Linked none t o.root) (hnd : t.toList.Nodup) : Wired o t.toList where
  down q hq s c hc := (h.down hq hc).2
  up q hq p hp := by
    rcases h.up hq with ⟨-, e⟩ | ⟨n, -, e, hs⟩
    · rw [hp] at e
      cases e
    · rw [hp] at e
      obtain rfl := Option.some.inj e
      exact hs
  apart q hq c hf ht := by
    obtain ⟨fs, l, r, rfl⟩ := exists_plug_of_mem hq
    obtain ⟨h1, h2, -⟩ := h.children
    rw [hf] at h1
    rw [ht] at h2
    exact (nodup_node.1 (nodup_plug.1 hnd).1).2.2.2.2 c h1.ptr_mem h2.ptr_mem

omit [DecidableEq P] in
/-- The tree with its nodes renamed. -/
theorem Linked.rename {σ : P → P} (h : o.Linked par t ptr) (hp : ∀ q ∈ t.toList, (o'.node (σ q)).parent = (o.node q).parent.map σ)
    (hl : ∀ q ∈ t.toList, ∀ s, (o'.node (σ q)).link s = ((o.node q).link s).map σ) : o'.Linked (par.map σ) (t.map σ) (ptr.map σ) := by
  induction t generalizing par ptr with
  | nil =>
    obtain rfl : ptr = none := h
    rfl
  | node l q r ihl ihr =>
    obtain ⟨rfl, h2, h3, h4⟩ := h
    refine ⟨rfl, by rw [hp q (by simp), h2], ?_, ?_⟩
    · rw [hl q (by simp)]
      exact ihl h3 (fun m hm => hp m (by simp [hm])) fun m hm => hl m (by simp [hm])
    · rw [hl q (by simp)]
      exact ihr h4 (fun m hm => hp m (by simp [hm])) fun m hm => hl m (by simp [hm])

omit [DecidableEq P] in
/-- Balance factors that go with their nodes. -/
theorem Weighed.rename {σ : P → P} (h : Weighed b t) (hb : ∀ q, b' (σ q) = b q) : Weighed b' (t.map σ) := by
  induction t with
  | nil => trivial
  | node l q r ihl ihr =>
    obtain ⟨h1, h2, h3, h4, h5⟩ := h
    simp only [BinTree.map, Weighed, hb, height_map]
    exact ⟨h1, h2, h3, ihl h4, ihr h5⟩

/-- A swap with a node below and on the left renames the two nodes. -/
theorem swapNodes_spec {n1 n2 : P} {L R : BinTree P} (hl : o.Linked none (plug fs (.node L n1 R)) o.root)
    (hnd : (plug fs (.node L n1 R)).toList.Nodup) (h2 : n2 ∈ L.toList) :
    (o.swapNodes n1 n2).Linked none ((plug fs (.node L n1 R)).map (Equiv.swap n1 n2)) (o.swapNodes n1 n2).root ∧
      (∀ q, ((o.swapNodes n1 n2).node (Equiv.swap n1 n2 q)).balance = (o.node q).balance) ∧ (o.swapNodes n1 n2).value = o.value := by
  have hw := hl.wired hnd
  obtain ⟨hL, hR, hf⟩ := hl.children
  obtain ⟨d1, d2, d3⟩ := nodup_plug.1 hnd
  obtain ⟨e1, e2, e3, e4, e5⟩ := nodup_node.1 d1
  simp only [toList_node, List.mem_append, List.mem_cons] at d3
  have hne : n1 ≠ n2 := fun he => e1 (he ▸ h2)
  have hm1 : n1 ∈ (plug fs (.node L n1 R)).toList := by simp [toList_plug]
  have hm2 : n2 ∈ (plug fs (.node L n1 R)).toList := by simp [toList_plug, h2]
  have hpar : ∀ p, (o.node n1).parent = some p → p ∈ around fs := fun p hp => (hp ▸ hf).par_mem
  have h11 : (o.node n1).parent ≠ some n1 := fun he => d3 n1 (by simp) (hpar n1 he)
  have h12 : (o.node n1).parent ≠ some n2 := fun he => d3 n2 (.inl h2) (hpar n2 he)
  have hn2 : (o.node n2).parent ≠ none := by
    rcases hL.up h2 with ⟨-, e⟩ | ⟨n, -, e, -⟩
    · rw [e]; simp
    · rw [e]; simp
  -- The top of the tree is `n1` when it has no parent, and neither of the two otherwise.
  have hroot : (if (o.node n1).parent = none then some n2 else o.root) = o.root.map (Equiv.swap n1 n2) := by
    split
    · rename_i hn
      rw [hn] at hf
      cases fs with
      | nil => rw [hf.2]; simp
      | cons f fs => cases hf.1
    · rename_i hn
      cases hr : o.root with
      | none => rfl
      | some m =>
        rw [hr] at hl
        have hm := hl.ptr_parent
        rw [Option.map_some, Equiv.swap_apply_of_ne_of_ne]
        · rintro rfl; exact hn hm
        · rintro rfl; exact hn2 hm
  have hkey : ∀ o₁ : BAVL P K, o₁.root = o.root.map (Equiv.swap n1 n2) → (∀ q, (o₁.node q).balance = (o.node q).balance) →
      o₁.value = o.value →
      (∀ q ∈ (plug fs (.node L n1 R)).toList, (o₁.node (Equiv.swap n1 n2 q)).parent = (o.node q).parent.map (Equiv.swap n1 n2)) →
      (∀ q ∈ (plug fs (.node L n1 R)).toList, ∀ s, (o₁.node (Equiv.swap n1 n2 q)).link s = ((o.node q).link s).map (Equiv.swap n1 n2)) →
      ((o₁.setBalance n1 (o₁.node n2).balance).setBalance n2 (o₁.node n1).balance).Linked none
        ((plug fs (.node L n1 R)).map (Equiv.swap n1 n2)) o₁.root ∧
      (∀ q, (((o₁.setBalance n1 (o₁.node n2).balance).setBalance n2 (o₁.node n1).balance).node (Equiv.swap n1 n2 q)).balance =
        (o.node q).balance) ∧ o₁.value = o.value := by
    intro o₁ k1 k2 k3 k4 k5
    refine ⟨linked_setBalance.2 (linked_setBalance.2 (k1 ▸ hl.rename k4 k5)), fun q => ?_, k3⟩
    simp only [setBalance_balance, k2, Equiv.swap_apply_def]
    grind
  simp only [swapNodes]
  rcases hL.up h2 with ⟨hc, hp⟩ | ⟨n, hn, hp, hs⟩
  · rw [if_pos (.inl hp), if_neg h12]
    have hspec := swapLinked_spec hw hm1 hm2 hne h11 h12 hc
    refine hkey _ ?_ (fun q => by simp [swapLinked]) (by simp [swapLinked]) (fun q hq => (hspec q hq).1) fun q hq => (hspec q hq).2
    have hl2 : ∀ s, (o.node n2).link s ≠ some n1 := fun s he => h12 (hw.down n2 hm2 s n1 he)
    rw [← hroot]
    simp [swapLinked, hl2]
  · have h21 : (o.node n2).parent ≠ some n1 := by
      rw [hp]
      exact fun he => e1 (Option.some.inj he ▸ hn)
    have h22 : (o.node n2).parent ≠ some n2 := fun he => by
      obtain ⟨s, hs⟩ := hw.up n2 hm2 n2 he
      exact hl.not_self hnd hm2 hs
    have hpp : (o.node n1).parent ≠ (o.node n2).parent := by
      rw [hp]
      exact fun he => d3 n (.inl hn) (hpar n he)
    rw [if_neg (by simp [h21, h12])]
    refine hkey _ ?_ (fun q => by simp [swapApart, swapChildren, swapParents]) (by simp [swapApart, swapChildren, swapParents])
      (fun q hq => swapApart_parent hw hm1 hm2 hne hpp h11 h12 h21 h22 q hq)
      fun q hq s => swapApart_link hw hm1 hm2 hne hpp h11 h12 h21 h22 q hq s
    rw [← hroot]
    simp [swapApart, swapChildren, swapParents, hn2]

/-! ## Inserting and removing -/

/-- A subtree in the place of the node above it. -/
theorem replaceSubtree_spec (hf : o.LinkedFrames (some p) (o.node p).parent fs) (hx : o.Linked (some p) x ptr)
    (hnd : (plug fs x).toList.Nodup) (hp : p ∉ (plug fs x).toList) :
    (o.replaceSubtree p ptr).Linked none (plug fs x) (o.replaceSubtree p ptr).root ∧
      (∀ q, ((o.replaceSubtree p ptr).node q).balance = (o.node q).balance) ∧ (o.replaceSubtree p ptr).value = o.value := by
  obtain ⟨d1, d2, d3⟩ := nodup_plug.1 hnd
  have hpx : p ∉ x.toList ∧ p ∉ around fs := by
    rw [toList_plug, List.append_assoc] at hp
    simp only [List.mem_append, around] at hp ⊢
    tauto
  have hpar : ∀ q, (o.node p).parent = some q → q ∈ around fs := fun q hq => (hq ▸ hf).par_mem
  have hP : ∀ q, ((o.replaceSubtree p ptr).node q).parent = if ptr = some q then (o.node p).parent else (o.node q).parent := by
    intro q
    cases ptr with
    | none => simp [replaceSubtree]
    | some c => simp [replaceSubtree, eq_comm]
  have hL : ∀ q s, ((o.replaceSubtree p ptr).node q).link s =
      if (o.node p).parent = some q ∧ s = decide ((o.node q).link true = some p) then ptr else (o.node q).link s := by
    intro q s
    cases ptr <;> simp [replaceSubtree]
  have hr : (o.replaceSubtree p ptr).root = if (o.node p).parent = none then ptr else o.root := by
    cases ptr <;> simp [replaceSubtree]
  have hxp : ∀ q, ptr = some q → q ∈ x.toList := fun q hq => (hq ▸ hx).ptr_mem
  refine ⟨linked_plug.2 ⟨ptr, (o.node p).parent, ?_, ?_⟩, fun q => by cases ptr <;> simp [replaceSubtree],
    by cases ptr <;> simp [replaceSubtree]⟩
  · refine hx.reparent d1 (fun q hq => ?_) fun q hq => hP q
    funext s
    rw [hL, if_neg fun he => d3 q hq (hpar q he.1)]
  · refine hf.replace d2 hpx.2 hr (fun q hq => ?_) fun q hq s => hL q s
    rw [hP, if_neg fun he => d3 q (hxp q he) hq]

omit [DecidableEq P] in
/-- The end of the walk to one side. -/
theorem farthest_spec (side : Bool) (fuel : Nat) (h : o.Linked par t (some p)) (hfuel : t.height ≤ fuel) :
    ∃ n, farthest side fuel o p = some n ∧ (if side then t.toList.getLast? else t.toList.head?) = some n := by
  induction fuel generalizing t p par with
  | zero =>
    cases t with
    | nil => cases h
    | node l q r => simp [height] at hfuel
  | succ fuel ih =>
    obtain ⟨u, q, v, rfl⟩ := exists_bin (t := t) side (by
      cases t with
      | nil => cases h
      | node l q r => simp [height])
    obtain ⟨e, -, hu, -⟩ := linked_bin.1 h
    obtain rfl := Option.some.inj e
    rw [height_bin] at hfuel
    rw [farthest, toList_bin]
    cases hl : (o.node p).link side with
    | none =>
      rw [hl] at hu
      cases u with
      | nil => cases side <;> simp
      | node ul m ur => cases hu.1
    | some c =>
      rw [hl] at hu
      obtain ⟨n, h1, h2⟩ := ih hu (by omega)
      refine ⟨n, h1, ?_⟩
      cases side with
      | false =>
        simp only [Bool.false_eq_true, if_false] at h2 ⊢
        rw [List.head?_append, h2]
        rfl
      | true =>
        simp only [if_true] at h2 ⊢
        rw [List.getLast?_append, List.getLast?_cons, h2]
        rfl

/-- The nodes are the tree `t`, with its balance factors. -/
structure IsTree (o : BAVL P K) (t : BinTree P) : Prop where
  linked : o.Linked none t o.root
  weighed : Weighed (fun q => (o.node q).balance) t
  nodup : t.toList.Nodup

/-- Taking a value out of a list without repetitions. -/
theorem erase_middle {xs ys : List P} (h : p ∉ xs) : (xs ++ p :: ys).erase p = xs ++ ys := by
  rw [List.erase_append_right _ h, List.erase_cons_head]

/-- A list without repetitions, two neighbours of which change places. -/
theorem map_swap_erase {xs ys : List P} {n1 n2 : P} (h : (xs ++ n2 :: n1 :: ys).Nodup) :
    ((xs ++ n2 :: n1 :: ys).map (Equiv.swap n1 n2)).erase n1 = (xs ++ n2 :: n1 :: ys).erase n1 := by
  have hne : n2 ≠ n1 := by
    have := (List.nodup_append.1 h).2.1
    simp only [List.nodup_cons, List.mem_cons, not_or] at this
    exact this.1.1
  have hxs : n1 ∉ xs ∧ n2 ∉ xs :=
    ⟨fun hm => (List.nodup_append.1 h).2.2 n1 hm n1 (by simp) rfl, fun hm => (List.nodup_append.1 h).2.2 n2 hm n2 (by simp) rfl⟩
  have hys : n1 ∉ ys ∧ n2 ∉ ys := by
    have := (List.nodup_append.1 h).2.1
    simp only [List.nodup_cons, List.mem_cons, not_or] at this
    exact ⟨this.2.1, this.1.2⟩
  have hid : ∀ l : List P, n1 ∉ l → n2 ∉ l → l.map (Equiv.swap n1 n2) = l := by
    intro l h1 h2
    conv_rhs => rw [← List.map_id l]
    refine List.map_congr_left fun q hq => Equiv.swap_apply_of_ne_of_ne ?_ ?_
    · rintro rfl; exact h1 hq
    · rintro rfl; exact h2 hq
  have hn2 : n1 ∉ xs ++ [n2] := by simp [hxs.1, Ne.symm hne]
  rw [List.map_append, List.map_cons, List.map_cons, hid xs hxs.1 hxs.2, hid ys hys.1 hys.2, Equiv.swap_apply_left,
    Equiv.swap_apply_right, erase_middle hxs.1]
  have hsplit : xs ++ n2 :: n1 :: ys = (xs ++ [n2]) ++ n1 :: ys := by simp
  rw [hsplit, erase_middle hn2]
  simp

variable [Fintype P]

omit [DecidableEq P] in
/-- A walk along the tree is no longer than there are addresses. -/
theorem IsTree.height_le (h : IsTree o t) : t.height ≤ Fintype.card P := Nat.le_trans t.height_le_length h.nodup.length_le_card

/-- A node with at most one child is taken out. -/
theorem detach_spec (h : IsTree o (plug fs (.node l p r))) (hlr : l = .nil ∨ r = .nil) :
    ∃ o' t', o.detach p = some o' ∧ IsTree o' t' ∧ t'.toList = (plug fs (.node l p r)).toList.erase p ∧ o'.value = o.value := by
  obtain ⟨hL, hR, hf⟩ := h.linked.children
  obtain ⟨d1, d2, d3⟩ := nodup_plug.1 h.nodup
  obtain ⟨e1, e2, e3, e4, e5⟩ := nodup_node.1 d1
  obtain ⟨⟨w1, w2, w3, w4, w5⟩, wf⟩ := weighed_plug.1 h.weighed
  -- What is left of the two subtrees is one of them.
  obtain ⟨x, hx, hxw, hxl, hxh, hnot⟩ : ∃ x, o.Linked (some p) x (((o.node p).link false).or ((o.node p).link true)) ∧
      Weighed (fun q => (o.node q).balance) x ∧ x.toList = l.toList ++ r.toList ∧ (BinTree.node l p r).height = x.height + 1 ∧
      (((o.node p).link false).isSome && ((o.node p).link true).isSome) = false := by
    rcases hlr with rfl | rfl
    · have hn : (o.node p).link false = none := hL
      exact ⟨r, by rw [hn]; exact hR, w5, rfl, by simp [height], by rw [hn]; rfl⟩
    · have hn : (o.node p).link true = none := hR
      exact ⟨l, by rw [hn, Option.or_none]; exact hL, w4, by simp, by simp [height], by rw [hn]; simp⟩
  have hmem : p ∉ around fs := d3 p (by simp)
  have hbefore : p ∉ before fs ++ l.toList := by
    simp only [around, List.mem_append, not_or] at hmem
    simp [e1, hmem.1]
  have hsplit : (plug fs (.node l p r)).toList = (before fs ++ l.toList) ++ p :: (r.toList ++ after fs) := by
    simp [toList_plug]
  have hlist : (plug fs x).toList = (plug fs (.node l p r)).toList.erase p := by
    rw [hsplit, erase_middle hbefore, toList_plug, hxl]
    simp
  have hndx : (plug fs x).toList.Nodup := hlist ▸ h.nodup.erase p
  have hpx : p ∉ (plug fs x).toList := hlist ▸ fun hm => (h.nodup.mem_erase_iff.1 hm).1 rfl
  obtain ⟨s1, s2, s3⟩ := replaceSubtree_spec hf hx hndx hpx
  have hw' : Weighed (fun q => ((o.replaceSubtree p (((o.node p).link false).or ((o.node p).link true))).node q).balance) x :=
    hxw.congr fun q _ => s2 q
  rw [detach, hnot]
  simp only [Bool.false_eq_true, if_false]
  cases fs with
  | nil =>
    rw [hf.1]
    exact ⟨_, x, rfl, ⟨s1, hw', hndx⟩, hlist, s3⟩
  | cons f fs =>
    rw [hf.1]
    have hheight := length_le_plug (f :: fs) x
    have hcard : (plug (f :: fs) x).height ≤ Fintype.card P := Nat.le_trans (height_le_length _) hndx.length_le_card
    rw [List.length_cons] at hheight
    obtain ⟨o', t', r1, r2, r3, r4, r5⟩ := rebalance_spec (Fintype.card P) (-1) (by omega) s1 hndx hw'
      (wf.congr fun q _ => s2 q) (by rw [hxh]; omega) ⟨by omega, by omega⟩
    refine ⟨o', t', ?_, ⟨r2, r3, r4 ▸ hndx⟩, r4.trans hlist, r5.trans s3⟩
    rw [← r1]
    simp only [hf.side_eq fun hm => hmem (mem_around_cons.2 (.inr (.inl hm)))]

/-- `BAVL_Remove` of a node of the tree: the others stay, in their order. -/
theorem remove_spec (h : IsTree o t) (hp : p ∈ t.toList) :
    ∃ o' t', o.remove p = some o' ∧ IsTree o' t' ∧ t'.toList = t.toList.erase p ∧ o'.value = o.value := by
  obtain ⟨fs, l, r, rfl⟩ := exists_plug_of_mem hp
  obtain ⟨hL, hR, -⟩ := h.linked.children
  by_cases hlr : l = .nil ∨ r = .nil
  · have hrem : o.remove p = o.detach p := by
      rw [remove]
      rcases hlr with rfl | rfl
      · rw [show (o.node p).link false = none from hL]
      · rw [show (o.node p).link true = none from hR]
        cases (o.node p).link false <;> rfl
    rw [hrem]
    exact detach_spec h hlr
  · rw [not_or] at hlr
    obtain ⟨gs, l2, n2, rfl, hgs⟩ := exists_plug_last hlr.1
    obtain ⟨lp, hlp⟩ := hL.exists_ptr hlr.1
    obtain ⟨rp, hrp⟩ := hR.exists_ptr hlr.2
    have hheight := length_le_plug fs (.node (plug gs (.node l2 n2 .nil)) p r)
    have hcard := h.height_le
    simp only [height] at hheight
    obtain ⟨n, hn1, hn2⟩ := farthest_spec true (Fintype.card P) (hlp ▸ hL) (by omega)
    have hlast : n = n2 := by
      simp only [if_true, toList_plug, after_of_right hgs, List.append_nil, toList_node] at hn2
      rw [List.getLast?_append, List.getLast?_append] at hn2
      simpa using hn2.symm
    subst hlast
    have hrem : o.remove p = (o.swapNodes p n).detach p := by
      rw [remove, hlp, hrp]
      simp only [hn1, Option.bind_eq_bind, Option.bind_some]
    have hn : n ∈ (plug gs (.node l2 n .nil)).toList := by simp [toList_plug]
    obtain ⟨s1, s2, s3⟩ := swapNodes_spec h.linked h.nodup hn
    have hmap : (plug fs (.node (plug gs (.node l2 n .nil)) p r)).map (Equiv.swap p n) =
        plug (mapFrames (Equiv.swap p n) gs ++ ⟨false, n, r.map (Equiv.swap p n)⟩ :: mapFrames (Equiv.swap p n) fs)
          (.node (l2.map (Equiv.swap p n)) p .nil) := by
      rw [plug_append, map_plug, plug, BinTree.map, map_plug, BinTree.map, Equiv.swap_apply_left, Equiv.swap_apply_right]
      rfl
    have htree : IsTree (o.swapNodes p n) ((plug fs (.node (plug gs (.node l2 n .nil)) p r)).map (Equiv.swap p n)) :=
      ⟨s1, h.weighed.rename s2, by rw [toList_map]; exact h.nodup.map (Equiv.swap p n).injective⟩
    rw [hmap] at htree
    obtain ⟨o', t', r1, r2, r3, r4⟩ := detach_spec htree (.inr rfl)
    refine ⟨o', t', hrem.trans r1, r2, ?_, r4.trans s3⟩
    have hlist : (plug fs (.node (plug gs (.node l2 n .nil)) p r)).toList =
        (before fs ++ (before gs ++ l2.toList)) ++ n :: p :: (r.toList ++ after fs) := by
      simp [toList_plug, after_of_right hgs]
    rw [r3, ← hmap, toList_map, hlist, map_swap_erase (hlist ▸ h.nodup)]

end BAVL

end PsiphonAndroid
