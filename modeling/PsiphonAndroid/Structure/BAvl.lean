import Mathlib
import PsiphonAndroid.Lib.BinTree
import PsiphonAndroid.Lib.Transition

/-!
# The AVL tree

`BAVL.h`, on nodes that know their parent. `P` are the addresses of nodes and `node` is the memory; `link[0]` and `link[1]` are
`link false` and `link true`. The value of a node is what stands at `offset` from it. A `NULL` that is followed and an assertion
that fails are `none`. A loop goes along nodes, so it takes at most as many steps as there are addresses; one that took more would
never end, and is `none` too.
-/

namespace PsiphonAndroid

/-- `BAVLNode`. -/
structure BAVLNode (P : Type) where
  parent : Option P
  link : Bool → Option P
  balance : Int

/-- `BAVL`, the nodes and their values. -/
structure BAVL (P K : Type) where
  root : Option P
  node : P → BAVLNode P
  value : P → K

namespace BAVL

variable {P K : Type} [DecidableEq P]

/-- `n->parent = q`. -/
def setParent (o : BAVL P K) (n : P) (q : Option P) : BAVL P K :=
  { o with node := Function.update o.node n { o.node n with parent := q } }

/-- `n->link[side] = q`. -/
def setLink (o : BAVL P K) (n : P) (side : Bool) (q : Option P) : BAVL P K :=
  { o with node := Function.update o.node n { o.node n with link := Function.update (o.node n).link side q } }

/-- `n->balance = b`. -/
def setBalance (o : BAVL P K) (n : P) (b : Int) : BAVL P K :=
  { o with node := Function.update o.node n { o.node n with balance := b } }

/-- `c->parent = q`, where there is a `c`. -/
def adopt (o : BAVL P K) (c : Option P) (q : P) : BAVL P K :=
  match c with
  | some c => o.setParent c (some q)
  | none => o

/-- A node without children, below `parent`. -/
def initLeaf (o : BAVL P K) (n : P) (parent : Option P) : BAVL P K :=
  { o with node := Function.update o.node n ⟨parent, fun _ => none, 0⟩ }

/-- What hung at `old` is replaced by `new`, in `parent` or at the root. -/
def replaceChild (o : BAVL P K) (parent : Option P) (old : P) (new : Option P) : BAVL P K :=
  match parent with
  | some q => o.setLink q (decide ((o.node q).link true = some old)) new
  | none => { o with root := new }

/-- `_BAVL_rotate`. -/
def rotate (o : BAVL P K) (r : P) (dir : Bool) : Option (BAVL P K) := do
  let nr ← (o.node r).link (!dir)
  let o := o.setLink r (!dir) ((o.node nr).link dir)
  let o := o.adopt ((o.node r).link (!dir)) r
  let o := o.setLink nr dir (some r)
  let o := o.setParent nr (o.node r).parent
  let o := o.replaceChild (o.node nr).parent r (some nr)
  some (o.setParent r (some nr))

/-- `BAVL_OPTNEG`. -/
def optneg (a : Int) (neg : Bool) : Int := if neg then -a else a

/-- The transformations of `_BAVL_rebalance` where the balance factor is wrong: the tree, the node now on top and what is left of
the change in height. -/
def transform (o : BAVL P K) (node : P) (delta : Int) : Option (BAVL P K × P × Int) :=
  if (o.node node).balance = 2 ∨ (o.node node).balance = -2 then do
    let bside := decide ((o.node node).balance = 2)
    let bsidef : Int := if bside then 1 else -1
    let child ← (o.node node).link bside
    let balance := (o.node child).balance * bsidef
    if balance = 1 then
      let o ← o.rotate node (!bside)
      some ((o.setBalance node 0).setBalance child 0, child, delta - 1)
    else if balance = 0 then
      let o ← o.rotate node (!bside)
      some ((o.setBalance node (1 * bsidef)).setBalance child (-1 * bsidef), child, delta)
    else if balance = -1 then
      let gchild ← (o.node child).link (!bside)
      let o ← o.rotate child bside
      let o ← o.rotate node (!bside)
      let o := o.setBalance node (-max 0 ((o.node gchild).balance * bsidef) * bsidef)
      let o := o.setBalance child (max 0 (-(o.node gchild).balance * bsidef) * bsidef)
      some (o.setBalance gchild 0, gchild, delta - 1)
    else none
  else
    some (o, node, delta)

/-- `_BAVL_rebalance`: the subtree of `node` on `side` has changed its height by `deltac`. -/
def rebalance : Nat → BAVL P K → P → Bool → Int → Option (BAVL P K)
  | 0, _, _, _, _ => none
  | fuel + 1, o, node, side, deltac =>
    let balance := (o.node node).balance
    if -1 ≤ deltac ∧ deltac ≤ 1 ∧ -1 ≤ balance ∧ balance ≤ 1 then
      if deltac = 0 then some o
      else
        let delta := max deltac (optneg balance side) - max 0 (optneg balance side)
        if -1 ≤ delta ∧ delta ≤ 1 then do
          let (o, node, delta) ← (o.setBalance node (balance - optneg deltac side)).transform node delta
          if -1 ≤ delta ∧ delta ≤ 1 then
            match (o.node node).parent with
            | some q => rebalance fuel o q (decide ((o.node q).link true = some node)) delta
            | none => some o
          else none
        else none
    else none

/-- `while (n->link[side]) n = n->link[side]`: `_BAVL_subtree_max` and the walks to the first and the last node. -/
def farthest (side : Bool) : Nat → BAVL P K → P → Option P
  | 0, _, _ => none
  | fuel + 1, o, n =>
    match (o.node n).link side with
    | some c => farthest side fuel o c
    | none => some n

/-- `_BAVL_replace_subtree`. -/
def replaceSubtree (o : BAVL P K) (dest : P) (n : Option P) : BAVL P K :=
  let o := o.replaceChild (o.node dest).parent dest n
  match n with
  | some c => o.setParent c (o.node dest).parent
  | none => o

/-- `_BAVL_swap_nodes` where `n2` is a child of `n1`. -/
def swapLinked (o : BAVL P K) (n1 n2 : P) : BAVL P K :=
  let side := decide ((o.node n1).link true = some n2)
  let c := (o.node n1).link (!side)
  let o := o.setLink n1 false ((o.node n2).link false)
  let o := o.adopt ((o.node n1).link false) n1
  let o := o.setLink n1 true ((o.node n2).link true)
  let o := o.adopt ((o.node n1).link true) n1
  let o := o.setParent n2 (o.node n1).parent
  let o := o.replaceChild (o.node n2).parent n1 (some n2)
  let o := o.setLink n2 side (some n1)
  let o := o.setParent n1 (some n2)
  let o := o.setLink n2 (!side) c
  o.adopt c n2

/-- The parents are swapped. -/
def swapParents (o : BAVL P K) (n1 n2 : P) : BAVL P K :=
  let temp := (o.node n1).parent
  let o := o.setParent n1 (o.node n2).parent
  let o := o.replaceChild (o.node n1).parent n2 (some n1)
  let o := o.setParent n2 temp
  o.replaceChild (o.node n2).parent n1 (some n2)

/-- The left or the right children are swapped. -/
def swapChildren (o : BAVL P K) (n1 n2 : P) (side : Bool) : BAVL P K :=
  let temp := (o.node n1).link side
  let o := o.setLink n1 side ((o.node n2).link side)
  let o := o.adopt ((o.node n1).link side) n1
  let o := o.setLink n2 side temp
  o.adopt temp n2

/-- `_BAVL_swap_nodes` where the nodes are not directly connected. -/
def swapApart (o : BAVL P K) (n1 n2 : P) : BAVL P K :=
  ((o.swapParents n1 n2).swapChildren n1 n2 false).swapChildren n1 n2 true

/-- `_BAVL_swap_nodes`. -/
def swapNodes (o : BAVL P K) (n1 n2 : P) : BAVL P K :=
  let o := if (o.node n2).parent = some n1 ∨ (o.node n1).parent = some n2 then
      if (o.node n1).parent = some n2 then o.swapLinked n2 n1 else o.swapLinked n1 n2
    else o.swapApart n1 n2
  let b := (o.node n1).balance
  (o.setBalance n1 (o.node n2).balance).setBalance n2 b

/-- The walk down of `BAVL_Insert`, `BAVL_Lookup` and `BAVL_LookupExact`: the node it ends at, and the side on which there is none,
or `none` for a node that compares equal. -/
def descend (cmp : K → K → Int) (val : K) : Nat → BAVL P K → P → Option (P × Option Bool)
  | 0, _, _ => none
  | fuel + 1, o, c =>
    let comp := cmp val (o.value c)
    if comp = 0 then some (c, none)
    else
      match (o.node c).link (decide (comp = 1)) with
      | some c' => descend cmp val fuel o c'
      | none => some (c, some (decide (comp = 1)))

variable [Fintype P]

/-- `BAVL_Init`. -/
def init (o : BAVL P K) : BAVL P K := { o with root := none }

/-- `BAVL_Insert`: the tree, `*ref` and the result. -/
def insert (cmp : K → K → Int) (o : BAVL P K) (node : P) : Option (BAVL P K × Option P × Bool) :=
  match o.root with
  | none => some ({ o.initLeaf node none with root := some node }, none, true)
  | some root => do
    let (c, leaf) ← o.descend cmp (o.value node) (Fintype.card P) root
    match leaf with
    | none => some (o, some c, false)
    | some side =>
      let o := (o.setLink c side (some node)).initLeaf node (some c)
      let o ← o.rebalance (Fintype.card P) c side 1
      some (o, some c, true)

/-- `BAVL_Remove`, from where the node has at most one child. -/
def detach (o : BAVL P K) (node : P) : Option (BAVL P K) :=
  if ((o.node node).link false).isSome && ((o.node node).link true).isSome then none
  else
    let child := ((o.node node).link false).or ((o.node node).link true)
    match (o.node node).parent with
    | some parent =>
      (o.replaceSubtree node child).rebalance (Fintype.card P) parent (decide ((o.node parent).link true = some node)) (-1)
    | none => some (o.replaceSubtree node child)

/-- `BAVL_Remove`: a node with two subtrees changes places with the largest node of the left one. -/
def remove (o : BAVL P K) (node : P) : Option (BAVL P K) :=
  match (o.node node).link false, (o.node node).link true with
  | some l, some _ => do
    let n ← o.farthest true (Fintype.card P) l
    (o.swapNodes node n).detach node
  | _, _ => o.detach node

/-- `BAVL_Lookup`; the outer `none` is a walk that does not end. -/
def lookup (cmp : K → K → Int) (o : BAVL P K) (val : K) : Option (Option P) :=
  match o.root with
  | none => some none
  | some root => (o.descend cmp val (Fintype.card P) root).map fun r => some r.1

/-- `BAVL_LookupExact`. -/
def lookupExact (cmp : K → K → Int) (o : BAVL P K) (val : K) : Option (Option P) :=
  match o.root with
  | none => some none
  | some root => (o.descend cmp val (Fintype.card P) root).map fun r => if r.2 = none then some r.1 else none

/-- `BAVL_GetFirst` and `BAVL_GetLast`. -/
def getEnd (side : Bool) (o : BAVL P K) : Option (Option P) :=
  match o.root with
  | none => some none
  | some root => (o.farthest side (Fintype.card P) root).map some

/-- `while (n->parent && n == n->parent->link[side]) n = n->parent; n = n->parent`. -/
def climb (side : Bool) : Nat → BAVL P K → P → Option (Option P)
  | 0, _, _ => none
  | fuel + 1, o, n =>
    match (o.node n).parent with
    | some q => if (o.node q).link side = some n then climb side fuel o q else some (some q)
    | none => some none

/-- `BAVL_GetNext` and `BAVL_GetPrev`: the node that is next towards `side`. -/
def neighbour (side : Bool) (o : BAVL P K) (n : P) : Option (Option P) :=
  match (o.node n).link side with
  | some c => (o.farthest (!side) (Fintype.card P) c).map some
  | none => o.climb side (Fintype.card P) n

/-- `BAVL_GetFirst`. -/
def getFirst (o : BAVL P K) : Option (Option P) := o.getEnd false

/-- `BAVL_GetLast`. -/
def getLast (o : BAVL P K) : Option (Option P) := o.getEnd true

/-- `BAVL_GetNext`. -/
def getNext (o : BAVL P K) (n : P) : Option (Option P) := o.neighbour true n

/-- `BAVL_GetPrev`. -/
def getPrev (o : BAVL P K) (n : P) : Option (Option P) := o.neighbour false n

/-- One child of `_BAVL_assert_recurser`: its parent link and its place in the order, then its height. -/
def assertChild (cmp : K → K → Int) (o : BAVL P K) (n : P) (comp : Int) (recurser : P → Option Int) : Option P → Option Int
  | none => some 0
  | some c => if (o.node c).parent = some n ∧ cmp (o.value c) (o.value n) = comp then recurser c else none

/-- `_BAVL_assert_recurser`: the height. -/
def assertRecurser (cmp : K → K → Int) : Nat → BAVL P K → P → Option Int
  | 0, _, _ => none
  | fuel + 1, o, n => do
    let heightLeft ← o.assertChild cmp n (-1) (assertRecurser cmp fuel o) ((o.node n).link false)
    let heightRight ← o.assertChild cmp n 1 (assertRecurser cmp fuel o) ((o.node n).link true)
    if -1 ≤ (o.node n).balance ∧ (o.node n).balance ≤ 1 ∧ (o.node n).balance = heightRight - heightLeft then
      some (max heightLeft heightRight + 1)
    else none

/-- `BAVL_Verify`: no assertion fails. -/
def verify (cmp : K → K → Int) (o : BAVL P K) : Bool :=
  match o.root with
  | none => true
  | some root => (o.node root).parent = none ∧ (o.assertRecurser cmp (Fintype.card P) root).isSome

end BAVL

end PsiphonAndroid
