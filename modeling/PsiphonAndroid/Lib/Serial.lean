import Mathlib

/-!
# Serial numbers

A counter that only grows, read off modulo `2 ^ w`, and the comparison of two such readings by the sign of their difference.
`serialAt base x` is the reading at position `x`. The comparison is that of the positions as long as these are less than half
the range apart; nothing here depends on how often the counter has gone round.
-/

namespace Lib

variable {w : Nat}

/-- The reading of a counter that started at `base`, at position `x`. -/
def serialAt (base : BitVec w) (x : Int) : BitVec w := base + BitVec.ofInt w x

/-- The signed difference of two readings is negative. -/
def serialLt (a b : BitVec w) : Bool := decide ((a - b).toInt < 0)

/-- The signed difference of two readings is not positive. -/
def serialLe (a b : BitVec w) : Bool := decide ((a - b).toInt ≤ 0)

/-- The signed difference of two readings is positive. -/
def serialGt (a b : BitVec w) : Bool := decide (0 < (a - b).toInt)

/-- The signed difference of two readings is not negative. -/
def serialGe (a b : BitVec w) : Bool := decide (0 ≤ (a - b).toInt)

/-- The first reading is between the two others. -/
def serialBetween (a b c : BitVec w) : Bool := serialGe a b && serialLe a c

/-- Two positions are less than half the range apart. -/
def Near (w : Nat) (x y : Int) : Prop := x - y < 2 ^ (w - 1) ∧ y - x < 2 ^ (w - 1)

theorem serialAt_add (base : BitVec w) (x y : Int) : serialAt base x + BitVec.ofInt w y = serialAt base (x + y) := by
  simp only [serialAt, BitVec.ofInt_add, BitVec.add_assoc]

theorem serialAt_add_nat (base : BitVec w) (x : Int) (n : Nat) :
    serialAt base x + BitVec.ofNat w n = serialAt base (x + n) := by
  rw [← serialAt_add, BitVec.ofInt_natCast]

theorem serialAt_sub_nat (base : BitVec w) (x : Int) (n : Nat) :
    serialAt base x - BitVec.ofNat w n = serialAt base (x - n) := by
  rw [Int.sub_eq_add_neg, ← serialAt_add, BitVec.ofInt_neg, BitVec.ofInt_natCast, BitVec.sub_eq_add_neg]

/-- The difference of two readings depends only on the distance of their positions. -/
theorem serialAt_sub (base : BitVec w) (x y : Int) : serialAt base x - serialAt base y = BitVec.ofInt w (x - y) := by
  rw [Int.sub_eq_add_neg, BitVec.ofInt_add, BitVec.ofInt_neg]
  simp only [serialAt, BitVec.sub_eq_add_neg, BitVec.neg_add]
  ring

/-- Of two positions near each other, the signed difference of the readings is the distance. -/
theorem toInt_serialAt_sub (hw : 0 < w) (base : BitVec w) {x y : Int} (h : Near w x y) :
    (serialAt base x - serialAt base y).toInt = x - y := by
  rw [serialAt_sub]
  have h1 := h.1
  have h2 := h.2
  exact BitVec.toInt_ofInt_eq_self hw (by omega) (by omega)

/-- The distance, read without a sign. -/
theorem toNat_serialAt_sub (base : BitVec w) {x y : Int} (h : x ≤ y) (hw : y - x < 2 ^ w) :
    (serialAt base y - serialAt base x).toNat = (y - x).toNat := by
  rw [serialAt_sub, BitVec.toNat_ofInt, Int.emod_eq_of_lt (by omega) (by push_cast; exact hw)]

/-- Positions near each other have one reading only when they are one position. -/
theorem serialAt_eq_iff (hw : 0 < w) (base : BitVec w) {x y : Int} (h : Near w x y) :
    serialAt base x = serialAt base y ↔ x = y := by
  constructor
  · intro e
    have := toInt_serialAt_sub hw base h
    rw [e, BitVec.sub_self, BitVec.toInt_zero] at this
    omega
  · rintro rfl
    rfl

theorem serialLt_iff (hw : 0 < w) (base : BitVec w) {x y : Int} (h : Near w x y) :
    serialLt (serialAt base x) (serialAt base y) = true ↔ x < y := by
  rw [serialLt, decide_eq_true_eq, toInt_serialAt_sub hw base h]
  omega

theorem serialLe_iff (hw : 0 < w) (base : BitVec w) {x y : Int} (h : Near w x y) :
    serialLe (serialAt base x) (serialAt base y) = true ↔ x ≤ y := by
  rw [serialLe, decide_eq_true_eq, toInt_serialAt_sub hw base h]
  omega

theorem serialGt_iff (hw : 0 < w) (base : BitVec w) {x y : Int} (h : Near w x y) :
    serialGt (serialAt base x) (serialAt base y) = true ↔ y < x := by
  rw [serialGt, decide_eq_true_eq, toInt_serialAt_sub hw base h]
  omega

theorem serialGe_iff (hw : 0 < w) (base : BitVec w) {x y : Int} (h : Near w x y) :
    serialGe (serialAt base x) (serialAt base y) = true ↔ y ≤ x := by
  rw [serialGe, decide_eq_true_eq, toInt_serialAt_sub hw base h]
  omega

theorem serialBetween_iff (hw : 0 < w) (base : BitVec w) {x y z : Int} (h : Near w x y) (h' : Near w x z) :
    serialBetween (serialAt base x) (serialAt base y) (serialAt base z) = true ↔ y ≤ x ∧ x ≤ z := by
  rw [serialBetween, Bool.and_eq_true, serialGe_iff hw base h, serialLe_iff hw base h']

end Lib
