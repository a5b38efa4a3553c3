import Mathlib.Algebra.Order.Ring.Int
import Mathlib.Tactic.Ring
import Mathlib.Data.List.Basic

/-!
# Memory as bytes at integer addresses

A block of memory is a function from offsets to bytes, read and written in runs. `load32` and `store32` are a signed integer of 32 bits,
with the low byte first. What is read depends on the bytes it is read from alone.
-/

namespace Lib

/-- The bytes of a block of memory. -/
def Memory : Type := Int → UInt8

namespace Memory

/-- The bytes from an address on. -/
def read (m : Memory) (a : Int) (n : Nat) : List UInt8 := (List.range n).map fun i : Nat => m (a + (i : Int))

/-- The memory with bytes written at an address. -/
def write (m : Memory) (a : Int) (bs : List UInt8) : Memory :=
  fun x => if a ≤ x ∧ x < a + bs.length then bs.getD (x - a).toNat 0 else m x

/-- The signed integer at an address. -/
def load32 (m : Memory) (a : Int) : Int :=
  Int.bmod ((m a).toNat + 2 ^ 8 * (m (a + 1)).toNat + 2 ^ 16 * (m (a + 2)).toNat + 2 ^ 24 * (m (a + 3)).toNat) (2 ^ 32)

/-- A byte of an integer. -/
def byteOf (v : Int) (i : Nat) : UInt8 := UInt8.ofNat (v / 2 ^ (8 * i) % 2 ^ 8).toNat

/-- The memory with a signed integer stored at an address. -/
def store32 (m : Memory) (a v : Int) : Memory := m.write a [byteOf v 0, byteOf v 1, byteOf v 2, byteOf v 3]

variable {m m' : Memory} {a x : Int} {n : Nat}

@[simp] theorem length_read (m : Memory) (a : Int) (n : Nat) : (m.read a n).length = n := by
  simp [read]

theorem write_of_lt {bs : List UInt8} (h : x < a) : m.write a bs x = m x := if_neg (by omega)

theorem write_of_ge {bs : List UInt8} (h : a + bs.length ≤ x) : m.write a bs x = m x := if_neg (by omega)

/-- What is read depends on the bytes there. -/
theorem read_congr (h : ∀ x, a ≤ x → x < a + n → m' x = m x) : m'.read a n = m.read a n := by
  refine List.map_congr_left fun i hi => ?_
  have hi := List.mem_range.mp hi
  exact h _ (by omega) (by omega)

/-- An integer depends on its four bytes. -/
theorem load32_congr (h : ∀ x, a ≤ x → x < a + 4 → m' x = m x) : m'.load32 a = m.load32 a := by
  unfold load32
  rw [h a (by omega) (by omega), h (a + 1) (by omega) (by omega), h (a + 2) (by omega) (by omega), h (a + 3) (by omega) (by omega)]

theorem byteOf_toNat (v : Int) (i : Nat) : ((byteOf v i).toNat : Int) = v / 2 ^ (8 * i) % 2 ^ 8 := by
  unfold byteOf
  have hnonneg : 0 ≤ v / 2 ^ (8 * i) % 2 ^ 8 := Int.emod_nonneg _ (by decide)
  have hlt : v / 2 ^ (8 * i) % 2 ^ 8 < 2 ^ 8 := Int.emod_lt_of_pos _ (by decide)
  rw [UInt8.toNat_ofNat', Nat.mod_eq_of_lt (by omega)]
  omega

/-- What is stored is loaded. -/
theorem load32_store32 {v : Int} (hlow : -2 ^ 31 ≤ v) (hhigh : v < 2 ^ 31) : (m.store32 a v).load32 a = v := by
  have hbyte : ∀ i : Nat, i < 4 → m.store32 a v (a + i) = byteOf v i := by
    intro i hi
    unfold store32 write
    rw [if_pos (by simp only [List.length_cons, List.length_nil]; omega), add_sub_cancel_left, Int.toNat_natCast]
    match i, hi with
    | 0, _ => rfl
    | 1, _ => rfl
    | 2, _ => rfl
    | 3, _ => rfl
  have h0 := hbyte 0 (by decide)
  have h1 := hbyte 1 (by decide)
  have h2 := hbyte 2 (by decide)
  have h3 := hbyte 3 (by decide)
  rw [Nat.cast_zero, Int.add_zero] at h0
  rw [Nat.cast_one] at h1
  rw [Nat.cast_ofNat] at h2 h3
  unfold load32
  rw [h0, h1, h2, h3, byteOf_toNat, byteOf_toNat, byteOf_toNat, byteOf_toNat]
  have hsum : v / 2 ^ (8 * 0) % 2 ^ 8 + 2 ^ 8 * (v / 2 ^ (8 * 1) % 2 ^ 8) + 2 ^ 16 * (v / 2 ^ (8 * 2) % 2 ^ 8) +
      2 ^ 24 * (v / 2 ^ (8 * 3) % 2 ^ 8) = v % 2 ^ 32 := by omega
  rw [hsum]
  exact (Int.emod_bmod (x := v) (n := 2 ^ 32)).trans (Int.bmod_eq_of_le (by omega) (by omega))

/-- A store leaves the other bytes. -/
theorem store32_of_ne {v : Int} (h : x < a ∨ a + 4 ≤ x) : m.store32 a v x = m x := by
  rcases h with h | h
  · exact write_of_lt h
  · exact write_of_ge h

end Memory

end Lib
