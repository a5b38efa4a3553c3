import Mathlib.Data.Int.Basic
import Mathlib.Data.List.Basic
import Mathlib.Logic.Function.Basic

/-!
# Sliding windows

The last values of a sequence: `window n f q` are the values of `f` at the `n` numbers up to `q`, the newest last. A window is moved
on by dropping its first value and appending the next one (`window_slide`), and the newest value is changed by changing the last
entry (`window_modify`).
-/

namespace Lib

variable {α : Type*}

/-- The values of `f` at the `n` numbers up to `q`, in order. -/
def window (n : Nat) (f : Int → α) (q : Int) : List α := ((List.range n).map fun i : Nat => f (q - i)).reverse

@[simp] theorem length_window (n : Nat) (f : Int → α) (q : Int) : (window n f q).length = n := by
  simp [window]

/-- The `i`-th value from the end. -/
theorem getElem?_reverse_window {n i : Nat} (h : i < n) (f : Int → α) (q : Int) :
    (window n f q).reverse[i]? = some (f (q - i)) := by
  simp [window, h]

/-- The first value is the oldest. -/
theorem window_succ_cons (n : Nat) (f : Int → α) (q : Int) : window (n + 1) f q = f (q - n) :: window n f q := by
  simp [window, List.range_succ]

/-- The last value is the newest. -/
theorem window_succ_snoc (n : Nat) (f : Int → α) (q : Int) : window (n + 1) f q = window n f (q - 1) ++ [f q] := by
  unfold window
  rw [List.range_succ_eq_map, List.map_cons, List.map_map, List.reverse_cons]
  congr 2
  · refine List.map_congr_left fun i _ => ?_
    simp only [Function.comp_apply, Nat.succ_eq_add_one]
    congr 1
    omega
  · simp

/-- A window depends on the values in it. -/
theorem window_congr {n : Nat} {f g : Int → α} {q r : Int} (h : ∀ i : Nat, i < n → f (q - i) = g (r - i)) :
    window n f q = window n g r := by
  unfold window
  congr 1
  refine List.map_congr_left fun i hi => ?_
  exact h i (List.mem_range.mp hi)

/-- The window moves on by one. -/
theorem window_slide (n : Nat) (f : Int → α) (q : Int) :
    (window (n + 1) f q).tail ++ [f (q + 1)] = window (n + 1) f (q + 1) := by
  rw [window_succ_cons, List.tail_cons, window_succ_snoc, Int.add_sub_cancel]

/-- The newest values. -/
theorem mem_drop_window {n k j : Nat} (h : j < n - k) (f : Int → α) (q : Int) : f (q - j) ∈ (window n f q).drop k := by
  unfold window
  rw [List.drop_reverse, List.mem_reverse, ← List.map_take, List.mem_map]
  refine ⟨j, ?_, rfl⟩
  simp only [List.length_map, List.length_range, List.take_range, List.mem_range]
  omega

/-- The newest value is changed. -/
theorem window_modify (n : Nat) (f : Int → α) (q : Int) (g : α → α) :
    (window (n + 1) f q).modify n g = window (n + 1) (Function.update f q (g (f q))) q := by
  have hold : window n (Function.update f q (g (f q))) (q - 1) = window n f (q - 1) := by
    refine window_congr fun i _ => ?_
    rw [Function.update_of_ne (by omega)]
  rw [window_succ_snoc, window_succ_snoc n (Function.update f q (g (f q))), hold, Function.update_self]
  rw [List.modify_eq_take_drop, List.take_left' (length_window ..), List.drop_left' (length_window ..)]
  rfl

end Lib
