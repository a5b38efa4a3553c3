import PsiphonAndroid.Lib.Bytes

/-!
# One's-complement sums

The checksum of the Internet protocols: the one's complement of the one's-complement sum of the 16-bit words of a message.
`ocSum` is that sum in its own terms, word by word with the carry added back at the low end (`ocAdd`). Programs compute it
another way: they add the words in a wide accumulator and fold the carries back once, at the end (`foldCarries`). The two
agree as long as the accumulator does not overflow (`foldCarries_sum`): both are below `2^16`, both are the plain sum modulo
`2^16 - 1`, and both are zero only when every word is.
-/

namespace Lib

/-- One's-complement addition of 16-bit words: the carry out of the high end is added back at the low end. -/
def ocAdd (a b : Nat) : Nat := if a + b < 65536 then a + b else a + b - 65535

/-- The one's-complement sum of a list of 16-bit words. -/
def ocSum (ws : List Nat) : Nat := ws.foldl ocAdd 0

/-- The loop `while (t >> 16) t = (t & 0xFFFF) + (t >> 16)`, for at most `fuel` turns. -/
def foldCarries : Nat → Nat → Nat
  | 0, t => t
  | fuel + 1, t => if t / 65536 = 0 then t else foldCarries fuel (t % 65536 + t / 65536)

/-- The 16-bit big-endian words of a message; a last odd byte is the high byte of a word whose low byte is zero. -/
def words : Bytes → List Nat
  | [] => []
  | [b] => [b.toNat * 256]
  | b :: c :: rest => (b.toNat * 256 + c.toNat) :: words rest

/-! ## The sum, modulo `2^16 - 1` -/

theorem ocAdd_lt {a b : Nat} (ha : a < 65536) (hb : b < 65536) : ocAdd a b < 65536 := by
  unfold ocAdd
  split <;> omega

theorem ocAdd_mod (a b : Nat) : ocAdd a b % 65535 = (a + b) % 65535 := by
  unfold ocAdd
  split <;> omega

theorem ocAdd_eq_zero_iff (a b : Nat) : ocAdd a b = 0 ↔ a = 0 ∧ b = 0 := by
  unfold ocAdd
  split <;> omega

/-- What the fold of `ocAdd` keeps, from any accumulator: the range, the residue, and being zero. -/
theorem foldl_ocAdd {ws : List Nat} (hw : ∀ w ∈ ws, w < 65536) {a : Nat} (ha : a < 65536) :
    ws.foldl ocAdd a < 65536 ∧ ws.foldl ocAdd a % 65535 = (a + ws.sum) % 65535 ∧
      (ws.foldl ocAdd a = 0 ↔ a + ws.sum = 0) := by
  induction ws generalizing a with
  | nil => exact ⟨ha, by simp, by simp⟩
  | cons w ws ih =>
    have hw0 : w < 65536 := hw w (by simp)
    obtain ⟨h1, h2, h3⟩ := ih (fun x hx => hw x (by simp [hx])) (ocAdd_lt ha hw0)
    have hm := ocAdd_mod a w
    have hz := ocAdd_eq_zero_iff a w
    simp only [List.foldl_cons, List.sum_cons]
    refine ⟨h1, ?_, ?_⟩
    · rw [h2]
      omega
    · rw [h3]
      omega

theorem ocSum_lt {ws : List Nat} (hw : ∀ w ∈ ws, w < 65536) : ocSum ws < 65536 :=
  (foldl_ocAdd hw (by omega)).1

theorem ocSum_mod {ws : List Nat} (hw : ∀ w ∈ ws, w < 65536) : ocSum ws % 65535 = ws.sum % 65535 := by
  simpa [ocSum] using (foldl_ocAdd hw (a := 0) (by omega)).2.1

theorem ocSum_eq_zero_iff {ws : List Nat} (hw : ∀ w ∈ ws, w < 65536) : ocSum ws = 0 ↔ ws.sum = 0 := by
  simpa [ocSum] using (foldl_ocAdd hw (a := 0) (by omega)).2.2

/-! ## Folding the carries of an accumulator -/

theorem foldCarries_mod (fuel t : Nat) : foldCarries fuel t % 65535 = t % 65535 := by
  induction fuel generalizing t with
  | zero => rfl
  | succ fuel ih =>
    unfold foldCarries
    split
    · rfl
    · rw [ih]
      omega

theorem foldCarries_eq_zero_iff (fuel t : Nat) : foldCarries fuel t = 0 ↔ t = 0 := by
  induction fuel generalizing t with
  | zero => rfl
  | succ fuel ih =>
    unfold foldCarries
    split
    · rfl
    · rw [ih]
      omega

/-- A value without a carry is left alone, whatever the fuel. -/
theorem foldCarries_of_lt {fuel t : Nat} (h : t < 65536) : foldCarries fuel t = t := by
  cases fuel with
  | zero => rfl
  | succ fuel =>
    unfold foldCarries
    rw [if_pos (by omega)]

/-- Two turns end the loop on a 32-bit accumulator. -/
theorem foldCarries_lt {fuel t : Nat} (hf : 2 ≤ fuel) (ht : t < 2 ^ 32) : foldCarries fuel t < 65536 := by
  obtain ⟨fuel, rfl⟩ : ∃ n, fuel = n + 2 := ⟨fuel - 2, by omega⟩
  by_cases h0 : t / 65536 = 0
  · rw [foldCarries_of_lt (by omega)]
    omega
  · rw [foldCarries, if_neg h0, foldCarries]
    split
    · omega
    · rw [foldCarries_of_lt (by omega)]
      omega

/-- Adding the words in a 32-bit accumulator and folding the carries back gives the one's-complement sum. -/
theorem foldCarries_sum {fuel : Nat} {ws : List Nat} (hf : 2 ≤ fuel) (hw : ∀ w ∈ ws, w < 65536) (hs : ws.sum < 2 ^ 32) :
    foldCarries fuel ws.sum = ocSum ws := by
  have h1 := foldCarries_lt hf hs
  have h2 := ocSum_lt hw
  have h3 := foldCarries_mod fuel ws.sum
  have h4 := ocSum_mod hw
  have h5 := foldCarries_eq_zero_iff fuel ws.sum
  have h6 := ocSum_eq_zero_iff hw
  omega

/-! ## The words of a message -/

theorem words_lt (l : Bytes) : ∀ w ∈ words l, w < 65536 := by
  induction l using words.induct with
  | case1 => simp [words]
  | case2 b =>
    have := b.toNat_lt
    simp only [words, List.mem_singleton, forall_eq]
    omega
  | case3 b c rest ih =>
    have := b.toNat_lt
    have := c.toNat_lt
    simp only [words, List.mem_cons, forall_eq_or_imp]
    exact ⟨by omega, ih⟩

/-- The words of two messages, the first of even length, are those of the two in turn. -/
theorem words_append {a : Bytes} (h : a.length % 2 = 0) (b : Bytes) : words (a ++ b) = words a ++ words b := by
  induction a using words.induct with
  | case1 => rfl
  | case2 x => simp at h
  | case3 x y rest ih =>
    simp only [List.length_cons] at h
    simp only [List.cons_append, words, ih (by omega)]

theorem words_length_le (l : Bytes) : 2 * (words l).length ≤ l.length + 1 := by
  induction l using words.induct with
  | case1 => simp [words]
  | case2 b => simp [words]
  | case3 b c rest ih =>
    simp only [words, List.length_cons]
    omega

/-- The plain sum of the words of a message is bounded by its length. -/
theorem words_sum_le (l : Bytes) : (words l).sum ≤ 65535 * (words l).length := by
  have h := List.sum_le_card_nsmul (words l) 65535 (fun w hw => by have := words_lt l w hw; omega)
  simpa [Nat.mul_comm] using h

/-- Reading a message word by word, `n` words of it. -/
theorem map_readBe16_range {buf : Bytes} {n : Nat} (h : 2 * n ≤ buf.length) :
    (List.range n).map (fun i => (readBe16 buf (2 * i)).toNat) = words (buf.take (2 * n)) := by
  induction n with
  | zero => rfl
  | succ n ih =>
    have hs : buf.take (2 * (n + 1)) = buf.take (2 * n) ++ slice buf (2 * n) 2 := by
      have := slice_append buf 0 (2 * n) 2
      simp only [slice, List.drop_zero, Nat.zero_add] at this
      rw [slice, this]
      congr 1
    have hw : words (slice buf (2 * n) 2) = [(readBe16 buf (2 * n)).toNat] := by
      rw [← slice_append buf (2 * n) 1 1, slice_one (by omega), slice_one (by omega), readBe16_toNat]
      rfl
    rw [List.range_succ, List.map_append, ih (by omega), hs, words_append (by simp; omega), hw]
    rfl

end Lib
