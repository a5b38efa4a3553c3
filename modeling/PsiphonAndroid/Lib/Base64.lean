import PsiphonAndroid.Lib.Bytes

/-!
# Base64

The encoding in groups of three bytes, and an encoder that is fed piece by piece: it keeps the bytes of an unfinished group and
encodes them with padding when it is finished.
-/

namespace Lib

/-- The character of a six-bit value. -/
def base64Char (n : Nat) : UInt8 :=
  if n < 26 then UInt8.ofNat (65 + n)
  else if n < 52 then UInt8.ofNat (97 + (n - 26))
  else if n < 62 then UInt8.ofNat (48 + (n - 52))
  else if n = 62 then 43
  else 47

/-- The base64 text of some bytes, with padding and without line breaks. -/
def base64 : Bytes → Bytes
  | a :: b :: c :: rest =>
    let v := a.toNat * 65536 + b.toNat * 256 + c.toNat
    base64Char (v / 262144) :: base64Char (v / 4096 % 64) :: base64Char (v / 64 % 64) :: base64Char (v % 64) :: base64 rest
  | [a, b] =>
    let v := a.toNat * 65536 + b.toNat * 256
    [base64Char (v / 262144), base64Char (v / 4096 % 64), base64Char (v / 64 % 64), 61]
  | [a] =>
    let v := a.toNat * 65536
    [base64Char (v / 262144), base64Char (v / 4096 % 64), 61, 61]
  | [] => []

@[simp] theorem base64_nil : base64 [] = [] := rfl

/-- Whole groups are encoded on their own. -/
theorem base64_append {x : Bytes} (hx : 3 ∣ x.length) (y : Bytes) : base64 (x ++ y) = base64 x ++ base64 y := by
  induction x using base64.induct with
  | case1 a b c rest ih =>
    have hrest : 3 ∣ rest.length := by
      simp only [List.length_cons] at hx
      omega
    simp only [List.cons_append, base64, ih hrest]
  | case2 a b => simp only [List.length_cons, List.length_nil] at hx; omega
  | case3 a => simp only [List.length_cons, List.length_nil] at hx; omega
  | case4 => rfl

/-! ## The encoder -/

/-- An encoder: what it has put out, and the bytes of the group it has not finished. -/
structure Base64Encoder where
  out : Bytes
  tail : Bytes
  deriving DecidableEq

namespace Base64Encoder

/-- A new encoder. -/
def new : Base64Encoder := ⟨[], []⟩

/-- The whole groups of the tail and some further bytes are put out. -/
def write (e : Base64Encoder) (b : Bytes) : Base64Encoder :=
  let n := (e.tail ++ b).length / 3 * 3
  ⟨e.out ++ base64 ((e.tail ++ b).take n), (e.tail ++ b).drop n⟩

/-- The tail is put out with padding. -/
def finish (e : Base64Encoder) : Base64Encoder := ⟨e.out ++ base64 e.tail, []⟩

/-- What an encoder did with the bytes `data`, so far: whole groups are out, and the rest is the tail. -/
def Encodes (e : Base64Encoder) (data : Bytes) : Prop := ∃ whole, 3 ∣ whole.length ∧ e.out = base64 whole ∧ data = whole ++ e.tail

theorem encodes_new : new.Encodes [] := ⟨[], ⟨0, rfl⟩, rfl, rfl⟩

theorem Encodes.write {e : Base64Encoder} {data : Bytes} (h : e.Encodes data) (b : Bytes) : (e.write b).Encodes (data ++ b) := by
  obtain ⟨whole, hdvd, hout, hdata⟩ := h
  have hlength : ((e.tail ++ b).take ((e.tail ++ b).length / 3 * 3)).length = (e.tail ++ b).length / 3 * 3 :=
    List.length_take_of_le (Nat.div_mul_le_self _ _)
  refine ⟨whole ++ (e.tail ++ b).take ((e.tail ++ b).length / 3 * 3), ?_, ?_, ?_⟩
  · rw [List.length_append, hlength]
    exact Nat.dvd_add hdvd (Nat.dvd_mul_left _ _)
  · rw [base64_append hdvd, ← hout]
    rfl
  · change data ++ b = _ ++ (e.tail ++ b).drop ((e.tail ++ b).length / 3 * 3)
    rw [hdata, List.append_assoc, List.append_assoc, List.take_append_drop]

/-- A finished encoder has put out the encoding of all it was given. -/
theorem Encodes.finish {e : Base64Encoder} {data : Bytes} (h : e.Encodes data) : e.finish.out = base64 data := by
  obtain ⟨whole, hdvd, hout, rfl⟩ := h
  change e.out ++ base64 e.tail = _
  rw [base64_append hdvd, hout]

/-- Nothing comes out of a finished encoder that is given nothing. -/
theorem write_nil_of_tail {e : Base64Encoder} (h : e.tail = []) : e.write [] = e := by
  obtain ⟨out, tail⟩ := e
  obtain rfl : tail = [] := h
  simp [write]

theorem finish_of_tail {e : Base64Encoder} (h : e.tail = []) : e.finish = e := by
  obtain ⟨out, tail⟩ := e
  obtain rfl : tail = [] := h
  simp [finish]

end Base64Encoder

end Lib
