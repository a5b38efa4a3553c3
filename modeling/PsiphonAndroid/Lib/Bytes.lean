import Mathlib

/-!
# Byte buffers and byte order

A buffer is a list of bytes. `memcpy` writes a run of bytes at an offset and leaves the rest of the buffer, `slice` reads one.
Multi-byte integers are read and written big-endian (`readBe16`, `be16`, ...) or little-endian (`readLe16`, `le16`); a read
past the end of the buffer reads zeros, so every read is total, and the lemmas carry the bounds where they matter.
-/

namespace Lib

abbrev Bytes : Type := List UInt8

/-! ## Reading and writing a run of bytes -/

/-- The `len` bytes of a buffer from offset `off` on. -/
def slice (buf : Bytes) (off len : Nat) : Bytes := (buf.drop off).take len

/-- The buffer with `data` written at offset `off`. -/
def memcpy (buf : Bytes) (off : Nat) (data : Bytes) : Bytes :=
  buf.take off ++ data ++ buf.drop (off + data.length)

/-- The buffer with the `len` bytes at `src` moved to offset `dst`. -/
def memmove (buf : Bytes) (dst src len : Nat) : Bytes := memcpy buf dst (slice buf src len)

@[simp] theorem length_slice (buf : Bytes) (off len : Nat) : (slice buf off len).length = min len (buf.length - off) := by
  simp [slice]

theorem length_slice_of_le {buf : Bytes} {off len : Nat} (h : off + len ≤ buf.length) : (slice buf off len).length = len := by
  rw [length_slice]
  omega

@[simp] theorem slice_zero_len (buf : Bytes) (off : Nat) : slice buf off 0 = [] := by
  simp [slice]

/-- A write inside the buffer keeps its length. -/
theorem length_memcpy {buf : Bytes} {off : Nat} {data : Bytes} (h : off + data.length ≤ buf.length) :
    (memcpy buf off data).length = buf.length := by
  simp only [memcpy, List.length_append, List.length_take, List.length_drop]
  omega

/-- Two adjacent runs are one. -/
theorem slice_append (buf : Bytes) (off a b : Nat) : slice buf off a ++ slice buf (off + a) b = slice buf off (a + b) := by
  rw [slice, slice, slice, ← List.drop_drop, ← List.take_add]

/-- A run inside a run. -/
theorem slice_slice (buf : Bytes) (off len i n : Nat) (h : i + n ≤ len) :
    slice (slice buf off len) i n = slice buf (off + i) n := by
  rw [slice, slice, slice, List.drop_take, List.take_take, List.drop_drop]
  congr 1
  omega

/-- What was written is read back. -/
theorem slice_memcpy_self {buf : Bytes} {off : Nat} {data : Bytes} (h : off ≤ buf.length) :
    slice (memcpy buf off data) off data.length = data := by
  rw [slice, memcpy, List.append_assoc, List.drop_append_of_le_length (by simp [h]),
    List.drop_of_length_le (by simp), List.nil_append, List.take_left']
  rfl

/-- A write leaves the bytes before it. -/
theorem slice_memcpy_before {buf : Bytes} {off a len : Nat} {data : Bytes} (ho : off ≤ buf.length) (h : a + len ≤ off) :
    slice (memcpy buf off data) a len = slice buf a len := by
  have hl : (buf.take off).length = off := by simp [ho]
  rw [slice, memcpy, List.append_assoc, List.drop_append_of_le_length (by omega),
    List.take_append_of_le_length (by simp; omega), slice, List.drop_take, List.take_take]
  congr 1
  omega

/-- A write leaves the bytes after it. -/
theorem slice_memcpy_after {buf : Bytes} {off a len : Nat} {data : Bytes} (h : off + data.length ≤ a)
    (hb : off + data.length ≤ buf.length) : slice (memcpy buf off data) a len = slice buf a len := by
  have hl : (buf.take off ++ data).length = off + data.length := by simp; omega
  rw [slice, memcpy, ← Nat.add_sub_cancel' h, ← hl, List.drop_length_add_append, List.drop_drop, hl, Nat.add_sub_cancel' h,
    slice]

/-- Writing `data` right after the run `[a, off)` extends the run by `data`. -/
theorem slice_memcpy_extend {buf : Bytes} {a n off : Nat} {data : Bytes} (h : off = a + n) (hb : off ≤ buf.length) :
    slice (memcpy buf off data) a (n + data.length) = slice buf a n ++ data := by
  subst h
  rw [← slice_append, slice_memcpy_before hb (Nat.le_refl _), slice_memcpy_self hb]

/-- Moving a run to the front of the buffer. -/
theorem slice_memmove_front {buf : Bytes} {src len : Nat} (h : src + len ≤ buf.length) :
    slice (memmove buf 0 src len) 0 len = slice buf src len := by
  have hl := length_slice_of_le h
  have := @slice_memcpy_self buf 0 (slice buf src len) (Nat.zero_le _)
  rwa [hl] at this

theorem length_memmove {buf : Bytes} {dst src len : Nat} (hd : dst + len ≤ buf.length) :
    (memmove buf dst src len).length = buf.length := by
  apply length_memcpy
  rw [length_slice]
  omega

/-- The front of a run is the front of the buffer from there. -/
theorem take_slice (buf : Bytes) (off len n : Nat) (h : n ≤ len) : (slice buf off len).take n = slice buf off n := by
  rw [slice, slice, List.take_take, min_eq_left h]

/-- Dropping the front of a run moves its start. -/
theorem drop_slice (buf : Bytes) (off len n : Nat) : (slice buf off len).drop n = slice buf (off + n) (len - n) := by
  rw [slice, slice, List.drop_take, List.drop_drop]

/-! ## Integers in a buffer -/

/-- The byte at an offset, zero past the end. -/
def byteAt (buf : Bytes) (off : Nat) : UInt8 := buf.getD off 0

/-- The 16-bit big-endian integer at an offset. -/
def readBe16 (buf : Bytes) (off : Nat) : UInt16 := UInt16.ofNat ((byteAt buf off).toNat * 256 + (byteAt buf (off + 1)).toNat)

/-- The 32-bit big-endian integer at an offset. -/
def readBe32 (buf : Bytes) (off : Nat) : UInt32 :=
  UInt32.ofNat ((readBe16 buf off).toNat * 65536 + (readBe16 buf (off + 2)).toNat)

/-- The 16-bit little-endian integer at an offset. -/
def readLe16 (buf : Bytes) (off : Nat) : UInt16 := UInt16.ofNat ((byteAt buf (off + 1)).toNat * 256 + (byteAt buf off).toNat)

/-- A 16-bit integer, big-endian. -/
def be16 (x : UInt16) : Bytes := [UInt8.ofNat (x.toNat / 256), UInt8.ofNat x.toNat]

/-- A 32-bit integer, big-endian. -/
def be32 (x : UInt32) : Bytes := be16 (UInt16.ofNat (x.toNat / 65536)) ++ be16 (UInt16.ofNat x.toNat)

/-- A 16-bit integer, little-endian. -/
def le16 (x : UInt16) : Bytes := [UInt8.ofNat x.toNat, UInt8.ofNat (x.toNat / 256)]

@[simp] theorem length_be16 (x : UInt16) : (be16 x).length = 2 := rfl

@[simp] theorem length_be32 (x : UInt32) : (be32 x).length = 4 := rfl

@[simp] theorem length_le16 (x : UInt16) : (le16 x).length = 2 := rfl

@[simp] theorem byteAt_cons_zero (b : UInt8) (l : Bytes) : byteAt (b :: l) 0 = b := rfl

@[simp] theorem byteAt_cons_succ (b : UInt8) (l : Bytes) (n : Nat) : byteAt (b :: l) (n + 1) = byteAt l n := rfl

theorem byteAt_append_left {a b : Bytes} {off : Nat} (h : off < a.length) : byteAt (a ++ b) off = byteAt a off := by
  simp [byteAt, List.getD, List.getElem?_append_left h]

theorem byteAt_append_right (a b : Bytes) (off : Nat) : byteAt (a ++ b) (a.length + off) = byteAt b off := by
  rw [byteAt, byteAt, List.getD_append_right _ _ _ _ (Nat.le_add_right _ _), Nat.add_sub_cancel_left]

theorem byteAt_slice {buf : Bytes} {a len off : Nat} (h : off < len) : byteAt (slice buf a len) off = byteAt buf (a + off) := by
  simp [byteAt, slice, List.getD, h]

theorem readBe16_append_right (a b : Bytes) (off : Nat) : readBe16 (a ++ b) (a.length + off) = readBe16 b off := by
  rw [readBe16, readBe16, byteAt_append_right, Nat.add_assoc, byteAt_append_right]

theorem readBe16_slice {buf : Bytes} {a len off : Nat} (h : off + 1 < len) :
    readBe16 (slice buf a len) off = readBe16 buf (a + off) := by
  rw [readBe16, readBe16, byteAt_slice (by omega), byteAt_slice h, Nat.add_assoc]

theorem readLe16_slice {buf : Bytes} {a len off : Nat} (h : off + 1 < len) :
    readLe16 (slice buf a len) off = readLe16 buf (a + off) := by
  rw [readLe16, readLe16, byteAt_slice h, byteAt_slice (by omega), Nat.add_assoc]

theorem readLe16_append_left {a b : Bytes} {off : Nat} (h : off + 1 < a.length) :
    readLe16 (a ++ b) off = readLe16 a off := by
  rw [readLe16, readLe16, byteAt_append_left h, byteAt_append_left (by omega)]

/-- Two bytes read as one integer determine it. -/
theorem readBe16_toNat (buf : Bytes) (off : Nat) :
    (readBe16 buf off).toNat = (byteAt buf off).toNat * 256 + (byteAt buf (off + 1)).toNat := by
  have h1 := (byteAt buf off).toNat_lt
  have h2 := (byteAt buf (off + 1)).toNat_lt
  simp only [readBe16, UInt16.toNat_ofNat']
  omega

theorem readLe16_toNat (buf : Bytes) (off : Nat) :
    (readLe16 buf off).toNat = (byteAt buf (off + 1)).toNat * 256 + (byteAt buf off).toNat := by
  have h1 := (byteAt buf off).toNat_lt
  have h2 := (byteAt buf (off + 1)).toNat_lt
  simp only [readLe16, UInt16.toNat_ofNat']
  omega

theorem readBe32_toNat (buf : Bytes) (off : Nat) :
    (readBe32 buf off).toNat = (readBe16 buf off).toNat * 65536 + (readBe16 buf (off + 2)).toNat := by
  have h1 := (readBe16 buf off).toNat_lt
  have h2 := (readBe16 buf (off + 2)).toNat_lt
  simp only [readBe32, UInt32.toNat_ofNat']
  omega

/-- Reading back a big-endian 16-bit integer. -/
theorem readBe16_be16 (x : UInt16) (rest : Bytes) : readBe16 (be16 x ++ rest) 0 = x := by
  have hx := x.toNat_lt
  rw [← UInt16.toNat_inj, readBe16_toNat]
  simp only [be16, List.cons_append, byteAt_cons_zero, byteAt_cons_succ, UInt8.toNat_ofNat']
  omega

/-- Reading back a big-endian 32-bit integer. -/
theorem readBe32_be32 (x : UInt32) (rest : Bytes) : readBe32 (be32 x ++ rest) 0 = x := by
  have hx := x.toNat_lt
  have h2 : readBe16 (be32 x ++ rest) 2 = UInt16.ofNat x.toNat := by
    rw [be32, List.append_assoc]
    exact (readBe16_append_right (be16 _) _ 0).trans (readBe16_be16 _ _)
  have h0 : readBe16 (be32 x ++ rest) 0 = UInt16.ofNat (x.toNat / 65536) := by
    rw [be32, List.append_assoc, readBe16_be16]
  rw [← UInt32.toNat_inj, readBe32_toNat, h0, h2]
  simp only [UInt16.toNat_ofNat']
  omega

/-- Reading back a little-endian 16-bit integer. -/
theorem readLe16_le16 (x : UInt16) (rest : Bytes) : readLe16 (le16 x ++ rest) 0 = x := by
  have hx := x.toNat_lt
  rw [← UInt16.toNat_inj, readLe16_toNat]
  simp only [le16, List.cons_append, byteAt_cons_zero, byteAt_cons_succ, UInt8.toNat_ofNat']
  omega

/-- The run of one byte. -/
theorem slice_one {buf : Bytes} {off : Nat} (h : off < buf.length) : slice buf off 1 = [byteAt buf off] := by
  rw [slice, List.drop_eq_getElem_cons h, List.take_succ_cons, List.take_zero]
  simp [byteAt, h]

/-- Writing back what a 16-bit read saw gives the two bytes read. -/
theorem be16_readBe16 {buf : Bytes} {off : Nat} (h : off + 2 ≤ buf.length) : be16 (readBe16 buf off) = slice buf off 2 := by
  have h1 := (byteAt buf off).toNat_lt
  have h2 := (byteAt buf (off + 1)).toNat_lt
  rw [show slice buf off 2 = slice buf off 1 ++ slice buf (off + 1) 1 from (slice_append buf off 1 1).symm,
    slice_one (by omega), slice_one (by omega), be16, readBe16_toNat]
  simp only [List.cons_append, List.nil_append, List.cons.injEq, and_true, ← UInt8.toNat_inj, UInt8.toNat_ofNat']
  omega

/-- Writing back what a little-endian read saw gives the two bytes read. -/
theorem le16_readLe16 {buf : Bytes} {off : Nat} (h : off + 2 ≤ buf.length) : le16 (readLe16 buf off) = slice buf off 2 := by
  have h1 := (byteAt buf off).toNat_lt
  have h2 := (byteAt buf (off + 1)).toNat_lt
  rw [show slice buf off 2 = slice buf off 1 ++ slice buf (off + 1) 1 from (slice_append buf off 1 1).symm,
    slice_one (by omega), slice_one (by omega), le16, readLe16_toNat]
  simp only [List.cons_append, List.nil_append, List.cons.injEq, and_true, ← UInt8.toNat_inj, UInt8.toNat_ofNat']
  omega

/-- Writing back what a 32-bit read saw gives the four bytes read. -/
theorem be32_readBe32 {buf : Bytes} {off : Nat} (h : off + 4 ≤ buf.length) : be32 (readBe32 buf off) = slice buf off 4 := by
  have h1 := (readBe16 buf off).toNat_lt
  have h2 := (readBe16 buf (off + 2)).toNat_lt
  have e1 : UInt16.ofNat ((readBe32 buf off).toNat / 65536) = readBe16 buf off := by
    rw [← UInt16.toNat_inj, readBe32_toNat, UInt16.toNat_ofNat']
    omega
  have e2 : UInt16.ofNat (readBe32 buf off).toNat = readBe16 buf (off + 2) := by
    rw [← UInt16.toNat_inj, readBe32_toNat, UInt16.toNat_ofNat']
    omega
  rw [be32, e1, e2, be16_readBe16 (by omega), be16_readBe16 (by omega), slice_append]

end Lib
