import PsiphonAndroid.Lib.Bytes

/-!
# Length-prefixed framing

Packets in a byte stream, each after its length in two little-endian bytes. `frames m` reads a stream for packets of at most `m`
bytes: the packets it begins with, as far as they are complete, and the rest, which is `Blocked`: either too short to hold a
frame, or a header that announces more than `m` bytes.
-/

namespace Lib

/-- A packet after its length. -/
def frame (p : Bytes) : Bytes := le16 (UInt16.ofNat p.length) ++ p

/-- The frames of a list of packets, one after another. -/
def encodeFrames (ps : List Bytes) : Bytes := (ps.map frame).flatten

/-- The stream starts with a header that announces more than `m` bytes. -/
def Oversized (m : Nat) (bs : Bytes) : Prop := 2 ≤ bs.length ∧ m < (readLe16 bs 0).toNat

/-- The stream starts with a whole frame of a packet of at most `m` bytes. -/
def HasFrame (m : Nat) (bs : Bytes) : Prop :=
  2 ≤ bs.length ∧ (readLe16 bs 0).toNat ≤ m ∧ 2 + (readLe16 bs 0).toNat ≤ bs.length

instance (m : Nat) (bs : Bytes) : Decidable (Oversized m bs) := inferInstanceAs (Decidable (_ ∧ _))

instance (m : Nat) (bs : Bytes) : Decidable (HasFrame m bs) := inferInstanceAs (Decidable (_ ∧ _ ∧ _))

/-- The first `n` whole frames of a stream, as far as there are that many, and what comes after them. -/
def framesUpTo (m : Nat) : Nat → Bytes → List Bytes × Bytes
  | 0, bs => ([], bs)
  | n + 1, bs =>
    if HasFrame m bs then
      let r := framesUpTo m n (bs.drop (2 + (readLe16 bs 0).toNat))
      (slice bs 2 (readLe16 bs 0).toNat :: r.1, r.2)
    else ([], bs)

/-- The whole frames a stream starts with, and the rest: a stream has fewer frames than bytes. -/
def frames (m : Nat) (bs : Bytes) : List Bytes × Bytes := framesUpTo m bs.length bs

@[simp] theorem encodeFrames_nil : encodeFrames [] = [] := rfl

@[simp] theorem encodeFrames_cons (p : Bytes) (ps : List Bytes) : encodeFrames (p :: ps) = frame p ++ encodeFrames ps := rfl

@[simp] theorem encodeFrames_append (ps qs : List Bytes) : encodeFrames (ps ++ qs) = encodeFrames ps ++ encodeFrames qs := by
  simp [encodeFrames]

@[simp] theorem length_frame (p : Bytes) : (frame p).length = 2 + p.length := by
  simp [frame]

/-- The header of a frame announces the packet. -/
theorem readLe16_frame {p : Bytes} (h : p.length ≤ 65535) (rest : Bytes) :
    (readLe16 (frame p ++ rest) 0).toNat = p.length := by
  rw [frame, List.append_assoc, readLe16_le16, UInt16.toNat_ofNat']
  exact Nat.mod_eq_of_lt (by omega)

theorem not_hasFrame_nil (m : Nat) : ¬HasFrame m [] := fun h => absurd h.1 (by simp)

theorem not_oversized_nil (m : Nat) : ¬Oversized m [] := fun h => absurd h.1 (by simp)

/-- A header that announces too much is no frame. -/
theorem Oversized.not_hasFrame {m : Nat} {bs : Bytes} (h : Oversized m bs) : ¬HasFrame m bs := fun hf => by
  have := h.2
  have := hf.2.1
  omega

/-- Bytes that follow do not change a complete header. -/
theorem Oversized.append {m : Nat} {bs : Bytes} (h : Oversized m bs) (rest : Bytes) : Oversized m (bs ++ rest) := by
  obtain ⟨h2, hm⟩ := h
  refine ⟨by rw [List.length_append]; omega, ?_⟩
  rwa [readLe16_append_left (by omega)]

/-- A whole frame in front is the frame of the packet it holds. -/
theorem frame_of_hasFrame {m : Nat} {bs : Bytes} (h : HasFrame m bs) :
    frame (slice bs 2 (readLe16 bs 0).toNat) = slice bs 0 (2 + (readLe16 bs 0).toNat) := by
  obtain ⟨h2, -, hl⟩ := h
  rw [frame, length_slice_of_le hl, UInt16.ofNat_toNat, ← slice_append bs 0 2, le16_readLe16 (by omega), Nat.zero_add]

/-- A stream that starts with a frame is read frame by frame. -/
theorem framesUpTo_frame {m n : Nat} {p : Bytes} (hm : m ≤ 65535) (hp : p.length ≤ m) (rest : Bytes) :
    framesUpTo m (n + 1) (frame p ++ rest) = (p :: (framesUpTo m n rest).1, (framesUpTo m n rest).2) := by
  have hr := readLe16_frame (p := p) (by omega) rest
  have hh : HasFrame m (frame p ++ rest) := by
    refine ⟨?_, ?_, ?_⟩ <;> simp only [hr, List.length_append, length_frame] <;> omega
  have hs : slice (frame p ++ rest) 2 p.length = p := by
    rw [slice, frame, List.append_assoc, List.drop_left' (by simp), List.take_left' rfl]
  have hd : (frame p ++ rest).drop (2 + p.length) = rest := List.drop_left' (by simp)
  rw [framesUpTo, if_pos hh, hr, hs, hd]

/-- A stream of frames and a rest with no frame in front, given enough reading steps. -/
theorem framesUpTo_encode {m : Nat} (hm : m ≤ 65535) {ps : List Bytes} (hps : ∀ p ∈ ps, p.length ≤ m) {rest : Bytes}
    (hr : ¬HasFrame m rest) {n : Nat} (hn : ps.length ≤ n) : framesUpTo m n (encodeFrames ps ++ rest) = (ps, rest) := by
  induction ps generalizing n with
  | nil =>
    cases n with
    | zero => rfl
    | succ n => rw [encodeFrames_nil, List.nil_append, framesUpTo, if_neg hr]
  | cons p ps ih =>
    cases n with
    | zero => simp at hn
    | succ n =>
      rw [encodeFrames_cons, List.append_assoc, framesUpTo_frame hm (hps p (by simp)),
        ih (fun q hq => hps q (by simp [hq])) (by simpa using hn)]

/-- The packets read and the rest make up the stream, and no packet is longer than asked for. -/
theorem framesUpTo_spec (m n : Nat) (bs : Bytes) :
    encodeFrames (framesUpTo m n bs).1 ++ (framesUpTo m n bs).2 = bs ∧ ∀ p ∈ (framesUpTo m n bs).1, p.length ≤ m := by
  induction n generalizing bs with
  | zero => exact ⟨rfl, by simp [framesUpTo]⟩
  | succ n ih =>
    by_cases h : HasFrame m bs
    · obtain ⟨ih1, ih2⟩ := ih (bs.drop (2 + (readLe16 bs 0).toNat))
      rw [framesUpTo, if_pos h]
      refine ⟨?_, ?_⟩
      · rw [encodeFrames_cons, List.append_assoc, ih1, frame_of_hasFrame h, slice, List.drop_zero, List.take_append_drop]
      · intro p hp
        rcases List.mem_cons.mp hp with rfl | hp
        · rw [length_slice]
          exact (Nat.min_le_left _ _).trans h.2.1
        · exact ih2 p hp
    · rw [framesUpTo, if_neg h]
      exact ⟨rfl, by simp⟩

theorem frames_spec (m : Nat) (bs : Bytes) :
    encodeFrames (frames m bs).1 ++ (frames m bs).2 = bs ∧ ∀ p ∈ (frames m bs).1, p.length ≤ m :=
  framesUpTo_spec m bs.length bs

/-- There are at most as many frames as bytes. -/
theorem length_le_encodeFrames (ps : List Bytes) : ps.length ≤ (encodeFrames ps).length := by
  induction ps with
  | nil => simp
  | cons p ps ih =>
    rw [encodeFrames_cons, List.length_append, length_frame, List.length_cons]
    omega

/-- Reading a stream that consists of the frames of `ps` and a rest that starts with no whole frame gives back `ps`. -/
theorem frames_encode {m : Nat} (hm : m ≤ 65535) {ps : List Bytes} (hps : ∀ p ∈ ps, p.length ≤ m) {rest : Bytes}
    (hr : ¬HasFrame m rest) : frames m (encodeFrames ps ++ rest) = (ps, rest) := by
  apply framesUpTo_encode hm hps hr
  have := length_le_encodeFrames ps
  rw [List.length_append]
  omega

/-- A stream that goes on past whole frames starts with them. -/
theorem prefix_frames {m : Nat} (hm : m ≤ 65535) {ps : List Bytes} (hps : ∀ p ∈ ps, p.length ≤ m) (rest : Bytes) :
    ps <+: (frames m (encodeFrames ps ++ rest)).1 := by
  have key : ∀ n, ps.length ≤ n → ps <+: (framesUpTo m n (encodeFrames ps ++ rest)).1 := by
    induction ps with
    | nil => exact fun _ _ => List.nil_prefix
    | cons p ps ih =>
      intro n hn
      cases n with
      | zero => simp at hn
      | succ n =>
        rw [encodeFrames_cons, List.append_assoc, framesUpTo_frame hm (hps p (by simp))]
        exact List.cons_prefix_cons.mpr ⟨rfl, ih (fun q hq => hps q (by simp [hq])) n (by simpa using hn)⟩
  apply key
  have := length_le_encodeFrames ps
  rw [List.length_append]
  omega

end Lib
