import PsiphonAndroid.Nfc.Bump

/-!
# The bump reader and its peer

What the reader makes of arbitrary answers. It believes every answer that ends in `A_OK`, so it gets through unharmed exactly when no
such answer is malformed: a length below 2 or above 32767, an answer without status bytes or without data, or one longer than what
was asked for.
-/

namespace PsiphonAndroid

open Lib

namespace BumpReader

/-- The response ends in `A_OK`. -/
def Succeeds (responseApdu : Bytes) : Prop := rApduSuccess responseApdu = .ok true

/-- The length the peer declares, in the first two bytes of its second answer. -/
def declaredLength (answers : Nat → Option Bytes) : Nat := (readBe16 ((answers 1).getD []) 0).toNat

/-- The data in an answer. -/
def dataOf (answer : Option Bytes) : Bytes := slice (answer.getD []) 0 ((answer.getD []).length - 2)

/-- The data in the answers to the first `k` reads. -/
def received (answers : Nat → Option Bytes) : Nat → Bytes
  | 0 => []
  | k + 1 => received answers k ++ dataOf (answers (2 + k))

/-- The answer has no status bytes, no data, or more than was asked for. -/
def Malformed : BumpReader → Option Bytes → Prop
  | selecting, some responseApdu => responseApdu.length < 2
  | readingLength, some responseApdu => responseApdu.length ≠ 4
  | reading payloadLength _ offset, some responseApdu =>
    responseApdu.length < 3 ∨ min 253 (payloadLength - offset) < (responseApdu.length : Int) - 2
  | _, _ => False

/-- The branches that show an error. -/
def IsError (e : ReaderEnd) : Prop := e = .unsupportedTag ∨ e = .badData ∨ e = .lostTag

/-- What a reader should make of a peer: it ends within the calls the declared length allows, throws nothing, ends in an error on a
malformed answer, and imports only what it received, as much as was declared. -/
structure Survives (answers : Nat → Option Bytes) : Prop where
  ends : ∃ n ≤ 2 + declaredLength answers, ∃ e, run answers n = ended e
  noThrow : ∀ n e, run answers n ≠ ended (.thrown e)
  rejects : ∀ n, Malformed (run answers n) (answers n) → ∃ e, IsError e ∧ run answers (n + 1) = ended e
  imports : ∀ n data, run answers n = ended (.imported data) →
    data.length + 2 = declaredLength answers ∧ ∃ k, 2 + k ≤ n ∧ data = received answers k

/-- The answers to the reads are sane: as long as those before succeeded and did not bring all of the `length - 2` bytes, an answer has
its status bytes, and if these are `A_OK`, some data and no more than was asked for. -/
def SaneReads (answers : Nat → Option Bytes) (length : Nat) : Prop :=
  ∀ i, (∀ j < i, ∃ r, answers (2 + j) = some r ∧ Succeeds r) → 2 + (received answers i).length < length →
    ∀ r, answers (2 + i) = some r → 2 ≤ r.length ∧
      (Succeeds r → 3 ≤ r.length ∧ r.length - 2 ≤ min 253 (length - 2 - (received answers i).length))

/-- The answers are sane: they have their status bytes, and if these are `A_OK`, the answer to the length is two bytes that declare
between 2 and 32767, and the answers to the reads are sane. -/
def Sane (answers : Nat → Option Bytes) : Prop :=
  ∀ r, answers 0 = some r → 2 ≤ r.length ∧ (Succeeds r →
    ∀ r', answers 1 = some r' → 2 ≤ r'.length ∧ (Succeeds r' →
      r'.length = 4 ∧ 2 ≤ declaredLength answers ∧ declaredLength answers ≤ 32767 ∧ SaneReads answers (declaredLength answers)))

end BumpReader

namespace BumpPeerAux

open BumpReader

variable {answers : Nat → Option Bytes}

theorem checked_short {r : Bytes} (h : r.length < 2) (failed : ReaderEnd) (next : BumpReader) :
    checked r failed next = ended (.thrown .indexOutOfBounds) := by
  unfold checked rApduSuccess
  rw [if_pos h]

theorem checked_success {r : Bytes} (h : Succeeds r) (failed : ReaderEnd) (next : BumpReader) : checked r failed next = next := by
  unfold checked
  rw [h]

theorem checked_failure {r : Bytes} (hlen : 2 ≤ r.length) (h : ¬Succeeds r) (failed : ReaderEnd) (next : BumpReader) :
    checked r failed next = ended failed := by
  unfold Succeeds rApduSuccess at h
  unfold checked rApduSuccess
  rw [if_neg (by omega)] at h ⊢
  cases hb : decide (slice r (r.length - 2) 2 = aOk) with
  | false => rfl
  | true => exact absurd (congrArg Except.ok hb) h

theorem two_le_of_succeeds {r : Bytes} (h : Succeeds r) : 2 ≤ r.length := by
  by_contra hlen
  unfold Succeeds rApduSuccess at h
  rw [if_pos (by omega)] at h
  cases h

/-- An ended reader stays ended. -/
theorem run_ended {n : Nat} {e : ReaderEnd} (h : run answers n = ended e) (j : Nat) : run answers (n + j) = ended e := by
  induction j with
  | zero => exact h
  | succ j ih =>
    rw [← Nat.add_assoc, run, ih]
    cases answers (n + j) <;> rfl

theorem length_dataOf {r : Bytes} (h : 2 ≤ r.length) : (dataOf (some r)).length = r.length - 2 := by
  unfold dataOf
  rw [Option.getD_some]
  exact length_slice_of_le (by omega)

/-- The data of the reads grows. -/
theorem received_mono {i j : Nat} (h : i ≤ j) : (received answers i).length ≤ (received answers j).length := by
  induction j with
  | zero =>
    obtain rfl := Nat.le_zero.mp h
    exact Nat.le_refl _
  | succ j ih =>
    rcases Nat.le_succ_iff.mp h with h | rfl
    · rw [received, List.length_append]
      exact (ih h).trans (Nat.le_add_right _ _)
    · exact Nat.le_refl _

/-- The reader at the head of its loop after `i` reads, of `length` bytes in all. -/
def AtRead (answers : Nat → Option Bytes) (length i : Nat) (x : BumpReader) : Prop :=
  ∃ data : Bytes, data.length + 2 = length ∧ slice data 0 (received answers i).length = received answers i ∧
    x = loop length data (2 + (received answers i).length)

theorem AtRead.reading {length i : Nat} {x : BumpReader} (h : AtRead answers length i x)
    (hmore : 2 + (received answers i).length < length) :
    ∃ data : Bytes, data.length + 2 = length ∧ slice data 0 (received answers i).length = received answers i ∧
      x = .reading length data (2 + (received answers i).length) := by
  obtain ⟨data, hlen, hdata, rfl⟩ := h
  exact ⟨data, hlen, hdata, if_pos (Int.ofNat_lt.mpr hmore)⟩

/-- The select and the length succeeded. -/
theorem run_two {r r' : Bytes} (h0 : answers 0 = some r) (hr : Succeeds r) (h1 : answers 1 = some r') (hr' : Succeeds r') :
    (2 ≤ declaredLength answers ∧ declaredLength answers ≤ 32767 → AtRead answers (declaredLength answers) 0 (run answers 2)) ∧
    (¬(2 ≤ declaredLength answers ∧ declaredLength answers ≤ 32767) → run answers 2 = ended (.thrown .negativeArraySize)) := by
  have hdecl : declaredLength answers = (readBe16 r' 0).toNat := by rw [declaredLength, h1]; rfl
  have hlt := (readBe16 r' 0).toNat_lt
  have hlen : payloadLengthOf r' = ((declaredLength answers : Nat) : Int).bmod 65536 := by rw [hdecl]; rfl
  have hone : run answers 1 = readingLength := by
    rw [run, run, h0, respond, checked_success hr]
  have htwo : run answers 2 = if payloadLengthOf r' - 2 < 0 then ended (.thrown .negativeArraySize)
      else loop (payloadLengthOf r') (List.replicate (payloadLengthOf r' - 2).toNat 0) 2 := by
    rw [run, hone, h1, respond, checked_success hr']
  rw [htwo]
  refine ⟨?_, ?_⟩
  · intro hok
    have hshort : payloadLengthOf r' = (declaredLength answers : Nat) := by
      rw [hlen, Int.bmod_def]
      omega
    rw [hshort, if_neg (by omega)]
    refine ⟨_, ?_, slice_zero_len _ _, rfl⟩
    rw [List.length_replicate]
    omega
  · intro hbad
    refine if_pos ?_
    rw [hlen, Int.bmod_def]
    omega

/-- One read that succeeded: the data is kept, or does not fit. -/
theorem AtRead.step {length i : Nat} (h : AtRead answers length i (run answers (2 + i)))
    (hmore : 2 + (received answers i).length < length) {r : Bytes} (ha : answers (2 + i) = some r) (hr : Succeeds r) :
    (2 + (received answers (i + 1)).length ≤ length → AtRead answers length (i + 1) (run answers (2 + (i + 1)))) ∧
    (length < 2 + (received answers (i + 1)).length → run answers (2 + (i + 1)) = ended (.thrown .indexOutOfBounds)) := by
  obtain ⟨data, hlen, hdata, hrun⟩ := h.reading hmore
  have hpart := length_dataOf (two_le_of_succeeds hr)
  have hnext : received answers (i + 1) = received answers i ++ dataOf (some r) := by rw [received, ha]
  have hgot : (received answers (i + 1)).length = (received answers i).length + (r.length - 2) := by
    rw [hnext, List.length_append, hpart]
  have hstep : run answers (2 + (i + 1)) =
      if data.length < (received answers i).length + (r.length - 2) then ended (.thrown .indexOutOfBounds)
      else loop length (memcpy data (received answers i).length (dataOf (some r)))
        (2 + (received answers i).length + (r.length - 2)) := by
    rw [← Nat.add_assoc, run, hrun, ha, respond, checked_success hr]
    dsimp only
    rw [Nat.add_sub_cancel_left]
    rfl
  refine ⟨?_, ?_⟩
  · intro hfits
    rw [hstep, if_neg (by omega)]
    refine ⟨memcpy data (received answers i).length (dataOf (some r)), ?_, ?_, ?_⟩
    · rw [length_memcpy (by omega), hlen]
    · rw [hnext, List.length_append, slice_memcpy_extend (Nat.zero_add _).symm (by omega), hdata]
    · rw [hgot, Nat.add_assoc]
  · intro hover
    rw [hstep, if_pos (by omega)]

/-- Where the reader is after `n` sane answers. -/
inductive Progress (answers : Nat → Option Bytes) (n : Nat) : BumpReader → Prop
  | selecting : n = 0 → Progress answers n .selecting
  | length {r : Bytes} : n = 1 → answers 0 = some r → Succeeds r → Progress answers n .readingLength
  | reads {i : Nat} {x : BumpReader} : n = 2 + i → SaneReads answers (declaredLength answers) → i ≤ (received answers i).length →
      (∀ j < i, ∃ r, answers (2 + j) = some r ∧ Succeeds r) → 2 + (received answers i).length < declaredLength answers →
      AtRead answers (declaredLength answers) i x → Progress answers n x
  | failed {e : ReaderEnd} : IsError e → Progress answers n (ended e)
  | imported {k : Nat} : 2 + k ≤ n → (received answers k).length + 2 = declaredLength answers →
      Progress answers n (ended (.imported (received answers k)))

/-- The head of the loop after sane reads. -/
theorem progress_atRead {i : Nat} {x : BumpReader} (hs : SaneReads answers (declaredLength answers))
    (hi : i ≤ (received answers i).length) (hall : ∀ j < i, ∃ r, answers (2 + j) = some r ∧ Succeeds r)
    (hle : 2 + (received answers i).length ≤ declaredLength answers) (h : AtRead answers (declaredLength answers) i x) :
    Progress answers (2 + i) x := by
  rcases Nat.lt_or_eq_of_le hle with hmore | hdone
  · exact .reads rfl hs hi hall hmore h
  · obtain ⟨data, hlen, hdata, rfl⟩ := h
    have hwhole : data = received answers i := by
      rw [← hdata, slice, List.drop_zero, List.take_of_length_le (by omega)]
    have hend : loop (declaredLength answers) data (2 + (received answers i).length) = ended (.imported (received answers i)) := by
      rw [loop, if_neg (by omega), hwhole]
    rw [hend]
    exact .imported (Nat.le_refl _) (by omega)

/-- The answer to the selection. -/
theorem progress_select (hsane : Sane answers) : Progress answers 1 (run answers 1) := by
  cases h0 : answers 0 with
  | none =>
    rw [run, run, h0]
    exact .failed (Or.inr (Or.inr rfl))
  | some r =>
    by_cases hr : Succeeds r
    · rw [run, run, h0, respond, checked_success hr]
      exact .length rfl h0 hr
    · rw [run, run, h0, respond, checked_failure (hsane r h0).1 hr]
      exact .failed (Or.inl rfl)

/-- The answer to the length read. -/
theorem progress_length {r : Bytes} (hsane : Sane answers) (h0 : answers 0 = some r) (hr : Succeeds r) :
    Progress answers 2 (run answers 2) := by
  have hone : run answers 1 = readingLength := by
    rw [run, run, h0, respond, checked_success hr]
  cases h1 : answers 1 with
  | none =>
    rw [run, hone, h1]
    exact .failed (Or.inr (Or.inr rfl))
  | some r' =>
    obtain ⟨hlen, hnext⟩ := (hsane r h0).2 hr r' h1
    by_cases hr' : Succeeds r'
    · obtain ⟨-, hmin, hmax, hreads⟩ := hnext hr'
      exact progress_atRead hreads (Nat.zero_le _) (fun j hj => absurd hj (Nat.not_lt_zero j)) hmin
        ((run_two h0 hr h1 hr').1 ⟨hmin, hmax⟩)
    · rw [run, hone, h1, respond, checked_failure hlen hr']
      exact .failed (Or.inr (Or.inl rfl))

/-- The answer to a read. -/
theorem progress_read {i : Nat} (hs : SaneReads answers (declaredLength answers)) (hi : i ≤ (received answers i).length)
    (hall : ∀ j < i, ∃ r, answers (2 + j) = some r ∧ Succeeds r) (hmore : 2 + (received answers i).length < declaredLength answers)
    (h : AtRead answers (declaredLength answers) i (run answers (2 + i))) :
    Progress answers (2 + i + 1) (run answers (2 + i + 1)) := by
  obtain ⟨data, _, _, hx⟩ := h.reading hmore
  cases ha : answers (2 + i) with
  | none =>
    rw [run, hx, ha]
    exact .failed (Or.inr (Or.inr rfl))
  | some r =>
    obtain ⟨hlen, hdata⟩ := hs i hall hmore r ha
    by_cases hr : Succeeds r
    · obtain ⟨hthree, hfits⟩ := hdata hr
      have hgot : (received answers (i + 1)).length = (received answers i).length + (r.length - 2) := by
        rw [received, ha, List.length_append, length_dataOf hlen]
      refine progress_atRead hs (by omega) ?_ (by omega) ((h.step hmore ha hr).1 (by omega))
      intro j hj
      rcases Nat.lt_succ_iff_lt_or_eq.mp hj with hj | rfl
      · exact hall j hj
      · exact ⟨r, ha, hr⟩
    · rw [run, hx, ha, respond, checked_failure hlen hr]
      exact .failed (Or.inr (Or.inl rfl))

/-- Sane answers, step by step. -/
theorem progress_run (hsane : Sane answers) (n : Nat) : Progress answers n (run answers n) := by
  induction n with
  | zero => exact .selecting rfl
  | succ n ih =>
    generalize hx : run answers n = x at ih
    cases ih with
    | selecting hn =>
      subst hn
      exact progress_select hsane
    | length hn h0 hr =>
      subst hn
      exact progress_length hsane h0 hr
    | reads hn hs hi hall hmore h =>
      subst hn
      rw [← hx] at h
      exact progress_read hs hi hall hmore h
    | failed he =>
      rw [run_ended hx 1]
      exact .failed he
    | imported hk hlen =>
      rw [run_ended hx 1]
      exact .imported (hk.trans (Nat.le_succ n)) hlen

/-- A malformed answer among sane ones is a failure, and ends the reader. -/
theorem rejects_of_sane (hsane : Sane answers) (n : Nat) (hbad : Malformed (run answers n) (answers n)) :
    ∃ e, IsError e ∧ run answers (n + 1) = ended e := by
  have hp := progress_run hsane n
  cases ha : answers n with
  | none =>
    rw [ha] at hbad
    cases hx : run answers n <;> rw [hx] at hbad <;> exact hbad.elim
  | some r =>
    rw [ha] at hbad
    rw [run, ha]
    cases hx : run answers n with
    | selecting =>
      rw [hx] at hp hbad
      cases hp with
      | reads _ _ _ _ hmore h =>
        obtain ⟨_, _, _, hn⟩ := h.reading hmore
        cases hn
      | selecting hn =>
        subst hn
        exact absurd (hsane r ha).1 (Nat.not_le.mpr hbad)
    | readingLength =>
      rw [hx] at hp hbad
      cases hp with
      | reads _ _ _ _ hmore h =>
        obtain ⟨_, _, _, hn⟩ := h.reading hmore
        cases hn
      | length hn h0 hr0 =>
        subst hn
        obtain ⟨hlen, hnext⟩ := (hsane _ h0).2 hr0 r ha
        have hr : ¬Succeeds r := fun hr => hbad (hnext hr).1
        exact ⟨.badData, Or.inr (Or.inl rfl), checked_failure hlen hr ..⟩
    | reading payloadLength data offset =>
      rw [hx] at hp hbad
      cases hp with
      | @reads i _ hn hs hi hall hmore h =>
        subst hn
        obtain ⟨data', -, -, hreading⟩ := h.reading hmore
        obtain ⟨rfl, -, rfl⟩ := BumpReader.reading.inj hreading
        obtain ⟨hlen, hdata⟩ := hs i hall hmore r ha
        have hr : ¬Succeeds r := by
          intro hr
          obtain ⟨hthree, hfits⟩ := hdata hr
          rcases hbad with hshort | hlong <;> omega
        exact ⟨.badData, Or.inr (Or.inl rfl), checked_failure hlen hr ..⟩
    | ended e =>
      rw [hx] at hbad
      exact hbad.elim

theorem survives_of_sane (hsane : Sane answers) : Survives answers where
  ends := by
    refine ⟨2 + declaredLength answers, Nat.le_refl _, ?_⟩
    have hp := progress_run hsane (2 + declaredLength answers)
    cases hx : run answers (2 + declaredLength answers) with
    | ended e => exact ⟨e, rfl⟩
    | selecting =>
      rw [hx] at hp
      cases hp with
      | reads hn _ hi _ hmore _ => omega
      | selecting hn => omega
    | readingLength =>
      rw [hx] at hp
      cases hp with
      | reads hn _ hi _ hmore _ => omega
      | length hn _ _ => omega
    | reading payloadLength data offset =>
      rw [hx] at hp
      cases hp with
      | @reads i _ hn _ hi _ hmore _ =>
        obtain rfl : i = declaredLength answers := by omega
        omega
  noThrow := by
    intro n e hx
    have hp := progress_run hsane n
    rw [hx] at hp
    cases hp with
    | reads _ _ _ _ hmore h =>
      obtain ⟨_, _, _, hn⟩ := h.reading hmore
      cases hn
    | failed he => rcases he with he | he | he <;> cases he
  rejects := rejects_of_sane hsane
  imports := by
    intro n data hx
    have hp := progress_run hsane n
    rw [hx] at hp
    cases hp with
    | reads _ _ _ _ hmore h =>
      obtain ⟨_, _, _, hn⟩ := h.reading hmore
      cases hn
    | failed he => rcases he with he | he | he <;> cases he
    | imported hk hlen => exact ⟨hlen, _, hk, rfl⟩

/-- The reader is at its loop as long as the reads succeed and do not bring everything. -/
theorem atRead_of_reads {length : Nat} (h0 : AtRead answers length 0 (run answers 2)) (i : Nat)
    (hall : ∀ j < i, ∃ r, answers (2 + j) = some r ∧ Succeeds r) (hmore : 2 + (received answers i).length < length) :
    AtRead answers length i (run answers (2 + i)) := by
  induction i with
  | zero => exact h0
  | succ i ih =>
    have hgrow : (received answers i).length ≤ (received answers (i + 1)).length := received_mono (Nat.le_add_right i 1)
    have hi := ih (fun j hj => hall j (Nat.lt_succ_of_lt hj)) (by omega)
    obtain ⟨r, ha, hr⟩ := hall i (Nat.lt_succ_self i)
    exact (hi.step (by omega) ha hr).1 hmore.le

theorem sane_of_survives (h : Survives answers) : Sane answers := by
  intro r h0
  have hlen : 2 ≤ r.length := by
    by_contra hshort
    have hthrow : run answers 1 = ended (.thrown .indexOutOfBounds) := by
      rw [run, run, h0, respond, checked_short (by omega)]
    exact h.noThrow 1 _ hthrow
  refine ⟨hlen, ?_⟩
  intro hr r' h1
  have hone : run answers 1 = readingLength := by
    rw [run, run, h0, respond, checked_success hr]
  have hlen' : 2 ≤ r'.length := by
    by_contra hshort
    have hthrow : run answers 2 = ended (.thrown .indexOutOfBounds) := by
      rw [run, hone, h1, respond, checked_short (by omega)]
    exact h.noThrow 2 _ hthrow
  refine ⟨hlen', ?_⟩
  intro hr'
  obtain ⟨hread, hthrow⟩ := run_two h0 hr h1 hr'
  have hbounds : 2 ≤ declaredLength answers ∧ declaredLength answers ≤ 32767 := by
    by_contra hbad
    exact h.noThrow 2 _ (hthrow hbad)
  have hloop := hread hbounds
  refine ⟨?_, hbounds.1, hbounds.2, ?_⟩
  · by_contra hfour
    have hbad : Malformed (run answers 1) (answers 1) := by rw [hone, h1]; exact hfour
    obtain ⟨e, he, hend⟩ := h.rejects 1 hbad
    obtain ⟨data, -, -, hrun⟩ := hloop
    rw [hend, loop] at hrun
    split at hrun
    · cases hrun
    · obtain rfl := BumpReader.ended.inj hrun
      rcases he with he | he | he <;> cases he
  · intro i hall hmore c hc
    have hi := atRead_of_reads hloop i hall hmore
    obtain ⟨data, -, -, hreading⟩ := hi.reading hmore
    have hshort : 2 ≤ c.length := by
      by_contra hshort
      refine h.noThrow (2 + i + 1) .indexOutOfBounds ?_
      rw [run, hreading, hc, respond, checked_short (by omega)]
    refine ⟨hshort, ?_⟩
    intro hs
    by_contra hbad
    have hmal : Malformed (run answers (2 + i)) (answers (2 + i)) := by
      rw [hreading, hc]
      change c.length < 3 ∨ min 253 (((declaredLength answers : Nat) : Int) - (2 + (received answers i).length : Nat)) <
        (c.length : Int) - 2
      omega
    obtain ⟨e, he, hend⟩ := h.rejects _ hmal
    obtain ⟨hfit, hover⟩ := hi.step hmore hc hs
    rcases Nat.lt_or_ge (declaredLength answers) (2 + (received answers (i + 1)).length) with hlt | hge
    · exact h.noThrow _ _ (hover hlt)
    · obtain ⟨data, -, -, hrun⟩ := hfit hge
      rw [← Nat.add_assoc, hend, loop] at hrun
      split at hrun
      · cases hrun
      · obtain rfl := BumpReader.ended.inj hrun
        rcases he with he | he | he <;> cases he

end BumpPeerAux

open BumpPeerAux BumpReader

/-- The reader gets through whatever a peer answers, for every sequence of answers, if and only if the answers are sane. -/
theorem bump_reader_survives (answers : Nat → Option Bytes) : Survives answers ↔ Sane answers :=
  ⟨sane_of_survives, survives_of_sane⟩

/-- A peer that declares a length of one makes the reader throw. -/
theorem bump_reader_throws :
    ¬Survives fun n => some (if n = 1 then [0x00, 0x01, 0x90, 0x00] else [0x90, 0x00]) := by
  intro h
  have hdecl : declaredLength (fun n => some (if n = 1 then [0x00, 0x01, 0x90, 0x00] else [0x90, 0x00])) = 1 := readBe16_toNat ..
  have hok : Succeeds [0x90, 0x00] := rfl
  have hlength : Succeeds [0x00, 0x01, 0x90, 0x00] := rfl
  have hbad : run (fun n => some (if n = 1 then [0x00, 0x01, 0x90, 0x00] else [0x90, 0x00])) 2 =
      ended (.thrown .negativeArraySize) := by
    refine (run_two rfl hok rfl hlength).2 ?_
    rw [hdecl]
    omega
  exact h.noThrow 2 _ hbad

end PsiphonAndroid
