import PsiphonAndroid.Upgrade.DataPackage

/-!
# What an authenticated data package proves

`stringFields` reads the string fields of the package on its own. The loop ends, and where it ends normally its variables are those
fields, and the bytes in the destination are the bytes the verifier was given.
-/

namespace PsiphonAndroid

open Lib

/-- The string fields of an object, from the place of the loop on, in their order and with repetitions. -/
def stringFields : ParseMode → List JsonToken → List (String × StringValue)
  | _, [] => []
  | .field, .fieldName name :: tokens => stringFields (.value name) tokens
  | .field, _ :: _ => []
  | .value name, .valueString value :: tokens => (name, value) :: stringFields .field tokens
  | .value _, .startObject :: tokens => stringFields (.skipChildren 1) tokens
  | .value _, .startArray :: tokens => stringFields (.skipChildren 1) tokens
  | .value _, _ :: tokens => stringFields .field tokens
  | .skipChildren opened, .startObject :: tokens => stringFields (.skipChildren (opened + 1)) tokens
  | .skipChildren opened, .startArray :: tokens => stringFields (.skipChildren (opened + 1)) tokens
  | .skipChildren opened, .endObject :: tokens => stringFields (if opened = 1 then .field else .skipChildren (opened - 1)) tokens
  | .skipChildren opened, .endArray :: tokens => stringFields (if opened = 1 then .field else .skipChildren (opened - 1)) tokens
  | .skipChildren opened, _ :: tokens => stringFields (.skipChildren opened) tokens

/-- The string fields of a package. -/
def JsonInput.stringFields (dataPackage : JsonInput) : List (String × StringValue) :=
  PsiphonAndroid.stringFields .field dataPackage.tokens.tail

/-- The text of the last field of a name, after `before`. -/
def lastText (name : String) (before : Option String) (fields : List (String × StringValue)) : Option String :=
  fields.foldl (fun text field => if field.1 = name then field.2.text else text) before

/-- The bytes a signature is made on. -/
def signedData (dataIsBase64 : Bool) (data : Bytes) : Bytes := if dataIsBase64 then base64 data else data

/-- A package authenticates some data under a key: it has the fields `data`, `signature` and `signingPublicKeyDigest` as strings, the
digest is the one of the key, and the last signature is one of the data. -/
def Authenticates (sec : Security) (signaturePublicKey : String) (dataPackage : JsonInput) (dataIsBase64 : Bool) (data : Bytes) : Prop :=
  (∃ value, ("data", value) ∈ dataPackage.stringFields) ∧
  lastText "signingPublicKeyDigest" none dataPackage.stringFields =
    some (base64EncodeToString (sec.sha256 (getBytes signaturePublicKey))) ∧
  ∃ publicKeyBytes signature signatureBytes, sec.base64Decode signaturePublicKey = some publicKeyBytes ∧
    lastText "signature" none dataPackage.stringFields = some signature ∧ sec.base64Decode signature = some signatureBytes ∧
    sec.verify publicKeyBytes (signedData dataIsBase64 data) signatureBytes = some true

namespace DataPackageAux

variable {disk : Disk}

/-! ## The destination and the verifier -/

/-- While the first value is written: the verifier is given what is written. -/
def Writing (v : VerifyingOutputStream) : Prop :=
  v.out.closed = false ∧ (if v.dataIsBase64 then v.verifier.Encodes v.out.written else v.verifier = ⟨v.out.written, []⟩)

/-- After the first value: the verifier was given the bytes that are signed, and nothing can follow. -/
def Written (v : VerifyingOutputStream) : Prop :=
  v.out.closed = true ∧ v.verifier = ⟨signedData v.dataIsBase64 v.out.written, []⟩

theorem writing_new (dataIsBase64 : Bool) : Writing (.new dataIsBase64 .new) := by
  refine ⟨rfl, ?_⟩
  cases dataIsBase64 with
  | true => exact Base64Encoder.encodes_new
  | false => rfl

/-- A write that does not throw. -/
theorem destination_write {d d' : Destination} {b : Bytes} (h : d.write disk b = (d', none)) :
    d'.written = d.written ++ b ∧ d'.closed = d.closed ∧ (d.closed = true → b = []) := by
  unfold Destination.write at h
  split at h
  · cases h
  · rename_i hclosed
    split at h
    · cases h
    · obtain rfl := (Prod.mk.inj h).1
      exact ⟨rfl, rfl, fun hc => by_contra fun hb => hclosed ⟨hc, hb⟩⟩

theorem stream_write {v v' : VerifyingOutputStream} {b : Bytes} (h : v.write disk b = (v', none)) :
    ∃ d, v.out.write disk b = (d, none) ∧ v' = { v with
      out := d
      verifier := v.verifyWrite b } := by
  unfold VerifyingOutputStream.write at h
  split at h
  · cases h
  · rename_i d hd
    exact ⟨d, hd, (Prod.mk.inj h).1.symm⟩

theorem stream_close {v v' : VerifyingOutputStream} (h : v.close disk = (v', none)) :
    v' = { v with
      out := { v.out with
        closed := true
        calls := v.out.calls + 1 }
      verifier := v.verifyClose } := by
  unfold VerifyingOutputStream.close at h
  split at h
  · cases h
  · rename_i d hd
    obtain rfl := (Prod.mk.inj hd).1
    exact (Prod.mk.inj h).1.symm

theorem write_dataIsBase64 {v v' : VerifyingOutputStream} {b : Bytes} (h : v.write disk b = (v', none)) :
    v'.dataIsBase64 = v.dataIsBase64 := by
  obtain ⟨d, -, rfl⟩ := stream_write h
  rfl

theorem close_dataIsBase64 {v v' : VerifyingOutputStream} (h : v.close disk = (v', none)) : v'.dataIsBase64 = v.dataIsBase64 := by
  obtain rfl := stream_close h
  rfl

theorem Writing.write {v v' : VerifyingOutputStream} {b : Bytes} (hv : Writing v) (h : v.write disk b = (v', none)) :
    Writing v' := by
  obtain ⟨hopen, hverifier⟩ := hv
  obtain ⟨d, hd, rfl⟩ := stream_write h
  obtain ⟨hwritten, hclosed, -⟩ := destination_write hd
  refine ⟨hclosed.trans hopen, ?_⟩
  dsimp only
  unfold VerifyingOutputStream.verifyWrite
  rw [hwritten]
  split
  · rename_i hb
    rw [if_pos hb] at hverifier
    exact hverifier.write b
  · rename_i hb
    rw [if_neg hb] at hverifier
    rw [hverifier]

theorem Writing.close {v v' : VerifyingOutputStream} (hv : Writing v) (h : v.close disk = (v', none)) : Written v' := by
  obtain ⟨-, hverifier⟩ := hv
  obtain rfl := stream_close h
  refine ⟨rfl, ?_⟩
  dsimp only
  unfold VerifyingOutputStream.verifyClose signedData
  split
  · rename_i hb
    rw [if_pos hb] at hverifier
    exact Base64Encoder.mk.injEq .. ▸ ⟨hverifier.finish, rfl⟩
  · rename_i hb
    rw [if_neg hb] at hverifier
    exact hverifier

/-- A closed destination takes only what is empty, and the verifier is given nothing. -/
theorem Written.write {v v' : VerifyingOutputStream} {b : Bytes} (hv : Written v) (h : v.write disk b = (v', none)) :
    Written v' := by
  obtain ⟨hclosed, hverifier⟩ := hv
  obtain ⟨d, hd, rfl⟩ := stream_write h
  obtain ⟨hwritten, hc, hempty⟩ := destination_write hd
  obtain rfl := hempty hclosed
  refine ⟨hc.trans hclosed, ?_⟩
  dsimp only
  rw [hwritten, List.append_nil, ← hverifier]
  unfold VerifyingOutputStream.verifyWrite
  split
  · exact Base64Encoder.write_nil_of_tail (by rw [hverifier])
  · rw [List.append_nil]

theorem Written.close {v v' : VerifyingOutputStream} (hv : Written v) (h : v.close disk = (v', none)) : Written v' := by
  obtain ⟨-, hverifier⟩ := hv
  obtain rfl := stream_close h
  refine ⟨rfl, ?_⟩
  dsimp only
  rw [← hverifier]
  unfold VerifyingOutputStream.verifyClose
  split
  · exact Base64Encoder.finish_of_tail (by rw [hverifier])
  · rfl

/-- What every write keeps, all pieces of a value keep. -/
theorem writeChunks_keeps {P : VerifyingOutputStream → Prop}
    (hP : ∀ {v v' : VerifyingOutputStream} {b : Bytes}, P v → v.write disk b = (v', none) → P v') (chunks : List Bytes) :
    ∀ {v v' : VerifyingOutputStream}, P v → v.writeChunks disk chunks = (v', none) → P v' := by
  induction chunks with
  | nil =>
    intro v v' hv h
    exact (Prod.mk.inj h).1 ▸ hv
  | cons b rest ih =>
    intro v v' hv h
    rw [VerifyingOutputStream.writeChunks] at h
    split at h
    · cases h
    · rename_i v₁ hw
      exact ih (hP hv hw) h

/-- The value of `data` is written by writes alone, and then the streams are closed. -/
theorem readData_keeps {P : VerifyingOutputStream → Prop}
    (hP : ∀ {v v' : VerifyingOutputStream} {b : Bytes}, P v → v.write disk b = (v', none) → P v') {s : ExtractState}
    {value : StringValue} {v : VerifyingOutputStream} (hs : P s.verifyingOutputStream) (h : s.readData disk value = (v, none)) :
    ∃ v', P v' ∧ v'.close disk = (v, none) := by
  unfold ExtractState.readData at h
  dsimp only at h
  split at h
  · cases h
  · rename_i v' hwritten
    refine ⟨v', ?_, h⟩
    split at hwritten
    · split at hwritten
      · cases hwritten
      · rename_i v₁ hchunks
        obtain rfl := (Prod.mk.inj hwritten).1
        exact writeChunks_keeps hP value.chunks hs hchunks
    · split at hwritten
      · cases hwritten
      · exact hP hs hwritten

theorem readData_dataIsBase64 {s : ExtractState} {value : StringValue} {v : VerifyingOutputStream}
    (h : s.readData disk value = (v, none)) : v.dataIsBase64 = s.verifyingOutputStream.dataIsBase64 := by
  obtain ⟨v', hv', hclose⟩ := readData_keeps (P := fun w => w.dataIsBase64 = s.verifyingOutputStream.dataIsBase64)
    (fun hv hw => (write_dataIsBase64 hw).trans hv) rfl h
  exact (close_dataIsBase64 hclose).trans hv'

/-! ## The loop -/

/-- The variables of the loop: whether a value was read, and what the destination and the verifier then are. -/
def Sound (s : ExtractState) : Prop :=
  if s.dataValueRead then Written s.verifyingOutputStream else Writing s.verifyingOutputStream

/-- A value of `data`, the first one or a later one. -/
theorem Sound.readData {s : ExtractState} {value : StringValue} {v : VerifyingOutputStream} (hs : Sound s)
    (h : s.readData disk value = (v, none)) : Written v := by
  unfold Sound at hs
  split at hs
  · obtain ⟨v', hv', hclose⟩ := readData_keeps Written.write hs h
    exact hv'.close hclose
  · obtain ⟨v', hv', hclose⟩ := readData_keeps Writing.write hs h
    exact hv'.close hclose

/-- What reading some string fields leaves of the variables. -/
structure ReadsFields (s r : ExtractState) (fields : List (String × StringValue)) : Prop where
  sound : Sound s → Sound r
  dataIsBase64 : r.verifyingOutputStream.dataIsBase64 = s.verifyingOutputStream.dataIsBase64
  data : r.dataValueRead = (s.dataValueRead || fields.any fun field => field.1 = "data")
  signature : r.signature = lastText "signature" s.signature fields
  signingPublicKeyDigest : r.signingPublicKeyDigest = lastText "signingPublicKeyDigest" s.signingPublicKeyDigest fields

theorem ReadsFields.refl (s : ExtractState) : ReadsFields s s [] :=
  ⟨id, rfl, (Bool.or_false _).symm, rfl, rfl⟩

theorem ReadsFields.trans {s t r : ExtractState} {fields fields' : List (String × StringValue)} (h : ReadsFields s t fields)
    (h' : ReadsFields t r fields') : ReadsFields s r (fields ++ fields') where
  sound hs := h'.sound (h.sound hs)
  dataIsBase64 := h'.dataIsBase64.trans h.dataIsBase64
  data := by rw [h'.data, h.data, List.any_append, Bool.or_assoc]
  signature := by rw [h'.signature, h.signature, lastText, lastText, lastText, List.foldl_append]
  signingPublicKeyDigest := by
    rw [h'.signingPublicKeyDigest, h.signingPublicKeyDigest, lastText, lastText, lastText, List.foldl_append]

/-- A string field that does not end the loop. -/
theorem readString_more {s s' : ExtractState} {name : String} {value : StringValue} {mode : ParseMode}
    (h : s.readString disk name value = .more mode s') : mode = .field ∧ ReadsFields s s' [(name, value)] := by
  unfold ExtractState.readString at h
  split at h
  · rename_i hname
    split at h
    · cases h
    · rename_i v hdata
      obtain ⟨rfl, rfl⟩ := ParseTurn.more.inj h
      subst hname
      exact ⟨rfl, fun hs => hs.readData hdata, readData_dataIsBase64 hdata, by simp, by simp [lastText], by simp [lastText]⟩
  · rename_i hdata
    split at h
    · rename_i hname
      split at h
      · cases h
      · rename_i text htext
        obtain ⟨rfl, rfl⟩ := ParseTurn.more.inj h
        subst hname
        exact ⟨rfl, id, rfl, by simp, by simp [lastText, htext], by simp [lastText]⟩
    · rename_i hsignature
      split at h
      · rename_i hname
        split at h
        · cases h
        · rename_i text htext
          obtain ⟨rfl, rfl⟩ := ParseTurn.more.inj h
          subst hname
          exact ⟨rfl, id, rfl, by simp, by simp [lastText], by simp [lastText, htext]⟩
      · rename_i hdigest
        obtain ⟨rfl, rfl⟩ := ParseTurn.more.inj h
        exact ⟨rfl, id, rfl, by simp [hdata], by simp [lastText, hsignature], by simp [lastText, hdigest]⟩

theorem readString_stop {s s' : ExtractState} {name : String} {value : StringValue} {thrown : Option PackageException}
    (h : s.readString disk name value = .stop s' thrown) : thrown ≠ none := by
  unfold ExtractState.readString at h
  split at h
  · split at h
    · obtain ⟨-, rfl⟩ := ParseTurn.stop.inj h
      exact Option.some_ne_none _
    · cases h
  · split at h
    · split at h
      · obtain ⟨-, rfl⟩ := ParseTurn.stop.inj h
        exact Option.some_ne_none _
      · cases h
    · split at h
      · split at h
        · obtain ⟨-, rfl⟩ := ParseTurn.stop.inj h
          exact Option.some_ne_none _
        · cases h
      · cases h

/-- A turn of the loop at a token that does not end it reads the string field that ends there, if any. -/
theorem turn_more {s s' : ExtractState} {mode mode' : ParseMode} {token : JsonToken}
    (h : s.turn disk mode (some token) = .more mode' s') :
    ∃ fields, ReadsFields s s' fields ∧ ∀ tokens, stringFields mode (token :: tokens) = fields ++ stringFields mode' tokens := by
  cases mode with
  | field =>
    cases token <;> try cases h
    exact ⟨[], .refl s, fun _ => rfl⟩
  | value name =>
    cases token with
    | valueString value =>
      obtain ⟨rfl, hfields⟩ := readString_more h
      exact ⟨_, hfields, fun _ => rfl⟩
    | _ =>
      obtain ⟨rfl, rfl⟩ := ParseTurn.more.inj h
      exact ⟨[], .refl s, fun _ => rfl⟩
  | skipChildren opened =>
    cases token <;> (obtain ⟨rfl, rfl⟩ := ParseTurn.more.inj h; exact ⟨[], .refl s, fun _ => rfl⟩)

/-- A turn at the end of the input that does not end the loop. -/
theorem turn_none {s s' : ExtractState} {mode mode' : ParseMode} (h : s.turn disk mode none = .more mode' s') :
    mode' = .field ∧ s' = s := by
  cases mode with
  | field => cases h
  | value name =>
    obtain ⟨rfl, rfl⟩ := ParseTurn.more.inj h
    exact ⟨rfl, rfl⟩
  | skipChildren opened =>
    obtain ⟨rfl, rfl⟩ := ParseTurn.more.inj h
    exact ⟨rfl, rfl⟩

/-- The loop ends without an exception only at the end of the object. -/
theorem turn_stop {s s' : ExtractState} {mode : ParseMode} {token : Option JsonToken} (h : s.turn disk mode token = .stop s' none) :
    s' = s ∧ mode = .field ∧ token = some .endObject := by
  cases mode with
  | field =>
    cases token with
    | none => cases h
    | some token =>
      cases token <;> cases h
      exact ⟨rfl, rfl, rfl⟩
  | value name =>
    cases token with
    | none => cases h
    | some token =>
      cases token with
      | valueString value => exact absurd rfl (readString_stop h)
      | _ => cases h
  | skipChildren opened =>
    cases token with
    | none => cases h
    | some token => cases token <;> cases h

theorem stringFields_nil (mode : ParseMode) : stringFields mode [] = [] := by cases mode <;> rfl

/-- The variables of the loop where it ends normally are the string fields of the object. -/
theorem parseLoop_reads {broken : Bool} (fuel : Nat) : ∀ {tokens : List JsonToken} {mode : ParseMode} {s r : ExtractState},
    s.parseLoop disk broken fuel tokens mode = some (r, none) → ReadsFields s r (stringFields mode tokens) := by
  induction fuel with
  | zero => exact nofun
  | succ fuel ih =>
    intro tokens mode s r h
    rw [ExtractState.parseLoop] at h
    split at h
    · cases h
    · split at h
      · rename_i s' thrown hturn
        obtain ⟨rfl, rfl⟩ := Prod.mk.inj (Option.some.inj h)
        obtain ⟨rfl, rfl, htoken⟩ := turn_stop hturn
        cases tokens with
        | nil => cases htoken
        | cons token tokens =>
          obtain rfl := Option.some.inj htoken
          exact .refl _
      · rename_i mode' s' hturn
        cases tokens with
        | nil =>
          obtain ⟨rfl, rfl⟩ := turn_none hturn
          rw [stringFields_nil, ← stringFields_nil .field]
          exact ih h
        | cons token tokens =>
          obtain ⟨fields, hreads, hfields⟩ := turn_more hturn
          rw [hfields]
          exact hreads.trans (ih h)

/-- The loop ends: after the last token it asks for at most two more. -/
theorem parseLoop_ends {broken : Bool} (fuel : Nat) : ∀ {tokens : List JsonToken} {mode : ParseMode} {s : ExtractState},
    (tokens.length + 2 ≤ fuel ∨ tokens = [] ∧ mode = .field ∧ 1 ≤ fuel) →
    (s.parseLoop disk broken fuel tokens mode).isSome = true := by
  induction fuel with
  | zero => omega
  | succ fuel ih =>
    intro tokens mode s hfuel
    rw [ExtractState.parseLoop]
    split
    · rfl
    · split
      · rfl
      · rename_i mode' s' hturn
        cases tokens with
        | nil =>
          obtain ⟨rfl, rfl⟩ := turn_none hturn
          rcases hfuel with hfuel | ⟨-, rfl, -⟩
          · exact ih (Or.inr ⟨rfl, rfl, Nat.le_of_succ_le_succ hfuel⟩)
          · cases hturn
        | cons token tokens =>
          rcases hfuel with hfuel | ⟨hnil, -⟩
          · exact ih (Or.inl (Nat.le_of_succ_le_succ hfuel))
          · cases hnil

theorem parsePackage_ends (fuel : Nat) {dataPackage : JsonInput} {s : ExtractState} (hfuel : dataPackage.tokens.length + 2 ≤ fuel) :
    (parsePackage disk fuel dataPackage s).isSome = true := by
  unfold parsePackage
  split
  · rename_i tokens htokens
    rw [htokens, List.length_cons] at hfuel
    exact parseLoop_ends fuel (Or.inl (by omega))
  · rfl

theorem parsePackage_reads {fuel : Nat} {dataPackage : JsonInput} {s r : ExtractState}
    (h : parsePackage disk fuel dataPackage s = some (r, none)) : ReadsFields s r dataPackage.stringFields := by
  unfold parsePackage at h
  split at h
  · rename_i tokens htokens
    unfold JsonInput.stringFields
    rw [htokens]
    exact parseLoop_reads fuel h
  · cases h

/-- The checks after the loop, where they throw nothing. -/
theorem verifyData_none {sec : Security} {signaturePublicKey : String} {publicKeyBytes : Bytes} {s : ExtractState}
    (h : s.verifyData sec signaturePublicKey publicKeyBytes = none) :
    s.dataValueRead = true ∧ s.signingPublicKeyDigest = some (base64EncodeToString (sec.sha256 (getBytes signaturePublicKey))) ∧
    ∃ signature signatureBytes, s.signature = some signature ∧ sec.base64Decode signature = some signatureBytes ∧
      sec.verify publicKeyBytes s.verifyingOutputStream.verifier.out signatureBytes = some true := by
  unfold ExtractState.verifyData at h
  split at h
  · rename_i signature digest hread hsignature hdigest
    split at h
    · cases h
    · rename_i hequal
      split at h
      · cases h
      · rename_i signatureBytes hdecode
        split at h
        · cases h
        · cases h
        · rename_i hverify
          exact ⟨hread, by rw [hdigest, not_ne_iff.mp hequal], signature, signatureBytes, hsignature, hdecode, hverify⟩
  · cases h

/-- What the destination of the `finally` block holds. -/
theorem close_written (v : VerifyingOutputStream) : (v.close disk).1.out.written = v.out.written := by
  unfold VerifyingOutputStream.close Destination.close
  cases disk.closeFault v.out <;> rfl

/-- A normal return. -/
theorem extract_authenticates {sec : Security} {fuel : Nat} {signaturePublicKey : String} {dataPackage : JsonInput}
    {dataIsBase64 : Bool} {d : Destination}
    (h : extractAndVerifyData sec disk fuel signaturePublicKey dataPackage dataIsBase64 .new = some (d, none)) :
    Authenticates sec signaturePublicKey dataPackage dataIsBase64 d.written := by
  unfold extractAndVerifyData at h
  split at h
  · cases h
  · rename_i publicKeyBytes hkey
    split at h
    · split at h
      · cases h
      · rename_i s thrown hparse
        cases thrown with
        | some e => cases h
        | none =>
          obtain ⟨hd, hthrown⟩ := Prod.mk.inj (Option.some.inj h)
          obtain ⟨hread, hdigest, signature, signatureBytes, hsignature, hdecode, hverify⟩ :=
            verifyData_none (Option.map_eq_none_iff.mp hthrown)
          have hfields := parsePackage_reads hparse
          have hsound := hfields.sound (writing_new dataIsBase64)
          unfold Sound at hsound
          rw [if_pos hread] at hsound
          have hdata := hfields.data
          rw [hread, Bool.false_or] at hdata
          obtain ⟨field, hmem, hname⟩ := List.any_eq_true.mp hdata.symm
          obtain ⟨name, value⟩ := field
          obtain rfl : name = "data" := of_decide_eq_true hname
          refine ⟨⟨value, hmem⟩, hfields.signingPublicKeyDigest.symm.trans hdigest, publicKeyBytes, signature, signatureBytes, hkey,
            hfields.signature.symm.trans hsignature, hdecode, ?_⟩
          rw [← hd, close_written, ← hverify, hsound.2, hfields.dataIsBase64]
          rfl
    · cases h

theorem extract_ends {sec : Security} {fuel : Nat} {signaturePublicKey : String} {dataPackage : JsonInput} {dataIsBase64 : Bool}
    {d : Destination} (hfuel : dataPackage.tokens.length + 2 ≤ fuel) :
    (extractAndVerifyData sec disk fuel signaturePublicKey dataPackage dataIsBase64 d).isSome = true := by
  unfold extractAndVerifyData
  split
  · rfl
  · split
    · split
      · rename_i hparse
        have hends : (parsePackage disk fuel dataPackage ⟨.new dataIsBase64 d, false, none, none⟩).isSome = true :=
          parsePackage_ends fuel hfuel
        rw [hparse] at hends
        cases hends
      · rfl
    · rfl

end DataPackageAux

open DataPackageAux

/-- `extractAndVerifyData` on every input, with a destination that takes nothing after `close`.
1. It ends, after at most two calls of `nextToken` more than there are tokens.
2. It returns normally only where the package authenticates all that is in the destination. -/
theorem data_package_sound (sec : Security) (disk : Disk) (signaturePublicKey : String) (dataPackage : JsonInput)
    (dataIsBase64 : Bool) :
    (∀ fuel, dataPackage.tokens.length + 2 ≤ fuel →
      ∃ r, extractAndVerifyData sec disk fuel signaturePublicKey dataPackage dataIsBase64 .new = some r) ∧
    (∀ fuel d, extractAndVerifyData sec disk fuel signaturePublicKey dataPackage dataIsBase64 .new = some (d, none) →
      Authenticates sec signaturePublicKey dataPackage dataIsBase64 d.written) :=
  ⟨fun _ hfuel => Option.isSome_iff_exists.mp (extract_ends hfuel), fun _ _ h => extract_authenticates h⟩

namespace DataPackageAux

/-- A verifier that accepts one signature, of one text. -/
def acceptsOne : Security :=
  ⟨fun s => some (getBytes s), fun _ => [1, 2, 3], fun _ => true, fun _ m s => some (m = base64 [7, 8, 9, 10] ∧ s = [65])⟩

/-- A package of one value in two pieces, with an unknown field. -/
def twoPieces : JsonInput :=
  ⟨[.startObject, .fieldName "signature", .valueString ⟨some "A", [], none⟩, .fieldName "x", .startArray, .valueOther, .endArray,
    .fieldName "data", .valueString ⟨some "", [[7, 8], [9, 10]], none⟩, .fieldName "signingPublicKeyDigest",
    .valueString ⟨some "AQID", [], none⟩, .endObject], false⟩

end DataPackageAux

/-- The package is accepted, and authenticates the four bytes that are written. -/
theorem data_package_sound_pieces : ∃ d,
    extractAndVerifyData acceptsOne ⟨fun _ _ => none, fun _ => false⟩ 14 "key" twoPieces true .new = some (d, none) ∧
      d.written = [7, 8, 9, 10] ∧ Authenticates acceptsOne "key" twoPieces true d.written := by
  have hrun : extractAndVerifyData acceptsOne ⟨fun _ _ => none, fun _ => false⟩ 14 "key" twoPieces true .new =
      some (⟨[7, 8, 9, 10], true, 4⟩, none) := by decide +kernel
  exact ⟨_, hrun, rfl, (data_package_sound acceptsOne ⟨fun _ _ => none, fun _ => false⟩ "key" twoPieces true).2 _ _ hrun⟩

end PsiphonAndroid
