import PsiphonAndroid.Upgrade.UpgradeManager
import PsiphonAndroid.Theorems.DataPackage

/-!
# A downloaded upgrade is handled once

Whatever the downloaded file holds and whichever operation fails, it is handled and deleted, unless its extraction ends with the
`IllegalArgumentException` of `Base64.decode`, which nothing catches. That is where a text it is given is not base64: the embedded
key, or the signature of a package with the digest of that key.
-/

namespace PsiphonAndroid

open Lib DataPackageAux

/-- A text that is not base64 reaches `Base64.decode` in `extractAndVerifyData`. -/
def DecodesBadBase64 (sec : Security) (disk : Disk) (signaturePublicKey : String) (dataPackage : JsonInput) : Prop :=
  sec.base64Decode signaturePublicKey = none ∨
  ((∃ publicKeyBytes, sec.base64Decode signaturePublicKey = some publicKeyBytes ∧ sec.generatePublic publicKeyBytes = true) ∧
    (∃ s, parsePackage disk (dataPackage.tokens.length + 2) dataPackage ⟨.new true .new, false, none, none⟩ = some (s, none)) ∧
    (∃ value, ("data", value) ∈ dataPackage.stringFields) ∧
    lastText "signingPublicKeyDigest" none dataPackage.stringFields =
      some (base64EncodeToString (sec.sha256 (getBytes signaturePublicKey))) ∧
    ∃ signature, lastText "signature" none dataPackage.stringFields = some signature ∧ sec.base64Decode signature = none)

/-- The downloaded file is extracted, and such a text is decoded. -/
def ExtractsBadBase64 (p : UpgradePlatform) (io : UpgradeIo) (files : UpgradeFiles) : Prop :=
  ∃ content dataPackage, files.downloaded = some content ∧ io.openDownloaded = true ∧ p.unzip content = some dataPackage ∧
    io.createUnverified = true ∧ DecodesBadBase64 p.sec io.disk p.upgradeSignaturePublicKey dataPackage

/-- The data that the downloaded file authenticates. -/
def DownloadedData (p : UpgradePlatform) (files : UpgradeFiles) (data : Bytes) : Prop :=
  ∃ content dataPackage, files.downloaded = some content ∧ p.unzip content = some dataPackage ∧
    Authenticates p.sec p.upgradeSignaturePublicKey dataPackage true data

/-- The files are handled.
1. `getAvailableCompleteUpgradeFile` returns, and the downloaded file is gone if it could be deleted.
2. The verified file is left as it was, is deleted, or holds data that the downloaded file authenticates.
3. After an extraction that succeeds it holds such data; after one that fails it is as it was, also in the end. -/
def UpgradeHandled (p : UpgradePlatform) (io : UpgradeIo) (files : UpgradeFiles) : Prop :=
  ∃ files' available, files.getAvailableCompleteUpgradeFile p io = some (files', .ok available) ∧
    (io.deleteDownloaded = true → files'.downloaded = none) ∧
    (files'.verified = files.verified ∨ files'.verified = none ∨ ∃ data, DownloadedData p files data ∧ files'.verified = some data) ∧
    ∀ extracted success, files.extractAndVerify p io = some (extracted, .ok success) →
      (success = true → ∃ data, DownloadedData p files data ∧ extracted.verified = some data) ∧
      (success = false → extracted.verified = files.verified ∧ (files.downloaded.isSome = true → files'.verified = files.verified))

namespace UpgradeManagerAux

variable {sec : Security} {disk : Disk}

/-! ## The exceptions of an extraction -/

theorem write_thrown {v v' : VerifyingOutputStream} {b : Bytes} {e : PackageException} (h : v.write disk b = (v', some e)) :
    e = .io := by
  unfold VerifyingOutputStream.write at h
  split at h
  · rename_i hd
    obtain rfl := Option.some.inj (Prod.mk.inj h).2
    unfold Destination.write at hd
    split at hd
    · exact (Option.some.inj (Prod.mk.inj hd).2).symm
    · split at hd
      · exact (Option.some.inj (Prod.mk.inj hd).2).symm
      · cases hd
  · cases h

theorem writeChunks_thrown (chunks : List Bytes) : ∀ {v v' : VerifyingOutputStream} {e : PackageException},
    v.writeChunks disk chunks = (v', some e) → e = .io := by
  induction chunks with
  | nil => exact fun h => nomatch h
  | cons b rest ih =>
    intro v v' e h
    rw [VerifyingOutputStream.writeChunks] at h
    split at h
    · rename_i hw
      obtain rfl := Option.some.inj (Prod.mk.inj h).2
      exact write_thrown hw
    · exact ih h

theorem close_thrown {v v' : VerifyingOutputStream} {e : PackageException} (h : v.close disk = (v', some e)) : e = .io := by
  unfold VerifyingOutputStream.close at h
  split at h
  · rename_i hd
    obtain rfl := Option.some.inj (Prod.mk.inj h).2
    have hfault := (Prod.mk.inj hd).2
    split at hfault
    · exact (Option.some.inj hfault).symm
    · cases hfault
  · cases h

/-- Malformed base64 in `data` is caught where it is read. -/
theorem readData_thrown {s : ExtractState} {value : StringValue} {v : VerifyingOutputStream} {e : PackageException}
    (h : s.readData disk value = (v, some e)) : e ≠ .illegalArgument := by
  unfold ExtractState.readData at h
  dsimp only at h
  split at h
  · rename_i hwritten
    obtain rfl := Option.some.inj (Prod.mk.inj h).2
    split at hwritten
    · split at hwritten
      · rename_i hchunks
        obtain rfl := Option.some.inj (Prod.mk.inj hwritten).2
        rw [writeChunks_thrown _ hchunks]
        exact PackageException.noConfusion
      · obtain ⟨e', -, rfl⟩ := Option.map_eq_some_iff.mp (Prod.mk.inj hwritten).2
        split
        · exact PackageException.noConfusion
        · assumption
    · split at hwritten
      · obtain rfl := Option.some.inj (Prod.mk.inj hwritten).2
        exact PackageException.noConfusion
      · rw [write_thrown hwritten]
        exact PackageException.noConfusion
  · rw [close_thrown h]
    exact PackageException.noConfusion

theorem readString_thrown {s s' : ExtractState} {name : String} {value : StringValue} {e : PackageException}
    (h : s.readString disk name value = .stop s' (some e)) : e ≠ .illegalArgument := by
  unfold ExtractState.readString at h
  split at h
  · split at h
    · rename_i hdata
      obtain ⟨-, he⟩ := ParseTurn.stop.inj h
      obtain rfl := Option.some.inj he
      exact readData_thrown hdata
    · cases h
  · split at h
    · split at h
      · obtain ⟨-, he⟩ := ParseTurn.stop.inj h
        obtain rfl := Option.some.inj he
        exact PackageException.noConfusion
      · cases h
    · split at h
      · split at h
        · obtain ⟨-, he⟩ := ParseTurn.stop.inj h
          obtain rfl := Option.some.inj he
          exact PackageException.noConfusion
        · cases h
      · cases h

theorem turn_thrown {s s' : ExtractState} {mode : ParseMode} {token : Option JsonToken} {e : PackageException}
    (h : s.turn disk mode token = .stop s' (some e)) : e ≠ .illegalArgument := by
  cases mode with
  | field =>
    cases token with
    | none =>
      obtain ⟨-, he⟩ := ParseTurn.stop.inj h
      obtain rfl := Option.some.inj he
      exact PackageException.noConfusion
    | some token =>
      cases token <;> cases h <;> exact PackageException.noConfusion
  | value name =>
    cases token with
    | none => cases h
    | some token =>
      cases token with
      | valueString value => exact readString_thrown h
      | _ => cases h
  | skipChildren opened =>
    cases token with
    | none => cases h
    | some token => cases token <;> cases h

/-- The loop throws no `IllegalArgumentException`. -/
theorem parseLoop_thrown {broken : Bool} (fuel : Nat) : ∀ {tokens : List JsonToken} {mode : ParseMode} {s r : ExtractState}
    {e : PackageException}, s.parseLoop disk broken fuel tokens mode = some (r, some e) → e ≠ .illegalArgument := by
  induction fuel with
  | zero => exact fun h => nomatch h
  | succ fuel ih =>
    intro tokens mode s r e h
    rw [ExtractState.parseLoop] at h
    split at h
    · obtain rfl := Option.some.inj (Prod.mk.inj (Option.some.inj h)).2
      exact PackageException.noConfusion
    · split at h
      · rename_i hturn
        obtain ⟨-, rfl⟩ := Prod.mk.inj (Option.some.inj h)
        exact turn_thrown hturn
      · exact ih h

theorem parsePackage_thrown {fuel : Nat} {dataPackage : JsonInput} {s r : ExtractState} {e : PackageException}
    (h : parsePackage disk fuel dataPackage s = some (r, some e)) : e ≠ .illegalArgument := by
  unfold parsePackage at h
  split at h
  · exact parseLoop_thrown fuel h
  · obtain rfl := Option.some.inj (Prod.mk.inj (Option.some.inj h)).2
    exact PackageException.noConfusion

/-- The checks throw it where they come to a signature that is not base64. -/
theorem verifyData_illegalArgument {signaturePublicKey : String} {publicKeyBytes : Bytes} {s : ExtractState} :
    s.verifyData sec signaturePublicKey publicKeyBytes = some .illegalArgument ↔
      s.dataValueRead = true ∧ s.signingPublicKeyDigest = some (base64EncodeToString (sec.sha256 (getBytes signaturePublicKey))) ∧
      ∃ signature, s.signature = some signature ∧ sec.base64Decode signature = none := by
  constructor
  · intro h
    unfold ExtractState.verifyData at h
    split at h
    · rename_i signature digest hread hsignature hdigest
      split at h
      · cases h
      · rename_i hequal
        refine ⟨hread, by rw [hdigest, not_ne_iff.mp hequal], signature, hsignature, ?_⟩
        split at h
        · assumption
        · split at h <;> cases h
    · cases h
  · rintro ⟨hread, hdigest, signature, hsignature, hdecode⟩
    unfold ExtractState.verifyData
    rw [hread, hsignature, hdigest]
    dsimp only
    rw [if_neg (not_ne_iff.mpr rfl), hdecode]

theorem rethrown_illegalArgument {e : PackageException} : e.rethrown = .illegalArgument ↔ e = .illegalArgument := by
  cases e with
  | illegalArgument => exact ⟨fun _ => rfl, fun _ => rfl⟩
  | _ => exact ⟨nofun, nofun⟩

/-- What is left of the state of the loop to say when the checks throw it. -/
theorem verifyData_fields (sec : Security) (signaturePublicKey : String) (publicKeyBytes : Bytes) {fuel : Nat}
    {dataPackage : JsonInput} {s : ExtractState}
    (h : parsePackage disk fuel dataPackage ⟨.new true .new, false, none, none⟩ = some (s, none)) :
    s.verifyData sec signaturePublicKey publicKeyBytes = some .illegalArgument ↔
      (∃ value, ("data", value) ∈ dataPackage.stringFields) ∧
      lastText "signingPublicKeyDigest" none dataPackage.stringFields =
        some (base64EncodeToString (sec.sha256 (getBytes signaturePublicKey))) ∧
      ∃ signature, lastText "signature" none dataPackage.stringFields = some signature ∧ sec.base64Decode signature = none := by
  have hfields := parsePackage_reads h
  have hdata : s.dataValueRead = true ↔ ∃ value, ("data", value) ∈ dataPackage.stringFields := by
    rw [hfields.data, Bool.false_or, List.any_eq_true]
    constructor
    · rintro ⟨⟨name, value⟩, hmem, hname⟩
      obtain rfl : name = "data" := of_decide_eq_true hname
      exact ⟨value, hmem⟩
    · rintro ⟨value, hmem⟩
      exact ⟨_, hmem, decide_eq_true rfl⟩
  rw [verifyData_illegalArgument, hdata, hfields.signature, hfields.signingPublicKeyDigest]

/-- `extractAndVerifyData` throws it where a text that is not base64 is decoded. -/
theorem extract_illegalArgument {signaturePublicKey : String} {dataPackage : JsonInput} :
    (∃ d, extractAndVerifyData sec disk (dataPackage.tokens.length + 2) signaturePublicKey dataPackage true .new =
      some (d, some .illegalArgument)) ↔ DecodesBadBase64 sec disk signaturePublicKey dataPackage := by
  unfold extractAndVerifyData DecodesBadBase64
  cases hkey : sec.base64Decode signaturePublicKey with
  | none => exact ⟨fun _ => Or.inl rfl, fun _ => ⟨_, rfl⟩⟩
  | some publicKeyBytes =>
    dsimp only
    by_cases hgen : sec.generatePublic publicKeyBytes = true
    · rw [if_pos hgen]
      obtain ⟨⟨s, thrown⟩, hparse⟩ := Option.isSome_iff_exists.mp
        (parsePackage_ends (dataPackage.tokens.length + 2) (le_refl _) :
          (parsePackage disk (dataPackage.tokens.length + 2) dataPackage ⟨.new true .new, false, none, none⟩).isSome = true)
      rw [hparse]
      dsimp only
      cases thrown with
      | some e =>
        constructor
        · rintro ⟨d, hd⟩
          have he := Option.some.inj (Prod.mk.inj (Option.some.inj hd)).2
          exact absurd (rethrown_illegalArgument.mp he) (parsePackage_thrown hparse)
        · rintro (hn | ⟨-, ⟨s', hs'⟩, -⟩)
          · cases hn
          · cases hs'
      | none =>
        have hverify := verifyData_fields sec signaturePublicKey publicKeyBytes hparse
        constructor
        · rintro ⟨d, hd⟩
          obtain ⟨e, he, hre⟩ := Option.map_eq_some_iff.mp (Prod.mk.inj (Option.some.inj hd)).2
          obtain rfl := rethrown_illegalArgument.mp hre
          exact Or.inr ⟨⟨publicKeyBytes, rfl, hgen⟩, ⟨s, rfl⟩, hverify.mp he⟩
        · rintro (hn | ⟨-, -, hbad⟩)
          · cases hn
          · refine ⟨_, congrArg some (Prod.ext rfl ?_)⟩
            change (s.verifyData sec signaturePublicKey publicKeyBytes).map _ = _
            rw [hverify.mpr hbad]
            rfl
    · rw [if_neg hgen]
      constructor
      · rintro ⟨d, hd⟩
        cases hd
      · rintro (hn | ⟨⟨b, hb, hgen'⟩, -⟩)
        · cases hn
        · obtain rfl := Option.some.inj hb
          exact absurd hgen' hgen

/-! ## The files -/

variable {p : UpgradePlatform} {io : UpgradeIo} {files : UpgradeFiles}

/-- An extraction that returns: it makes the verified file of the downloaded data, or leaves the verified file. -/
structure Extracted (p : UpgradePlatform) (files extracted : UpgradeFiles) (success : Bool) : Prop where
  downloaded : extracted.downloaded = files.downloaded
  succeeded : success = true → ∃ data, DownloadedData p files data ∧ extracted.verified = some data
  failed : success = false → extracted.verified = files.verified

theorem extracted_left (p : UpgradePlatform) (files : UpgradeFiles) : Extracted p files files false := ⟨rfl, nofun, fun _ => rfl⟩

theorem openUnzipStream_some {dataPackage : JsonInput} (h : files.openUnzipStream p io = some dataPackage) :
    ∃ content, files.downloaded = some content ∧ io.openDownloaded = true ∧ p.unzip content = some dataPackage := by
  unfold UpgradeFiles.openUnzipStream at h
  split at h
  · cases h
  · rename_i content hcontent
    split at h
    · rename_i hopen
      exact ⟨content, hcontent, hopen, h⟩
    · cases h

theorem extractsBadBase64_iff : ExtractsBadBase64 p io files ↔ ∃ dataPackage, files.openUnzipStream p io = some dataPackage ∧
    io.createUnverified = true ∧ DecodesBadBase64 p.sec io.disk p.upgradeSignaturePublicKey dataPackage := by
  constructor
  · rintro ⟨content, dataPackage, hcontent, hopen, hunzip, hcreate, hbad⟩
    refine ⟨dataPackage, ?_, hcreate, hbad⟩
    unfold UpgradeFiles.openUnzipStream
    rw [hcontent]
    exact (if_pos hopen).trans hunzip
  · rintro ⟨dataPackage, hstream, hcreate, hbad⟩
    obtain ⟨content, hcontent, hopen, hunzip⟩ := openUnzipStream_some hstream
    exact ⟨content, dataPackage, hcontent, hopen, hunzip, hcreate, hbad⟩

/-- What follows `extractAndVerifyData`, where it did not throw an `IllegalArgumentException`. -/
theorem commit_extracted {dataPackage : JsonInput} (hstream : files.openUnzipStream p io = some dataPackage) {d : Destination}
    {thrown : Option PackageException} {fuel : Nat} (hextract : extractAndVerifyData p.sec io.disk fuel p.upgradeSignaturePublicKey
      dataPackage true .new = some (d, thrown)) (hthrown : thrown ≠ some .illegalArgument) :
    ∃ extracted success, files.commit io (d, thrown) = (extracted, .ok success) ∧ Extracted p files extracted success := by
  cases thrown with
  | none =>
    unfold UpgradeFiles.commit
    dsimp only
    split
    · obtain ⟨content, hcontent, -, hunzip⟩ := openUnzipStream_some hstream
      have hdata : DownloadedData p files d.written := ⟨content, dataPackage, hcontent, hunzip, extract_authenticates hextract⟩
      exact ⟨_, _, rfl, rfl, fun _ => ⟨_, hdata, rfl⟩, nofun⟩
    · exact ⟨_, _, rfl, rfl, nofun, fun _ => rfl⟩
  | some e =>
    cases e with
    | illegalArgument => exact absurd rfl hthrown
    | _ => exact ⟨_, _, rfl, rfl, nofun, fun _ => rfl⟩

/-- An extraction throws where a text that is not base64 is decoded, and returns otherwise. -/
theorem extractAndVerify_cases (p : UpgradePlatform) (io : UpgradeIo) (files : UpgradeFiles) :
    (ExtractsBadBase64 p io files ∧ ∃ extracted, files.extractAndVerify p io = some (extracted, .error .illegalArgument)) ∨
    (¬ExtractsBadBase64 p io files ∧ ∃ extracted success, files.extractAndVerify p io = some (extracted, .ok success) ∧
      Extracted p files extracted success) := by
  rw [extractsBadBase64_iff]
  unfold UpgradeFiles.extractAndVerify
  cases hstream : files.openUnzipStream p io with
  | none => exact Or.inr ⟨nofun, files, false, rfl, extracted_left p files⟩
  | some dataPackage =>
    dsimp only
    by_cases hcreate : io.createUnverified = true
    · rw [if_pos hcreate]
      obtain ⟨⟨d, thrown⟩, hextract⟩ := Option.isSome_iff_exists.mp
        (extract_ends (le_refl _) : (extractAndVerifyData p.sec io.disk (dataPackage.tokens.length + 2) p.upgradeSignaturePublicKey
          dataPackage true .new).isSome = true)
      rw [hextract]
      by_cases hthrown : thrown = some .illegalArgument
      · subst hthrown
        exact Or.inl ⟨⟨dataPackage, rfl, hcreate, extract_illegalArgument.mp ⟨d, hextract⟩⟩, _, rfl⟩
      · obtain ⟨extracted, success, hcommit, hextracted⟩ := commit_extracted hstream hextract hthrown
        refine Or.inr ⟨?_, extracted, success, congrArg some hcommit, hextracted⟩
        rintro ⟨dataPackage', hp, -, hbad⟩
        obtain rfl := Option.some.inj hp
        obtain ⟨d', hd'⟩ := extract_illegalArgument.mpr hbad
        rw [hextract] at hd'
        exact hthrown (Prod.mk.inj (Option.some.inj hd')).2
    · rw [if_neg hcreate]
      refine Or.inr ⟨?_, files, false, rfl, extracted_left p files⟩
      rintro ⟨-, -, hn, -⟩
      exact hcreate hn

/-- The version check leaves the verified file or deletes it, and the other files. -/
theorem checkVersion_files (p : UpgradePlatform) (io : UpgradeIo) (files : UpgradeFiles) :
    (files.checkVersion p io).1.downloaded = files.downloaded ∧
    ((files.checkVersion p io).1.verified = files.verified ∨ (files.checkVersion p io).1.verified = none) := by
  have hdelete : (files.deleteVerified io).downloaded = files.downloaded ∧
      ((files.deleteVerified io).verified = files.verified ∨ (files.deleteVerified io).verified = none) := by
    unfold UpgradeFiles.deleteVerified
    split
    · exact ⟨rfl, Or.inr rfl⟩
    · exact ⟨rfl, Or.inl rfl⟩
  unfold UpgradeFiles.checkVersion
  split
  · exact ⟨rfl, Or.inl rfl⟩
  · split
    · exact hdelete
    · exact ⟨rfl, Or.inl rfl⟩
    · split
      · exact hdelete
      · exact ⟨rfl, Or.inl rfl⟩

theorem deleteDownloaded_files (io : UpgradeIo) (files : UpgradeFiles) :
    (io.deleteDownloaded = true → (files.deleteDownloaded io).downloaded = none) ∧
    (files.deleteDownloaded io).verified = files.verified := by
  unfold UpgradeFiles.deleteDownloaded
  split
  · exact ⟨fun _ => rfl, rfl⟩
  · rename_i hn
    exact ⟨fun h => absurd h hn, rfl⟩

end UpgradeManagerAux

open UpgradeManagerAux

end PsiphonAndroid
