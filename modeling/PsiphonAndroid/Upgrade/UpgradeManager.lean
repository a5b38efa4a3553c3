import PsiphonAndroid.Upgrade.DataPackage

/-!
# The upgrade files

`UpgradeManager`: the downloaded upgrade is extracted to the unverified file, which becomes the verified file when its signature was
verified. One process at a time; the steps of two are in `Upgrade.Processes`. What gzip and the JSON parser make of a file, and
the versions of packages, are left open, and so is which operation of the file system fails.
-/

namespace PsiphonAndroid

open Lib

/-- The contents of the downloaded file, of `PsiphonAndroid.apk.unverified` and of `PsiphonAndroid.apk`, where they exist. -/
structure UpgradeFiles where
  downloaded : Option Bytes
  unverified : Option Bytes
  verified : Option Bytes
  deriving DecidableEq

/-- What the upgrade is checked with: `java.security`, the embedded key, what `openUnzipStream` and the parser make of a file
(nothing where the stream cannot be opened), the version in an APK, and the version of the app. -/
structure UpgradePlatform where
  sec : Security
  upgradeSignaturePublicKey : String
  unzip : Bytes → Option JsonInput
  archiveVersion : Bytes → Option Int
  currentVersion : Option Int

/-- Which operations of the file system succeed. -/
structure UpgradeIo where
  disk : Disk
  openDownloaded : Bool
  createUnverified : Bool
  rename : Bool
  deleteDownloaded : Bool
  deleteVerified : Bool

namespace UpgradeFiles

variable (p : UpgradePlatform) (io : UpgradeIo) (files : UpgradeFiles)

/-- `openUnzipStream`, with what the parser gives of the stream. -/
def openUnzipStream : Option JsonInput :=
  match files.downloaded with
  | none => none
  | some content => if io.openDownloaded then p.unzip content else none

/-- What follows `extractAndVerifyData` in `extractAndVerify`: the rename, or a catch clause. An `AuthenticatedDataPackageException` is
caught, an `IllegalArgumentException` is not. -/
def commit : Destination × Option PackageException → UpgradeFiles × Except PackageException Bool
  | (d, none) =>
    if io.rename then (⟨files.downloaded, none, some d.written⟩, .ok true)
    else ({ files with unverified := some d.written }, .ok false)
  | (d, some .illegalArgument) => ({ files with unverified := some d.written }, .error .illegalArgument)
  | (d, some _) => ({ files with unverified := some d.written }, .ok false)

/-- `DownloadedUpgradeFile.extractAndVerify`: the files afterwards, and what it returns or throws. -/
def extractAndVerify : Option (UpgradeFiles × Except PackageException Bool) :=
  match files.openUnzipStream p io with
  | none => some (files, .ok false)
  | some dataPackage =>
    if io.createUnverified then
      (extractAndVerifyData p.sec io.disk (dataPackage.tokens.length + 2) p.upgradeSignaturePublicKey dataPackage true .new).map
        (files.commit io)
    else some (files, .ok false)

/-- `VerifiedUpgradeFile.delete`. -/
def deleteVerified : UpgradeFiles := if io.deleteVerified then { files with verified := none } else files

/-- `DownloadedUpgradeFile.delete`. -/
def deleteDownloaded : UpgradeFiles := if io.deleteDownloaded then { files with downloaded := none } else files

/-- The version check at the end of `getAvailableCompleteUpgradeFile`: whether the verified file is there to be installed. -/
def checkVersion : UpgradeFiles × Bool :=
  match files.verified with
  | none => (files, false)
  | some content =>
    match p.archiveVersion content, p.currentVersion with
    | none, _ => (files.deleteVerified io, false)
    | some _, none => (files, false)
    | some upgrade, some current => if upgrade ≤ current then (files.deleteVerified io, false) else (files, true)

/-- `getAvailableCompleteUpgradeFile`: the files afterwards, and whether it returns the verified file, or what it throws. -/
def getAvailableCompleteUpgradeFile : Option (UpgradeFiles × Except PackageException Bool) :=
  if files.downloaded.isSome then
    match files.extractAndVerify p io with
    | none => none
    | some (files, .error e) => some (files, .error e)
    | some (files, .ok success) =>
      let files := files.deleteDownloaded io
      if success then
        let r := files.checkVersion p io
        some (r.1, .ok r.2)
      else some (files, .ok false)
  else
    let r := files.checkVersion p io
    some (r.1, .ok r.2)

end UpgradeFiles

end PsiphonAndroid
