import PsiphonAndroid.Lib.Bytes
import PsiphonAndroid.Lib.Transition

/-!
# Two processes on the upgrade files

The tunnel service and `UpgradeChecker` run `getAvailableCompleteUpgradeFile` in processes of their own, on the same files and
without a lock. Here is every interleaving of their operations on the file system. A file is an inode: a name is bound to it, a
descriptor stays with it, and renaming moves the name. A process writes at its own position in the file.

What a process writes is open; that its verification is about the bytes it wrote itself is `data_package_sound`.
-/

namespace PsiphonAndroid

open Lib

/-- The processes. -/
inductive UpgradeProcess where
  | tunnelService
  | upgradeChecker
  deriving DecidableEq

/-- Where a process is in `getAvailableCompleteUpgradeFile`. From `createForWriting` to the rename it has the inode it opened and the
bytes it wrote. -/
inductive UpgradePhase where
  | idle
  | opening
  | writing (inode : Nat) (data : Bytes)
  | verifying (inode : Nat) (data : Bytes)
  | renaming (inode : Nat) (data : Bytes)
  | deleting (success : Bool)
  | checking
  | discarding
  deriving DecidableEq

/-- The extraction of a phase. -/
def UpgradePhase.extraction : UpgradePhase → Option (Nat × Bytes)
  | .writing inode data => some (inode, data)
  | .verifying inode data => some (inode, data)
  | .renaming inode data => some (inode, data)
  | _ => none

/-- The file system, the processes, and the data whose verification succeeded. The inodes are `0, …, nextInode - 1`. -/
structure UpgradeWorld where
  contents : Nat → Bytes
  nextInode : Nat
  downloaded : Bool
  unverified : Option Nat
  verified : Option Nat
  phase : UpgradeProcess → UpgradePhase
  verifiedData : List Bytes

/-- `write` at a position: a gap is filled with zeros. -/
def writeAt (content : Bytes) (position : Nat) (b : Bytes) : Bytes :=
  if b = [] then content else memcpy (content ++ List.replicate (position - content.length) 0) position b

/-- An operation: a download is completed, or a process takes its next step, which may fail where the argument says so. `extractFailed`
is a failing extraction that is caught, `killed` the end of a process, also by an exception that is not caught. -/
inductive UpgradeEvent where
  | download
  | existsDownloaded (process : UpgradeProcess)
  | openFailed (process : UpgradeProcess)
  | createForWriting (process : UpgradeProcess)
  | write (process : UpgradeProcess) (b : Bytes)
  | close (process : UpgradeProcess)
  | verify (process : UpgradeProcess)
  | extractFailed (process : UpgradeProcess)
  | rename (process : UpgradeProcess) (ok : Bool)
  | deleteDownloaded (process : UpgradeProcess) (ok : Bool)
  | checkVersion (process : UpgradeProcess) (discard : Bool)
  | deleteVerified (process : UpgradeProcess) (ok : Bool)
  | killed (process : UpgradeProcess)
  deriving DecidableEq

namespace UpgradeWorld

/-- A process goes on to a phase. -/
def goTo (w : UpgradeWorld) (process : UpgradeProcess) (phase : UpgradePhase) : UpgradeWorld :=
  { w with phase := Function.update w.phase process phase }

/-- One operation, where it can come. -/
def step (signed : Bytes → Bool) (w : UpgradeWorld) : UpgradeEvent → Option UpgradeWorld
  | .download => some { w with downloaded := true }
  | .existsDownloaded process =>
    match w.phase process with
    | .idle => some (w.goTo process (if w.downloaded then .opening else .checking))
    | _ => none
  | .openFailed process =>
    match w.phase process with
    | .opening => some (w.goTo process (.deleting false))
    | _ => none
  | .createForWriting process =>
    match w.phase process, w.unverified with
    | .opening, some inode => some ({ w with contents := Function.update w.contents inode [] }.goTo process (.writing inode []))
    | .opening, none => some ({ w with
        contents := Function.update w.contents w.nextInode []
        nextInode := w.nextInode + 1
        unverified := some w.nextInode }.goTo process (.writing w.nextInode []))
    | _, _ => none
  | .write process b =>
    match w.phase process with
    | .writing inode data => some ({ w with
        contents := Function.update w.contents inode (writeAt (w.contents inode) data.length b) }.goTo process
          (.writing inode (data ++ b)))
    | _ => none
  | .close process =>
    match w.phase process with
    | .writing inode data => some (w.goTo process (.verifying inode data))
    | _ => none
  | .verify process =>
    match w.phase process with
    | .verifying inode data =>
      if signed data then some ({ w with verifiedData := data :: w.verifiedData }.goTo process (.renaming inode data)) else none
    | _ => none
  | .extractFailed process =>
    match w.phase process with
    | .writing _ _ => some (w.goTo process (.deleting false))
    | .verifying _ _ => some (w.goTo process (.deleting false))
    | _ => none
  | .rename process ok =>
    match w.phase process, w.unverified, ok with
    | .renaming _ _, some inode, true => some ({ w with
        unverified := none
        verified := some inode }.goTo process (.deleting true))
    | .renaming _ _, _, _ => some (w.goTo process (.deleting false))
    | _, _, _ => none
  | .deleteDownloaded process ok =>
    match w.phase process with
    | .deleting success =>
      some ({ w with downloaded := w.downloaded && !ok }.goTo process (if success then .checking else .idle))
    | _ => none
  | .checkVersion process discard =>
    match w.phase process with
    | .checking => some (w.goTo process (if w.verified.isSome && discard then .discarding else .idle))
    | _ => none
  | .deleteVerified process ok =>
    match w.phase process with
    | .discarding => some ({ w with verified := if ok then none else w.verified }.goTo process .idle)
    | _ => none
  | .killed process => some (w.goTo process .idle)

end UpgradeWorld

/-- The two processes, from the start without files. `signed` says which data the signature of a package can be verified for. -/
def upgradeSystem (signed : Bytes → Bool) : System UpgradeWorld UpgradeEvent where
  init w := w = ⟨fun _ => [], 0, false, none, none, fun _ => .idle, []⟩
  step := UpgradeWorld.step signed

end PsiphonAndroid
