import Mathlib
import PsiphonAndroid.Upgrade.Processes

/-!
# The verified file under two processes

The verified file holds verified data in every run in which no process opens the unverified file during the extraction of the other.
Nothing keeps a process from doing that: then it truncates the inode that the other one renames.
-/

namespace PsiphonAndroid

open Lib

namespace UpgradeWorld

/-- The unverified file is opened only while no other process is between its own `createForWriting` and its rename. -/
def ExtractsAlone (w : UpgradeWorld) : UpgradeEvent → Prop
  | .createForWriting process => ∀ other, other ≠ process → (w.phase other).extraction = none
  | _ => True

/-- One process extracts at a time; its inode is the unverified file and holds what it wrote. The verified file is another inode, with
verified data. -/
structure Inv (w : UpgradeWorld) : Prop where
  alone : ∀ p q x y, (w.phase p).extraction = some x → (w.phase q).extraction = some y → p = q
  own : ∀ p inode data, (w.phase p).extraction = some (inode, data) → w.unverified = some inode ∧ w.contents inode = data
  signed : ∀ p inode data, w.phase p = .renaming inode data → data ∈ w.verifiedData
  unverified : ∀ inode, w.unverified = some inode → inode < w.nextInode ∧ w.verified ≠ some inode
  verified : ∀ inode, w.verified = some inode → inode < w.nextInode ∧ w.contents inode ∈ w.verifiedData

variable {w w' : UpgradeWorld} {process : UpgradeProcess}

theorem phase_goTo (w : UpgradeWorld) (process : UpgradeProcess) (phase : UpgradePhase) (p : UpgradeProcess) :
    (w.goTo process phase).phase p = if p = process then phase else w.phase p := by
  change Function.update w.phase process phase p = _
  rw [Function.update_apply]

/-- A write at the end of the file. -/
theorem writeAt_end (data b : Bytes) : writeAt data data.length b = data ++ b := by
  unfold writeAt memcpy
  split
  · rename_i hb
    rw [hb, List.append_nil]
  · simp

/-- A process goes on to a phase outside an extraction. -/
theorem Inv.leave (h : Inv w) {phase : UpgradePhase} (hphase : phase.extraction = none) : Inv (w.goTo process phase) := by
  have hold : ∀ p x, ((w.goTo process phase).phase p).extraction = some x → (w.phase p).extraction = some x := by
    intro p x hx
    rw [phase_goTo] at hx
    split at hx
    · rw [hphase] at hx
      cases hx
    · exact hx
  refine ⟨fun p q x y hp hq => h.alone p q x y (hold p x hp) (hold q y hq), fun p inode data hp => h.own p inode data (hold p _ hp),
    ?_, h.unverified, h.verified⟩
  intro p inode data hp
  rw [phase_goTo] at hp
  split at hp
  · rw [hp] at hphase
    cases hphase
  · exact h.signed p inode data hp

/-- A process goes on in its extraction. -/
theorem Inv.goOn (h : Inv w) {inode : Nat} {data : Bytes} {phase : UpgradePhase}
    (hbefore : (w.phase process).extraction = some (inode, data)) (hphase : phase.extraction = some (inode, data))
    (hrenaming : phase = .renaming inode data → data ∈ w.verifiedData) : Inv (w.goTo process phase) := by
  have hold : ∀ p x, ((w.goTo process phase).phase p).extraction = some x → (w.phase p).extraction = some x := by
    intro p x hx
    rw [phase_goTo] at hx
    split at hx
    · rename_i hp
      rw [hp, hbefore, ← hphase, hx]
    · exact hx
  refine ⟨fun p q x y hp hq => h.alone p q x y (hold p x hp) (hold q y hq), fun p inode data hp => h.own p inode data (hold p _ hp),
    ?_, h.unverified, h.verified⟩
  intro p inode' data' hp
  rw [phase_goTo] at hp
  split at hp
  · rw [hp] at hphase
    obtain ⟨rfl, rfl⟩ := Prod.mk.inj (Option.some.inj hphase)
    exact hrenaming hp
  · exact h.signed p inode' data' hp

/-- A process writes into its inode, while no other process extracts. -/
theorem Inv.fill (h : Inv w) {inode : Nat} {data : Bytes} (hinode : inode < w.nextInode) (hunverified : w.unverified = some inode)
    (hothers : ∀ p, p ≠ process → (w.phase p).extraction = none) :
    Inv ({ w with contents := Function.update w.contents inode data }.goTo process (.writing inode data)) := by
  have honly : ∀ p x, (((w.goTo process (.writing inode data)).phase p).extraction = some x) → p = process ∧ x = (inode, data) := by
    intro p x hx
    rw [phase_goTo] at hx
    split at hx
    · rename_i hp
      exact ⟨hp, (Option.some.inj hx).symm⟩
    · rename_i hp
      rw [hothers p hp] at hx
      cases hx
  refine ⟨fun p q x y hp hq => (honly p x hp).1.trans (honly q y hq).1.symm, ?_, ?_, h.unverified, ?_⟩
  · intro p inode' data' hp
    obtain ⟨-, hx⟩ := honly p _ hp
    obtain ⟨rfl, rfl⟩ := Prod.mk.inj hx
    exact ⟨hunverified, Function.update_self ..⟩
  · intro p inode' data' hp
    change (w.goTo process (.writing inode data)).phase p = _ at hp
    rw [phase_goTo] at hp
    split at hp
    · cases hp
    · exact h.signed p inode' data' hp
  · intro i hi
    have hne : i ≠ inode := by
      rintro rfl
      exact (h.unverified i hunverified).2 hi
    obtain ⟨hlt, hmem⟩ := h.verified i hi
    refine ⟨hlt, ?_⟩
    change Function.update w.contents inode data i ∈ _
    rwa [Function.update_of_ne hne]

/-- No other process extracts. -/
theorem Inv.others (h : Inv w) {x : Nat × Bytes} (hx : (w.phase process).extraction = some x) (p : UpgradeProcess)
    (hne : p ≠ process) : (w.phase p).extraction = none := by
  cases hp : (w.phase p).extraction with
  | none => rfl
  | some y => exact absurd (h.alone p process y x hp hx) hne

/-- A new unverified file. Without one, no process extracts. -/
theorem Inv.newFile (h : Inv w) (hunverified : w.unverified = none) :
    Inv { w with
      nextInode := w.nextInode + 1
      unverified := some w.nextInode } := by
  refine ⟨h.alone, ?_, h.signed, ?_, ?_⟩
  · intro p inode data hp
    have := (h.own p inode data hp).1
    rw [hunverified] at this
    cases this
  · intro inode hi
    obtain rfl := Option.some.inj hi
    exact ⟨Nat.lt_succ_self _, fun hv => Nat.lt_irrefl _ (h.verified _ hv).1⟩
  · intro inode hi
    exact ⟨Nat.lt_succ_of_lt (h.verified inode hi).1, (h.verified inode hi).2⟩

/-- A verification that succeeds. -/
theorem Inv.verify (h : Inv w) (data : Bytes) : Inv { w with verifiedData := data :: w.verifiedData } where
  alone := h.alone
  own := h.own
  signed p inode d hp := List.mem_cons_of_mem _ (h.signed p inode d hp)
  unverified := h.unverified
  verified inode hi := ⟨(h.verified inode hi).1, List.mem_cons_of_mem _ (h.verified inode hi).2⟩

/-- The rename: the unverified file is the inode of the process, with the data that it verified. -/
theorem Inv.renamed (h : Inv w) {inode inode' : Nat} {data : Bytes} (hphase : w.phase process = .renaming inode data)
    (hunverified : w.unverified = some inode') :
    Inv ({ w with
      unverified := none
      verified := some inode' }.goTo process (.deleting true)) := by
  have hx : (w.phase process).extraction = some (inode, data) := by
    rw [hphase]
    rfl
  obtain ⟨hown, hcontent⟩ := h.own process inode data hx
  obtain rfl := Option.some.inj (hunverified.symm.trans hown)
  have hnone : ∀ p x, ((w.goTo process (.deleting true)).phase p).extraction ≠ some x := by
    intro p x hp
    rw [phase_goTo] at hp
    split at hp
    · cases hp
    · rename_i hne
      rw [h.others hx p hne] at hp
      cases hp
  refine ⟨fun p _ x _ hp => absurd hp (hnone p x), fun p _ _ hp => absurd hp (hnone p _), ?_, nofun, ?_⟩
  · intro p i d hp
    refine absurd ?_ (hnone p (i, d))
    change (w.goTo process (.deleting true)).phase p = _ at hp
    rw [hp]
    rfl
  · intro i hi
    obtain rfl := Option.some.inj hi
    refine ⟨(h.unverified _ hunverified).1, ?_⟩
    change w.contents _ ∈ _
    rw [hcontent]
    exact h.signed process _ data hphase

/-- The verified file is deleted, or not. -/
theorem Inv.deleteVerified (h : Inv w) (ok : Bool) : Inv { w with verified := if ok then none else w.verified } := by
  cases ok with
  | true => exact ⟨h.alone, h.own, h.signed, fun inode hi => ⟨(h.unverified inode hi).1, nofun⟩, nofun⟩
  | false => exact h

/-- One step. -/
theorem Inv.step (h : Inv w) {signed : Bytes → Bool} {e : UpgradeEvent} (he : ExtractsAlone w e) (hs : w.step signed e = some w') :
    Inv w' := by
  cases e with
  | download =>
    obtain rfl := Option.some.inj hs
    exact ⟨h.alone, h.own, h.signed, h.unverified, h.verified⟩
  | existsDownloaded process =>
    rw [UpgradeWorld.step] at hs
    split at hs
    · obtain rfl := Option.some.inj hs
      exact h.leave (by split <;> rfl)
    · cases hs
  | openFailed process =>
    rw [UpgradeWorld.step] at hs
    split at hs
    · obtain rfl := Option.some.inj hs
      exact h.leave rfl
    · cases hs
  | createForWriting process =>
    rw [UpgradeWorld.step] at hs
    split at hs
    · rename_i inode _ hunverified
      obtain rfl := Option.some.inj hs
      exact h.fill (h.unverified inode hunverified).1 hunverified he
    · rename_i hunverified
      obtain rfl := Option.some.inj hs
      exact (h.newFile hunverified).fill (Nat.lt_succ_self _) rfl he
    · cases hs
  | write process b =>
    rw [UpgradeWorld.step] at hs
    split at hs
    · rename_i inode data hphase
      obtain rfl := Option.some.inj hs
      have hx : (w.phase process).extraction = some (inode, data) := by rw [hphase]; rfl
      obtain ⟨hunverified, hcontent⟩ := h.own process inode data hx
      rw [hcontent, writeAt_end]
      exact h.fill (h.unverified inode hunverified).1 hunverified (h.others hx)
    · cases hs
  | close process =>
    rw [UpgradeWorld.step] at hs
    split at hs
    · rename_i inode data hphase
      obtain rfl := Option.some.inj hs
      exact h.goOn (by rw [hphase]; rfl) rfl nofun
    · cases hs
  | verify process =>
    rw [UpgradeWorld.step] at hs
    split at hs
    · rename_i inode data hphase
      rw [Option.ite_none_right_eq_some] at hs
      obtain rfl := Option.some.inj hs.2
      refine (h.verify data).goOn ?_ rfl fun _ => List.mem_cons_self
      change (w.phase process).extraction = _
      rw [hphase]
      rfl
    · cases hs
  | extractFailed process =>
    rw [UpgradeWorld.step] at hs
    split at hs
    · obtain rfl := Option.some.inj hs
      exact h.leave rfl
    · obtain rfl := Option.some.inj hs
      exact h.leave rfl
    · cases hs
  | rename process ok =>
    unfold UpgradeWorld.step at hs
    dsimp only at hs
    split at hs
    · rename_i inode data i hphase hunverified
      obtain rfl := Option.some.inj hs
      exact h.renamed hphase hunverified
    · obtain rfl := Option.some.inj hs
      exact h.leave rfl
    · cases hs
  | deleteDownloaded process ok =>
    rw [UpgradeWorld.step] at hs
    split at hs
    · obtain rfl := Option.some.inj hs
      have hsame : Inv { w with downloaded := w.downloaded && !ok } := ⟨h.alone, h.own, h.signed, h.unverified, h.verified⟩
      exact hsame.leave (by split <;> rfl)
    · cases hs
  | checkVersion process discard =>
    rw [UpgradeWorld.step] at hs
    split at hs
    · obtain rfl := Option.some.inj hs
      exact h.leave (by split <;> rfl)
    · cases hs
  | deleteVerified process ok =>
    rw [UpgradeWorld.step] at hs
    split at hs
    · obtain rfl := Option.some.inj hs
      exact (h.deleteVerified ok).leave rfl
    · cases hs
  | killed process =>
    obtain rfl := Option.some.inj hs
    exact h.leave rfl

/-- Every run in which the processes extract alone. -/
theorem inv_of_run {signed : Bytes → Bool} {es : List UpgradeEvent} (h : (upgradeSystem signed).RunWhere ExtractsAlone es w) :
    Inv w := by
  refine h.invariant (fun _ w => Inv w) ?_ ?_
  · rintro w rfl
    exact ⟨nofun, nofun, nofun, nofun, nofun⟩
  · intro _ w e w' hinv he hs
    exact hinv.step he hs

end UpgradeWorld

open UpgradeWorld

/-- The verified file is verified data, in every run in which no process opens the unverified file during the extraction of the
other. -/
theorem verified_file_sound {signed : Bytes → Bool} {es : List UpgradeEvent} {w : UpgradeWorld}
    (h : (upgradeSystem signed).RunWhere ExtractsAlone es w) {inode : Nat} (hverified : w.verified = some inode) :
    w.contents inode ∈ w.verifiedData := ((inv_of_run h).verified inode hverified).2

namespace UpgradeWorld

instance : Fintype UpgradeProcess := ⟨{.tunnelService, .upgradeChecker}, fun process => by cases process <;> decide⟩

instance (w : UpgradeWorld) : (e : UpgradeEvent) → Decidable (ExtractsAlone w e)
  | .createForWriting process => inferInstanceAs (Decidable (∀ other, other ≠ process → (w.phase other).extraction = none))
  | .download | .existsDownloaded _ | .openFailed _ | .write _ _ | .close _ | .verify _ | .extractFailed _ | .rename _ _
  | .deleteDownloaded _ _ | .checkVersion _ _ | .deleteVerified _ _ | .killed _ => .isTrue trivial

/-- Both processes find the download; `UpgradeChecker` extracts it when the tunnel service is done, which deletes it meanwhile. -/
def bothExtract : List UpgradeEvent :=
  [.download, .existsDownloaded .tunnelService, .existsDownloaded .upgradeChecker, .createForWriting .tunnelService,
    .write .tunnelService [1], .close .tunnelService, .verify .tunnelService, .rename .tunnelService true,
    .createForWriting .upgradeChecker, .deleteDownloaded .tunnelService true, .write .upgradeChecker [1], .close .upgradeChecker,
    .verify .upgradeChecker, .rename .upgradeChecker true]

end UpgradeWorld

/-- Both processes extract, one after the other: the verified file is the second one's, with what it verified. -/
theorem verified_file_sound_renamed : ∃ w, (upgradeSystem (· = [1])).RunWhere ExtractsAlone bothExtract w ∧ w.verified = some 1 ∧
    w.contents 1 ∈ w.verifiedData ∧ w.verifiedData = [[1], [1]] := by
  have h0 : (upgradeSystem (· = [1])).RunWhere ExtractsAlone [] ⟨fun _ => [], 0, false, none, none, fun _ => .idle, []⟩ := .init rfl
  have hrun : ((upgradeSystem (· = [1])).execWhere ExtractsAlone ⟨fun _ => [], 0, false, none, none, fun _ => .idle, []⟩ bothExtract).map
      (fun w => (w.verified, w.verifiedData)) = some (some 1, [[1], [1]]) := by decide
  obtain ⟨w, hw, hend⟩ := Option.map_eq_some_iff.1 hrun
  have h := h0.execWhere hw
  obtain ⟨hverified, hdata⟩ := Prod.mk.inj hend
  exact ⟨w, h, hverified, verified_file_sound h hverified, hdata⟩

/-- `UpgradeChecker` opens the unverified file between the verification and the rename of the tunnel service: the verified file is
empty, and no verification of that succeeded. -/
theorem truncated_file_is_renamed : ∃ w, (upgradeSystem (· = [1])).Reach w ∧ w.verified = some 0 ∧ w.contents 0 = [] ∧
    w.contents 0 ∉ w.verifiedData := by
  have h0 : (upgradeSystem (· = [1])).Run [] ⟨fun _ => [], 0, false, none, none, fun _ => .idle, []⟩ := .init rfl
  have h1 := h0.step (e := .download) rfl
  have h2 := h1.step (e := .existsDownloaded .tunnelService) rfl
  have h3 := h2.step (e := .existsDownloaded .upgradeChecker) rfl
  have h4 := h3.step (e := .createForWriting .tunnelService) rfl
  have h5 := h4.step (e := .write .tunnelService [1]) rfl
  have h6 := h5.step (e := .close .tunnelService) rfl
  have h7 := h6.step (e := .verify .tunnelService) rfl
  have h8 := h7.step (e := .createForWriting .upgradeChecker) rfl
  have h9 := h8.step (e := .rename .tunnelService true) rfl
  exact ⟨_, ⟨_, h9⟩, rfl, rfl, by decide⟩

end PsiphonAndroid
