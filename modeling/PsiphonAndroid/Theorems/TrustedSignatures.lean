import PsiphonAndroid.Package.TrustedSignatures

/-!
# Trusted signatures are neither lost nor half-read

A call whose lock overlaps one of its own process does nothing: a save is lost, and a read returns an empty map. While this does not
happen, every read returns the map of the last save before its lock. `Sections` is what the locks ensure, `Files` what holds of the files
and the calls.
-/

namespace PsiphonAndroid

open Lib

namespace TrustedSignaturesAux

open SignatureFiles

variable {closeReleases : Bool} {s s' : SignatureFiles} {call : Nat} {new : SignatureCall}

/-! ## The locks -/

/-- What the locks ensure: the calls of a process are busy one at a time, and those that hold the lock have been granted it. -/
structure Sections (closeReleases : Bool) (s : SignatureFiles) : Prop where
  absent : ∀ c, s.count ≤ c → (s.calls c).phase = .absent
  apart : ∀ c d, (s.calls c).process = (s.calls d).process → (s.calls c).phase.busy closeReleases = true →
    (s.calls d).phase.busy closeReleases = true → c = d
  table : ∀ t ∈ s.locks.table, (s.calls t.2).process = t.1 ∧ (s.calls t.2).phase.busy false = true
  granted : ∀ c, (s.calls c).phase.holds = true → ((s.calls c).process, !(s.calls c).isSave) ∈ s.locks.granted
  compatible : s.locks.Compatible

/-- A call with the lock is busy. -/
theorem busy_of_holds {phase : SignatureCallPhase} (h : phase.holds = true) : phase.busy closeReleases = true := by
  cases phase <;> first | rfl | cases h

/-- A call that waits for the lock or has it is busy. -/
theorem busy_of_busy_false {phase : SignatureCallPhase} (h : phase.busy false = true) : phase.busy closeReleases = true := by
  cases phase <;> first | rfl | cases h

theorem Sections.lt (h : Sections closeReleases s) (hp : (s.calls call).phase ≠ .absent) : call < s.count :=
  Nat.lt_of_not_le fun hn => hp (h.absent call hn)

/-- While a save holds the lock, no other call does. -/
theorem Sections.exclusive (h : Sections closeReleases s) (hsave : (s.calls call).isSave = true)
    (hc : (s.calls call).phase.holds = true) {d : Nat} (hd : (s.calls d).phase.holds = true) : d = call := by
  have hgrant := h.granted call hc
  rw [hsave] at hgrant
  have heq := h.compatible.alone hgrant (h.granted d hd)
  exact h.apart d call (congrArg Prod.fst heq) (busy_of_holds hd) (busy_of_holds hc)

/-- A call goes on, and the locks change: what is to be shown is about this call, and about what the others have been granted. -/
theorem Sections.update (h : Sections closeReleases s) (hcalls : s'.calls = Function.update s.calls call new)
    (hcount : s'.count = s.count) (hold : (s.calls call).phase ≠ .absent) (hprocess : new.process = (s.calls call).process)
    (hapart : ∀ d, d ≠ call → (s.calls d).process = (s.calls call).process → new.phase.busy closeReleases = true →
      ¬(s.calls d).phase.busy closeReleases = true)
    (htable : ∀ t ∈ s'.locks.table, (t ∈ s.locks.table ∧ t.2 ≠ call) ∨
      (t = ((s.calls call).process, call) ∧ new.phase.busy false = true))
    (hothers : ∀ d, d ≠ call → (s.calls d).phase.holds = true → ((s.calls d).process, !(s.calls d).isSave) ∈ s'.locks.granted)
    (hnew : new.phase.holds = true → ((s.calls call).process, !new.isSave) ∈ s'.locks.granted) (hcomp : s'.locks.Compatible) :
    Sections closeReleases s' := by
  have hother : ∀ d, d ≠ call → s'.calls d = s.calls d := fun d hd => by rw [hcalls, Function.update_of_ne hd]
  have hself : s'.calls call = new := by rw [hcalls, Function.update_self]
  refine ⟨?_, ?_, ?_, ?_, hcomp⟩
  · intro c hc
    rw [hcount] at hc
    have hne : c ≠ call := fun hn => hold (h.absent call (hn ▸ hc))
    rw [hother c hne]
    exact h.absent c hc
  · intro c d hp hc hd
    by_cases hcc : c = call
    · by_cases hdc : d = call
      · rw [hcc, hdc]
      · rw [hcc, hself] at hp hc
        rw [hother d hdc] at hp hd
        exact absurd hd (hapart d hdc (hp.symm.trans hprocess) hc)
    · rw [hother c hcc] at hp hc
      by_cases hdc : d = call
      · rw [hdc, hself] at hp hd
        exact absurd hc (hapart c hcc (hp.trans hprocess) hd)
      · rw [hother d hdc] at hp hd
        exact h.apart c d hp hc hd
  · intro t ht
    rcases htable t ht with ⟨hmem, hne⟩ | ⟨rfl, hbusy⟩
    · rw [hother _ hne]
      exact h.table t hmem
    · rw [hself]
      exact ⟨hprocess, hbusy⟩
  · intro c hc
    by_cases hcc : c = call
    · rw [hcc, hself] at hc ⊢
      rw [hprocess]
      exact hnew hc
    · rw [hother c hcc] at hc ⊢
      exact hothers c hcc hc

/-- A call that is busy is alone in its process. -/
theorem Sections.not_busy (h : Sections closeReleases s) (hbusy : (s.calls call).phase.busy closeReleases = true) {d : Nat}
    (hd : d ≠ call) (hp : (s.calls d).process = (s.calls call).process) : ¬(s.calls d).phase.busy closeReleases = true :=
  fun hn => hd (h.apart d call hp hn hbusy)

/-- The others keep what they have been granted when the operating system forgets the lock of a busy call. -/
theorem Sections.granted_forget (h : Sections closeReleases s) (hbusy : (s.calls call).phase.busy closeReleases = true) {d : Nat}
    (hd : d ≠ call) (hn : (s.calls d).phase.holds = true) :
    ((s.calls d).process, !(s.calls d).isSave) ∈ (s.locks.forget (s.calls call).process).granted :=
  FileLocks.mem_forget.mpr ⟨h.granted d hn, fun hp => h.not_busy hbusy hd hp (busy_of_holds hn)⟩

/-- The entries of the table are of calls that wait for the lock or have it. -/
theorem Sections.table_ne (h : Sections closeReleases s) (hbusy : ¬(s.calls call).phase.busy false = true) {t : Nat × Nat}
    (ht : t ∈ s.locks.table) : t.2 ≠ call :=
  fun hn => hbusy (hn ▸ (h.table t ht).2)

/-- A call goes on with the lock. -/
theorem Sections.stay (h : Sections closeReleases s) (hcalls : s'.calls = Function.update s.calls call new)
    (hcount : s'.count = s.count) (hlocks : s'.locks = s.locks) (hprocess : new.process = (s.calls call).process)
    (hsave : new.isSave = (s.calls call).isSave) (hold : (s.calls call).phase.holds = true) (hnew : new.phase.holds = true) :
    Sections closeReleases s' := by
  have hpresent : (s.calls call).phase ≠ .absent := fun hn => by rw [hn] at hold; cases hold
  refine h.update hcalls hcount hpresent hprocess (fun d hd hp _ => h.not_busy (busy_of_holds hold) hd hp) ?_ ?_ ?_ ?_
  · rw [hlocks]
    intro t ht
    by_cases hd : t.2 = call
    · exact Or.inr ⟨Prod.ext (hd ▸ (h.table t ht).1.symm) hd, busy_of_holds hnew⟩
    · exact Or.inl ⟨ht, hd⟩
  · exact fun d _ hd => hlocks ▸ h.granted d hd
  · exact fun _ => hlocks ▸ hsave ▸ h.granted call hold
  · exact hlocks ▸ h.compatible

/-- A call begins. -/
theorem Sections.begin (h : Sections closeReleases s) (hnew : new.phase = .opened) : Sections closeReleases (s.begin new) := by
  have hother : ∀ d, d ≠ s.count → (s.begin new).calls d = s.calls d := fun d hd => Function.update_of_ne hd _ _
  have hself : (s.begin new).calls s.count = new := Function.update_self _ _ _
  have hidle : ∀ {d}, (s.begin new).calls d = new → ∀ b, ((s.begin new).calls d).phase.busy b = false := by
    intro d hd b
    rw [hd, hnew]
    rfl
  refine ⟨?_, ?_, ?_, ?_, h.compatible⟩
  · intro c hc
    have hc : s.count + 1 ≤ c := hc
    rw [hother c (by omega)]
    exact h.absent c (by omega)
  · intro c d hp hc hd
    by_cases hcc : c = s.count
    · rw [hcc, hidle hself] at hc
      cases hc
    · by_cases hdc : d = s.count
      · rw [hdc, hidle hself] at hd
        cases hd
      · rw [hother c hcc] at hp hc
        rw [hother d hdc] at hp hd
        exact h.apart c d hp hc hd
  · intro t ht
    have hne : t.2 ≠ s.count := by
      intro hn
      have hb := (h.table t ht).2
      rw [h.absent t.2 (Nat.le_of_eq hn.symm)] at hb
      cases hb
    rw [hother _ hne]
    exact h.table t ht
  · intro c hc
    by_cases hcc : c = s.count
    · rw [hcc, hself, hnew] at hc
      cases hc
    · rw [hother c hcc] at hc ⊢
      exact h.granted c hc

/-- A call asks for the lock, and no other call of its process is busy. -/
theorem Sections.lock (h : Sections closeReleases s) (hphase : (s.calls call).phase = .opened)
    (halone : ∀ d, d ≠ call → (s.calls d).process = (s.calls call).process → ¬(s.calls d).phase.busy closeReleases = true) :
    ¬s.locks.Overlaps (s.calls call).process ∧
      Sections closeReleases ({ s with locks := s.locks.enter (s.calls call).process call }.goTo call .waiting) := by
  have hidle : ∀ b, ¬(s.calls call).phase.busy b = true := by
    rw [hphase]
    exact fun _ => nofun
  refine ⟨?_, ?_⟩
  · intro hn
    obtain ⟨t, ht, hp⟩ := List.mem_map.mp hn
    obtain ⟨hproc, hbusy⟩ := h.table t ht
    exact halone t.2 (h.table_ne (hidle false) ht) (hproc.trans hp) (busy_of_busy_false hbusy)
  · refine h.update rfl rfl (by rw [hphase]; exact nofun) rfl (fun d hd hp _ => halone d hd hp) ?_ ?_ nofun h.compatible
    · intro t ht
      rcases List.mem_cons.mp ht with rfl | ht
      · exact Or.inr ⟨rfl, rfl⟩
      · exact Or.inl ⟨ht, h.table_ne (hidle false) ht⟩
    · exact fun d _ hd => h.granted d hd

/-- A call gets the lock. -/
theorem Sections.acquire (h : Sections closeReleases s) (hphase : (s.calls call).phase = .waiting)
    (hfree : s.locks.Free (s.calls call).process (!(s.calls call).isSave)) (hcalls : s'.calls = Function.update s.calls call new)
    (hcount : s'.count = s.count) (hlocks : s'.locks = s.locks.grant (s.calls call).process (!(s.calls call).isSave))
    (hprocess : new.process = (s.calls call).process) (hsave : new.isSave = (s.calls call).isSave) (hnew : new.phase = .locked) :
    Sections closeReleases s' := by
  have hbusy : ∀ b, (s.calls call).phase.busy b = true := by
    rw [hphase]
    exact fun _ => rfl
  refine h.update hcalls hcount (by rw [hphase]; exact nofun) hprocess (fun d hd hp _ => h.not_busy (hbusy _) hd hp) ?_ ?_ ?_ ?_
  · rw [hlocks]
    intro t ht
    by_cases hd : t.2 = call
    · exact Or.inr ⟨Prod.ext (hd ▸ (h.table t ht).1.symm) hd, by rw [hnew]; rfl⟩
    · exact Or.inl ⟨ht, hd⟩
  · intro d hd hn
    rw [hlocks]
    exact FileLocks.mem_grant.mpr (Or.inr (FileLocks.mem_forget.mp (h.granted_forget (hbusy _) hd hn)))
  · intro _
    rw [hlocks, hsave]
    exact FileLocks.mem_grant.mpr (Or.inl rfl)
  · rw [hlocks]
    exact h.compatible.grant hfree

/-- A call releases the lock. -/
theorem Sections.release (h : Sections closeReleases s) (hphase : (s.calls call).phase = .releasing) :
    Sections closeReleases ({ s with locks := s.locks.release (s.calls call).process }.goTo call .closing) := by
  have hbusy : (s.calls call).phase.busy closeReleases = true := by
    rw [hphase]
    rfl
  refine h.update rfl rfl (by rw [hphase]; exact nofun) rfl (fun d hd hp _ => h.not_busy hbusy hd hp) ?_ ?_ nofun h.compatible.forget
  · intro t ht
    obtain ⟨ht, hne⟩ := FileLocks.mem_release_table.mp ht
    exact Or.inl ⟨ht, fun hn => hne (hn ▸ (h.table t ht).1.symm)⟩
  · exact fun d hd hn => h.granted_forget hbusy hd hn

/-- A call closes its channel. -/
theorem Sections.close (h : Sections closeReleases s) (hphase : (s.calls call).phase = .closing) :
    Sections closeReleases ({ s with
      locks := if closeReleases then s.locks.forget (s.calls call).process else s.locks }.goTo call .returned) := by
  have hidle : ¬(s.calls call).phase.busy false = true := by
    rw [hphase]
    exact nofun
  have hpresent : (s.calls call).phase ≠ .absent := by
    rw [hphase]
    exact nofun
  cases closeReleases with
  | false =>
    refine h.update rfl rfl hpresent rfl (fun _ _ _ => nofun) ?_ ?_ nofun h.compatible
    · exact fun t ht => Or.inl ⟨ht, h.table_ne hidle ht⟩
    · exact fun d _ hd => h.granted d hd
  | true =>
    have hbusy : (s.calls call).phase.busy true = true := by
      rw [hphase]
      rfl
    refine h.update rfl rfl hpresent rfl (fun _ _ _ => nofun) ?_ ?_ nofun h.compatible.forget
    · exact fun t ht => Or.inl ⟨ht, h.table_ne hidle ht⟩
    · exact fun d hd hn => h.granted_forget hbusy hd hn

/-! ## The files -/

/-- What a call that holds the lock knows of the files. -/
def FileOk (s : SignatureFiles) (c : SignatureCall) : Prop :=
  match c.phase with
  | .writing inode position => c.isSave = true ∧ s.tempFile = some inode ∧ s.contents inode = c.signatures.text.take position
  | .renaming => c.isSave = true ∧ ∃ inode, s.tempFile = some inode ∧ s.contents inode = c.signatures.text
  | .checkingTemp | .deletingTemp => c.isSave = true
  | .opening => c.isSave = false ∧ s.finalFile.isSome = true
  | .reading inode builder => c.isSave = false ∧ s.finalFile = some inode ∧ builder = (s.contents inode).take builder.length
  | _ => True

/-- What holds of a read: it knows of all saves while it has the lock, and then it has the map of the last one of them. -/
def ReadOk (s : SignatureFiles) (c : SignatureCall) : Prop :=
  match c.phase with
  | .locked | .opening | .reading _ _ =>
    c.signatures = .empty ∧ c.seen = s.saved.length ∧ ∀ d, d ∈ c.completed ↔ d ∈ s.saved
  | .releasing | .closing | .returned =>
    c.seen ≤ s.saved.length ∧ c.signatures = lastSaved s (s.saved.take c.seen) ∧ ∀ d, d ∈ c.completed ↔ d ∈ s.saved.take c.seen
  | .opened | .waiting => c.signatures = .empty
  | _ => True

/-- The call has renamed its file. -/
def renamed : SignatureCallPhase → Bool
  | .checkingTemp | .deletingTemp | .releasing | .closing | .returned => true
  | _ => false

/-- What holds of the files and the calls. -/
structure Files (s : SignatureFiles) : Prop where
  temp : ∀ inode, s.tempFile = some inode → inode < s.nextInode ∧ s.finalFile ≠ some inode
  final : (s.saved = [] → s.finalFile = none) ∧
    ∀ c, s.saved.getLast? = some c →
      ∃ inode, s.finalFile = some inode ∧ inode < s.nextInode ∧ s.contents inode = (s.calls c).signatures.text
  saves : ∀ c, c ∈ s.saved ↔ (s.calls c).isSave = true ∧ renamed (s.calls c).phase = true
  file : ∀ c, FileOk s (s.calls c)
  read : ∀ c, (s.calls c).isSave = false → ReadOk s (s.calls c)

/-- The file of signatures has its inode. -/
theorem Files.final_lt (h : Files s) {inode : Nat} (hfinal : s.finalFile = some inode) : inode < s.nextInode := by
  cases hlast : s.saved.getLast? with
  | none => exact absurd ((h.final.1 (List.getLast?_eq_none_iff.mp hlast)).symm.trans hfinal) nofun
  | some c =>
    obtain ⟨final, hf, hlt, -⟩ := h.final.2 c hlast
    obtain rfl := Option.some.inj (hf.symm.trans hfinal)
    exact hlt

/-- The map of the last save depends on the maps of the saves. -/
theorem lastSaved_congr {saves : List Nat} (h : ∀ c ∈ saves, (s'.calls c).signatures = (s.calls c).signatures) :
    lastSaved s' saves = lastSaved s saves := by
  unfold lastSaved
  cases hlast : saves.getLast? with
  | none => rfl
  | some c =>
    have hc := h c (List.mem_of_getLast? hlast)
    simp only [Option.map_some, hc]

/-- A call goes on and the files are as they were. -/
theorem Files.quiet (h : Files s) (hcalls : s'.calls = Function.update s.calls call new) (htemp : s'.tempFile = s.tempFile)
    (hfinal : s'.finalFile = s.finalFile) (hcontents : s'.contents = s.contents) (hinode : s'.nextInode = s.nextInode)
    (hsaved : s'.saved = s.saved) (hsave : call ∈ s.saved ↔ new.isSave = true ∧ renamed new.phase = true)
    (hsig : call ∈ s.saved → new.signatures = (s.calls call).signatures) (hfile : FileOk s new)
    (hread : new.isSave = false → ReadOk s new) : Files s' := by
  have hother : ∀ d, d ≠ call → s'.calls d = s.calls d := fun d hd => by rw [hcalls, Function.update_of_ne hd]
  have hself : s'.calls call = new := by rw [hcalls, Function.update_self]
  have hsigs : ∀ d ∈ s.saved, (s'.calls d).signatures = (s.calls d).signatures := by
    intro d hd
    by_cases hdc : d = call
    · rw [hdc, hself]
      exact hsig (hdc ▸ hd)
    · rw [hother d hdc]
  have hFileOk : ∀ c, FileOk s c → FileOk s' c := by
    intro c hc
    unfold FileOk at hc ⊢
    rw [htemp, hfinal, hcontents]
    exact hc
  have hReadOk : ∀ c, ReadOk s c → ReadOk s' c := by
    intro c hc
    have hlast : lastSaved s' (s.saved.take c.seen) = lastSaved s (s.saved.take c.seen) :=
      lastSaved_congr fun d hd => hsigs d (List.mem_of_mem_take hd)
    unfold ReadOk at hc ⊢
    rw [hsaved, hlast]
    exact hc
  refine ⟨?_, ⟨?_, ?_⟩, ?_, ?_, ?_⟩
  · rw [htemp, hinode, hfinal]
    exact h.temp
  · rw [hsaved, hfinal]
    exact h.final.1
  · rw [hsaved, hfinal, hinode, hcontents]
    intro c hc
    rw [hsigs c (List.mem_of_getLast? hc)]
    exact h.final.2 c hc
  · intro c
    rw [hsaved]
    by_cases hc : c = call
    · rw [hc, hself]
      exact hsave
    · rw [hother c hc]
      exact h.saves c
  · intro c
    by_cases hc : c = call
    · rw [hc, hself]
      exact hFileOk new hfile
    · rw [hother c hc]
      exact hFileOk _ (h.file c)
  · intro c hr
    by_cases hc : c = call
    · rw [hc, hself] at hr ⊢
      exact hReadOk new (hread hr)
    · rw [hother c hc] at hr ⊢
      exact hReadOk _ (h.read c hr)

/-- A call that does not hold the lock knows nothing of the files. -/
theorem fileOk_of_not_holds {c : SignatureCall} (h : ¬c.phase.holds = true) : FileOk s c := by
  unfold FileOk
  cases hp : c.phase <;> first | trivial | (rw [hp] at h; exact absurd rfl h)

/-- What a read without the lock has is not changed by later saves. -/
theorem ReadOk.later {c : SignatureCall} (h : ReadOk s c) (hn : ¬c.phase.holds = true) (hsaved : s.saved <+: s'.saved)
    (hsigs : ∀ d ∈ s.saved, (s'.calls d).signatures = (s.calls d).signatures) : ReadOk s' c := by
  have hdone : c.seen ≤ s.saved.length ∧ c.signatures = lastSaved s (s.saved.take c.seen) ∧
        (∀ d, d ∈ c.completed ↔ d ∈ s.saved.take c.seen) →
      c.seen ≤ s'.saved.length ∧ c.signatures = lastSaved s' (s'.saved.take c.seen) ∧
        ∀ d, d ∈ c.completed ↔ d ∈ s'.saved.take c.seen := by
    rintro ⟨hle, hsig, hcompleted⟩
    have htake : s'.saved.take c.seen = s.saved.take c.seen := by
      obtain ⟨more, hmore⟩ := hsaved
      rw [← hmore, List.take_append_of_le_length hle]
    rw [htake, lastSaved_congr fun d hd => hsigs d (List.mem_of_mem_take hd)]
    exact ⟨Nat.le_trans hle hsaved.length_le, hsig, hcompleted⟩
  unfold ReadOk at h ⊢
  cases hp : c.phase with
  | absent | opened | waiting =>
    rw [hp] at h
    exact h
  | closing | returned =>
    rw [hp] at h
    exact hdone h
  | _ =>
    rw [hp] at hn
    exact absurd rfl hn

/-- A save goes on that has the lock alone, and the files change. -/
theorem Files.alone (h : Files s) (hcalls : s'.calls = Function.update s.calls call new) (hsave : (s.calls call).isSave = true)
    (hnew : new.isSave = true) (hsig : new.signatures = (s.calls call).signatures)
    (hothers : ∀ d, d ≠ call → ¬(s.calls d).phase.holds = true) (hpre : s.saved <+: s'.saved)
    (hmem : ∀ c, c ∈ s'.saved ↔ c ∈ s.saved ∨ (c = call ∧ renamed new.phase = true))
    (hrenamed : renamed (s.calls call).phase = true → renamed new.phase = true)
    (htemp : ∀ inode, s'.tempFile = some inode → inode < s'.nextInode ∧ s'.finalFile ≠ some inode)
    (hfinal : (s'.saved = [] → s'.finalFile = none) ∧ ∀ c, s'.saved.getLast? = some c →
      ∃ inode, s'.finalFile = some inode ∧ inode < s'.nextInode ∧ s'.contents inode = (s.calls c).signatures.text)
    (hfile : FileOk s' new) : Files s' := by
  have hother : ∀ d, d ≠ call → s'.calls d = s.calls d := fun d hd => by rw [hcalls, Function.update_of_ne hd]
  have hself : s'.calls call = new := by rw [hcalls, Function.update_self]
  have hsigs : ∀ d, (s'.calls d).signatures = (s.calls d).signatures := by
    intro d
    by_cases hdc : d = call
    · rw [hdc, hself, hsig]
    · rw [hother d hdc]
  refine ⟨htemp, ⟨hfinal.1, ?_⟩, ?_, ?_, ?_⟩
  · intro c hc
    rw [hsigs c]
    exact hfinal.2 c hc
  · intro c
    rw [hmem, h.saves c]
    by_cases hc : c = call
    · rw [hc, hself, hsave, hnew]
      constructor
      · rintro (⟨-, hr⟩ | ⟨-, hr⟩)
        · exact ⟨rfl, hrenamed hr⟩
        · exact ⟨rfl, hr⟩
      · exact fun hr => Or.inr ⟨rfl, hr.2⟩
    · rw [hother c hc]
      exact or_iff_left fun hn => hc hn.1
  · intro c
    by_cases hc : c = call
    · rw [hc, hself]
      exact hfile
    · rw [hother c hc]
      exact fileOk_of_not_holds (hothers c hc)
  · intro c hr
    by_cases hc : c = call
    · rw [hc, hself, hnew] at hr
      cases hr
    · rw [hother c hc] at hr ⊢
      exact (h.read c hr).later (hothers c hc) hpre fun d _ => hsigs d

/-! ## One operation -/

/-- A text is written a piece further. -/
theorem writeChars_take {cs : List Char} {position n : Nat} (h : position ≤ cs.length) :
    writeChars (cs.take position) position ((cs.drop position).take n) = cs.take (position + ((cs.drop position).take n).length) := by
  have hlen : (cs.take position).length = position := List.length_take_of_le h
  have hdrop : ∀ k, (cs.take position).drop (position + k) = [] := fun k => List.drop_eq_nil_of_le (by omega)
  unfold writeChars
  rw [hlen, Nat.sub_self, List.replicate_zero, List.append_nil, List.take_of_length_le (Nat.le_of_eq hlen), hdrop, List.append_nil,
    List.length_take, List.length_drop, List.take_add]
  congr 1
  rw [List.take_eq_take_iff, List.length_drop]
  omega

/-- While no save has the lock, the saves that have completed are those that have renamed their file. -/
theorem completedSaves_iff (hfiles : Files s) (hsec : Sections closeReleases s)
    (hnone : ∀ d, (s.calls d).isSave = true → ¬(s.calls d).phase.holds = true) (d : Nat) : d ∈ s.completedSaves ↔ d ∈ s.saved := by
  rw [hfiles.saves d]
  unfold completedSaves
  rw [List.mem_filter, List.mem_range, Bool.and_eq_true, Bool.or_eq_true, decide_eq_true_eq, decide_eq_true_eq]
  constructor
  · rintro ⟨-, hs, hp | hp⟩
    · exact ⟨hs, by rw [hp]; rfl⟩
    · exact ⟨hs, by rw [hp]; rfl⟩
  · rintro ⟨hs, hr⟩
    have hn := hnone d hs
    refine ⟨hsec.lt (fun hp => by rw [hp] at hr; cases hr), hs, ?_⟩
    cases hp : (s.calls d).phase <;> first | (rw [hp] at hr; cases hr; done) | (rw [hp] at hn; exact absurd rfl hn) | simp

/-- A call begins. -/
theorem Files.begin (h : Files s) (hsec : Sections closeReleases s) (hphase : new.phase = .opened)
    (hread : new.isSave = false → new.signatures = .empty) : Files (s.begin new) := by
  have hnot : s.count ∉ s.saved := by
    intro hn
    have hr := ((h.saves s.count).mp hn).2
    rw [hsec.absent _ (Nat.le_refl _)] at hr
    cases hr
  refine h.quiet rfl rfl rfl rfl rfl rfl ?_ (fun hn => absurd hn hnot) ?_ ?_
  · rw [hphase]
    exact iff_of_false hnot nofun
  · exact fileOk_of_not_holds (by rw [hphase]; exact nofun)
  · unfold ReadOk
    rw [hphase]
    exact hread

/-- A call goes to another phase, and nothing else happens to the files. -/
theorem Files.go (h : Files s) {phase : SignatureCallPhase} {locks : FileLocks}
    (hrenamed : (s.calls call).isSave = true → renamed phase = renamed (s.calls call).phase)
    (hfile : FileOk s { s.calls call with phase := phase })
    (hread : (s.calls call).isSave = false → ReadOk s { s.calls call with phase := phase }) :
    Files ({ s with locks := locks }.goTo call phase) := by
  refine h.quiet rfl rfl rfl rfl rfl rfl ?_ (fun _ => rfl) hfile hread
  rw [h.saves call]
  exact and_congr_right fun hs => by rw [hrenamed hs]

/-- What holds in every state, as long as no lock overlaps another of its process. -/
structure Ordered (closeReleases : Bool) (s : SignatureFiles) : Prop where
  sections : Sections closeReleases s
  files : Files s

namespace Ordered

variable (h : Ordered closeReleases s)

include h

/-- The condition on a call that asks for the lock. -/
theorem not_busy_of_apart (hok : s.Apart closeReleases (.lock call)) {d : Nat} (hd : d ≠ call)
    (hp : (s.calls d).process = (s.calls call).process) : ¬(s.calls d).phase.busy closeReleases = true := by
  intro hbusy
  have hpresent : (s.calls d).phase ≠ .absent := fun hn => by rw [hn] at hbusy; cases hbusy
  exact absurd (hbusy.symm.trans (hok d (h.sections.lt hpresent) hd hp)) nofun

/-- A call asks for the lock: it is entered in the table, and waits. -/
theorem lock (hphase : (s.calls call).phase = .opened)
    (halone : ∀ d, d ≠ call → (s.calls d).process = (s.calls call).process → ¬(s.calls d).phase.busy closeReleases = true)
    (hstep : s.step closeReleases (.lock call) = some s') : Ordered closeReleases s' := by
  obtain ⟨hover, hsec⟩ := h.sections.lock hphase halone
  simp only [SignatureFiles.step, hphase, if_neg hover] at hstep
  obtain rfl := Option.some.inj hstep
  refine ⟨hsec, h.files.go ?_ trivial ?_⟩
  · rw [hphase]
    exact fun _ => rfl
  · intro hr
    have hread := h.files.read call hr
    simp only [ReadOk, hphase] at hread
    exact hread

/-- A call gets the lock. A read then knows of all saves, since none of them is under way. -/
theorem acquire (hstep : s.step closeReleases (.acquire call) = some s') : Ordered closeReleases s' := by
  simp only [SignatureFiles.step] at hstep
  split at hstep
  · rename_i hphase
    obtain ⟨hfree, hs'⟩ := Option.ite_none_right_eq_some.mp hstep
    obtain rfl := Option.some.inj hs'
    refine ⟨h.sections.acquire hphase hfree rfl rfl rfl rfl rfl rfl, h.files.quiet rfl rfl rfl rfl rfl rfl ?_ (fun _ => rfl) trivial ?_⟩
    · rw [h.files.saves call, hphase]
      exact Iff.rfl
    · intro hr
      have hread := h.files.read call hr
      simp only [ReadOk, hphase] at hread
      refine ⟨hread, rfl, ?_⟩
      -- The lock is shared, so no save has its own.
      refine completedSaves_iff h.files h.sections ?_
      intro d hs hd
      have hgrant := h.sections.granted d hd
      have hne : d ≠ call := fun hn => by rw [hn, hr] at hs; cases hs
      rcases hfree _ hgrant with hp | ⟨hp, -⟩
      · exact h.sections.not_busy (by rw [hphase]; rfl) hne hp (busy_of_holds hd)
      · rw [hs] at hp
        cases hp
  · cases hstep

/-- A call releases the lock. -/
theorem release (hstep : s.step closeReleases (.release call) = some s') : Ordered closeReleases s' := by
  simp only [SignatureFiles.step] at hstep
  split at hstep
  · rename_i hphase
    obtain rfl := Option.some.inj hstep
    refine ⟨h.sections.release hphase, h.files.go ?_ trivial ?_⟩
    · rw [hphase]
      exact fun _ => rfl
    · intro hr
      have hread := h.files.read call hr
      simp only [ReadOk, hphase] at hread
      exact hread
  · cases hstep

/-- A call closes its channel and returns. -/
theorem close (hstep : s.step closeReleases (.close call) = some s') : Ordered closeReleases s' := by
  simp only [SignatureFiles.step] at hstep
  split at hstep
  · rename_i hphase
    obtain rfl := Option.some.inj hstep
    refine ⟨h.sections.close hphase, h.files.go ?_ trivial ?_⟩
    · rw [hphase]
      exact fun _ => rfl
    · intro hr
      have hread := h.files.read call hr
      simp only [ReadOk, hphase] at hread
      exact hread
  · cases hstep

/-! ### A save -/

/-- The other calls do not hold the lock while a save does. -/
theorem others (hsave : (s.calls call).isSave = true) (hc : (s.calls call).phase.holds = true) (d : Nat) (hd : d ≠ call) :
    ¬(s.calls d).phase.holds = true :=
  fun hn => hd (h.sections.exclusive hsave hc hn)

/-- A save opens the temporary file, which is not the file of signatures. -/
theorem createTemp (hstep : s.step closeReleases (.createTemp call) = some s') : Ordered closeReleases s' := by
  simp only [SignatureFiles.step] at hstep
  split at hstep
  · rename_i inode hphase hsave htemp
    obtain rfl := Option.some.inj hstep
    have hholds : (s.calls call).phase.holds = true := by rw [hphase]; rfl
    obtain ⟨hlt, hne⟩ := h.files.temp inode htemp
    refine ⟨h.sections.stay rfl rfl rfl rfl rfl hholds rfl,
      h.files.alone rfl hsave hsave rfl (h.others hsave hholds) (List.prefix_refl _) ?_ ?_ h.files.temp ⟨h.files.final.1, ?_⟩ ?_⟩
    · exact fun c => (or_iff_left fun hn => absurd hn.2 nofun).symm
    · rw [hphase]
      exact nofun
    · intro c hc
      obtain ⟨final, hfinal, hlt', htext⟩ := h.files.final.2 c hc
      refine ⟨final, hfinal, hlt', ?_⟩
      have hnf : final ≠ inode := fun hn => hne (hn ▸ hfinal)
      exact (Function.update_of_ne hnf _ _).trans htext
    · exact ⟨hsave, htemp, Function.update_self _ _ _⟩
  · rename_i hphase hsave htemp
    obtain rfl := Option.some.inj hstep
    have hholds : (s.calls call).phase.holds = true := by rw [hphase]; rfl
    refine ⟨h.sections.stay rfl rfl rfl rfl rfl hholds rfl,
      h.files.alone rfl hsave hsave rfl (h.others hsave hholds) (List.prefix_refl _) ?_ ?_ ?_ ⟨h.files.final.1, ?_⟩ ?_⟩
    · exact fun c => (or_iff_left fun hn => absurd hn.2 nofun).symm
    · rw [hphase]
      exact nofun
    · intro inode hinode
      obtain rfl := Option.some.inj hinode
      exact ⟨Nat.lt_succ_self _, fun hn => absurd (h.files.final_lt hn) (Nat.lt_irrefl _)⟩
    · intro c hc
      obtain ⟨final, hfinal, hlt', htext⟩ := h.files.final.2 c hc
      refine ⟨final, hfinal, Nat.lt_succ_of_lt hlt', ?_⟩
      exact (Function.update_of_ne (Nat.ne_of_lt hlt') _ _).trans htext
    · exact ⟨hsave, rfl, Function.update_self _ _ _⟩
  · cases hstep

/-- A save writes a piece of its text. -/
theorem write {n : Nat} (hstep : s.step closeReleases (.write call n) = some s') : Ordered closeReleases s' := by
  simp only [SignatureFiles.step] at hstep
  split at hstep
  · rename_i inode position hphase
    obtain ⟨⟨hpos, hn⟩, hs'⟩ := Option.ite_none_right_eq_some.mp hstep
    obtain rfl := Option.some.inj hs'
    have hholds : (s.calls call).phase.holds = true := by rw [hphase]; rfl
    have hfile := h.files.file call
    simp only [FileOk, hphase] at hfile
    obtain ⟨hsave, htemp, hcontents⟩ := hfile
    refine ⟨h.sections.stay rfl rfl rfl rfl rfl hholds rfl,
      h.files.alone rfl hsave hsave rfl (h.others hsave hholds) (List.prefix_refl _) ?_ ?_ h.files.temp ⟨h.files.final.1, ?_⟩ ?_⟩
    · exact fun c => (or_iff_left fun hn => absurd hn.2 nofun).symm
    · rw [hphase]
      exact nofun
    · intro c hc
      obtain ⟨final, hfinal, hlt', htext⟩ := h.files.final.2 c hc
      refine ⟨final, hfinal, hlt', ?_⟩
      have hnf : final ≠ inode := fun hn => (h.files.temp inode htemp).2 (hn ▸ hfinal)
      exact (Function.update_of_ne hnf _ _).trans htext
    · refine ⟨hsave, htemp, (Function.update_self _ _ _).trans ?_⟩
      change writeChars (s.contents inode) position (((s.calls call).signatures.text.drop position).take n) =
        (s.calls call).signatures.text.take (position + _)
      rw [hcontents]
      exact writeChars_take (Nat.le_of_lt hpos)
  · cases hstep

/-- A save has written its text. -/
theorem closeTemp (hstep : s.step closeReleases (.closeTemp call) = some s') : Ordered closeReleases s' := by
  simp only [SignatureFiles.step] at hstep
  split at hstep
  · rename_i inode position hphase
    obtain ⟨hpos, hs'⟩ := Option.ite_none_right_eq_some.mp hstep
    obtain rfl := Option.some.inj hs'
    have hholds : (s.calls call).phase.holds = true := by rw [hphase]; rfl
    have hfile := h.files.file call
    simp only [FileOk, hphase] at hfile
    obtain ⟨hsave, htemp, hcontents⟩ := hfile
    refine ⟨h.sections.stay rfl rfl rfl rfl rfl hholds rfl, h.files.go ?_ ⟨hsave, inode, htemp, ?_⟩ ?_⟩
    · rw [hphase]
      exact fun _ => rfl
    · rw [hcontents, hpos, List.take_length]
    · rw [hsave]
      exact nofun
  · cases hstep

/-- A save renames its file: it is the last one that was saved. -/
theorem rename (hstep : s.step closeReleases (.rename call) = some s') : Ordered closeReleases s' := by
  simp only [SignatureFiles.step] at hstep
  split at hstep
  · rename_i inode hphase htemp
    obtain rfl := Option.some.inj hstep
    have hholds : (s.calls call).phase.holds = true := by rw [hphase]; rfl
    have hfile := h.files.file call
    simp only [FileOk, hphase] at hfile
    obtain ⟨hsave, inode', htemp', hcontents⟩ := hfile
    obtain rfl := Option.some.inj (htemp'.symm.trans htemp)
    refine ⟨h.sections.stay rfl rfl rfl rfl rfl hholds rfl,
      h.files.alone rfl hsave hsave rfl (h.others hsave hholds) (List.prefix_append _ _) ?_ (fun _ => rfl) nofun ⟨?_, ?_⟩ hsave⟩
    · intro c
      refine List.mem_append.trans (or_congr_right ?_)
      rw [List.mem_singleton]
      exact (and_iff_left rfl).symm
    · exact fun hn => absurd hn (List.append_ne_nil_of_right_ne_nil _ nofun)
    · intro c hc
      have hlast : (s.saved ++ [call]).getLast? = some call := List.getLast?_concat
      obtain rfl := Option.some.inj (hlast.symm.trans hc)
      exact ⟨inode', rfl, (h.files.temp inode' htemp).1, hcontents⟩
  · rename_i hphase htemp
    have hfile := h.files.file call
    simp only [FileOk, hphase] at hfile
    obtain ⟨-, inode, htemp', -⟩ := hfile
    exact absurd (htemp'.symm.trans htemp) nofun
  · cases hstep

/-- A save looks for the temporary file. -/
theorem existsTemp (hstep : s.step closeReleases (.existsTemp call) = some s') : Ordered closeReleases s' := by
  simp only [SignatureFiles.step] at hstep
  split at hstep
  · rename_i hphase
    have hholds : (s.calls call).phase.holds = true := by rw [hphase]; rfl
    have hsave := h.files.file call
    simp only [FileOk, hphase] at hsave
    have hread : ∀ phase, (s.calls call).isSave = false → ReadOk s { s.calls call with phase := phase } := by
      rw [hsave]
      exact fun _ => nofun
    split at hstep
    · obtain rfl := Option.some.inj hstep
      refine ⟨h.sections.stay rfl rfl rfl rfl rfl hholds rfl, h.files.go ?_ hsave (hread _)⟩
      rw [hphase]
      exact fun _ => rfl
    · obtain rfl := Option.some.inj hstep
      refine ⟨h.sections.stay rfl rfl rfl rfl rfl hholds rfl, h.files.go ?_ trivial (hread _)⟩
      rw [hphase]
      exact fun _ => rfl
  · cases hstep

/-- A save deletes the temporary file. -/
theorem deleteTemp (hstep : s.step closeReleases (.deleteTemp call) = some s') : Ordered closeReleases s' := by
  simp only [SignatureFiles.step] at hstep
  split at hstep
  · rename_i hphase
    obtain rfl := Option.some.inj hstep
    have hholds : (s.calls call).phase.holds = true := by rw [hphase]; rfl
    have hsave := h.files.file call
    simp only [FileOk, hphase] at hsave
    refine ⟨h.sections.stay rfl rfl rfl rfl rfl hholds rfl,
      h.files.alone rfl hsave hsave rfl (h.others hsave hholds) (List.prefix_refl _) ?_ (fun _ => rfl) nofun h.files.final trivial⟩
    intro c
    refine (or_iff_left_of_imp ?_).symm
    rintro ⟨rfl, -⟩
    exact (h.files.saves c).mpr ⟨hsave, by rw [hphase]; rfl⟩
  · cases hstep

/-! ### A read -/

/-- A read goes on with the lock: what is to be shown is about the new phase. -/
theorem reads (hr : (s.calls call).isSave = false) (hholds : (s.calls call).phase.holds = true)
    (hcalls : s'.calls = Function.update s.calls call new) (hcount : s'.count = s.count) (hlocks : s'.locks = s.locks)
    (htemp : s'.tempFile = s.tempFile) (hfinal : s'.finalFile = s.finalFile) (hcontents : s'.contents = s.contents)
    (hinode : s'.nextInode = s.nextInode) (hsaved : s'.saved = s.saved) (hprocess : new.process = (s.calls call).process)
    (hsave : new.isSave = (s.calls call).isSave) (hnew : new.phase.holds = true) (hfile : FileOk s new) (hread : ReadOk s new) :
    Ordered closeReleases s' := by
  have hnot : call ∉ s.saved := fun hn => by
    rw [((h.files.saves call).mp hn).1] at hr
    cases hr
  refine ⟨h.sections.stay hcalls hcount hlocks hprocess hsave hholds hnew,
    h.files.quiet hcalls htemp hfinal hcontents hinode hsaved ?_ (fun hn => absurd hn hnot) hfile fun _ => hread⟩
  refine iff_of_false hnot fun hn => ?_
  rw [hsave, hr] at hn
  exact absurd hn.1 nofun

/-- A read looks for the file. There is none before the first save. -/
theorem existsFinal (hstep : s.step closeReleases (.existsFinal call) = some s') : Ordered closeReleases s' := by
  simp only [SignatureFiles.step] at hstep
  split at hstep
  · rename_i hphase hr
    have hholds : (s.calls call).phase.holds = true := by rw [hphase]; rfl
    have hread := h.files.read call hr
    simp only [ReadOk, hphase] at hread
    split at hstep
    · rename_i hsome
      obtain rfl := Option.some.inj hstep
      exact h.reads hr hholds rfl rfl rfl rfl rfl rfl rfl rfl rfl rfl rfl ⟨hr, hsome⟩ hread
    · rename_i hnone
      obtain rfl := Option.some.inj hstep
      obtain ⟨hempty, hseen, hcompleted⟩ := hread
      have htake : s.saved.take (s.calls call).seen = s.saved := by rw [hseen, List.take_length]
      have hsaved : s.saved = [] := by
        cases hlast : s.saved.getLast? with
        | none => exact List.getLast?_eq_none_iff.mp hlast
        | some c =>
          obtain ⟨inode, hfinal, -⟩ := h.files.final.2 c hlast
          rw [hfinal] at hnone
          exact absurd rfl hnone
      refine h.reads hr hholds rfl rfl rfl rfl rfl rfl rfl rfl rfl rfl rfl trivial ⟨Nat.le_of_eq hseen, ?_, ?_⟩
      · change (s.calls call).signatures = lastSaved s (s.saved.take (s.calls call).seen)
        rw [htake, hsaved]
        exact hempty
      · change ∀ d, d ∈ (s.calls call).completed ↔ d ∈ s.saved.take (s.calls call).seen
        rw [htake]
        exact hcompleted
  · cases hstep

/-- A read opens the file. -/
theorem openFinal (hstep : s.step closeReleases (.openFinal call) = some s') : Ordered closeReleases s' := by
  simp only [SignatureFiles.step] at hstep
  split at hstep
  · rename_i inode hphase hfinal
    obtain rfl := Option.some.inj hstep
    have hholds : (s.calls call).phase.holds = true := by rw [hphase]; rfl
    have hfile := h.files.file call
    simp only [FileOk, hphase] at hfile
    have hread := h.files.read call hfile.1
    simp only [ReadOk, hphase] at hread
    exact h.reads hfile.1 hholds rfl rfl rfl rfl rfl rfl rfl rfl rfl rfl rfl ⟨hfile.1, hfinal, rfl⟩ hread
  · rename_i hphase hfinal
    have hfile := h.files.file call
    simp only [FileOk, hphase, hfinal] at hfile
    exact absurd hfile.2 nofun
  · cases hstep

/-- A read reads a piece of the file. -/
theorem readPiece {n : Nat} (hstep : s.step closeReleases (.readPiece call n) = some s') : Ordered closeReleases s' := by
  simp only [SignatureFiles.step] at hstep
  split at hstep
  · rename_i inode builder hphase
    obtain ⟨⟨hlen, -⟩, hs'⟩ := Option.ite_none_right_eq_some.mp hstep
    obtain rfl := Option.some.inj hs'
    have hholds : (s.calls call).phase.holds = true := by rw [hphase]; rfl
    have hfile := h.files.file call
    simp only [FileOk, hphase] at hfile
    obtain ⟨hr, hfinal, hbuilder⟩ := hfile
    have hread := h.files.read call hr
    simp only [ReadOk, hphase] at hread
    refine h.reads hr hholds rfl rfl rfl rfl rfl rfl rfl rfl rfl rfl rfl ⟨hr, hfinal, ?_⟩ hread
    rw [List.length_append, List.length_take, List.length_drop, List.take_add, ← hbuilder]
    congr 1
    rw [List.take_eq_take_iff, List.length_drop]
    omega
  · cases hstep

/-- A read has read the file, and has the map of the last save. -/
theorem endOfFile (hstep : s.step closeReleases (.endOfFile call) = some s') : Ordered closeReleases s' := by
  simp only [SignatureFiles.step] at hstep
  split at hstep
  · rename_i inode builder hphase
    obtain ⟨hlen, hs'⟩ := Option.ite_none_right_eq_some.mp hstep
    obtain rfl := Option.some.inj hs'
    have hholds : (s.calls call).phase.holds = true := by rw [hphase]; rfl
    have hfile := h.files.file call
    simp only [FileOk, hphase] at hfile
    obtain ⟨hr, hfinal, hbuilder⟩ := hfile
    have hread := h.files.read call hr
    simp only [ReadOk, hphase] at hread
    obtain ⟨-, hseen, hcompleted⟩ := hread
    have htake : s.saved.take (s.calls call).seen = s.saved := by rw [hseen, List.take_length]
    have hall : builder = s.contents inode := by
      rw [hbuilder]
      exact List.take_of_length_le hlen
    refine h.reads hr hholds rfl rfl rfl rfl rfl rfl rfl rfl rfl rfl rfl trivial ⟨Nat.le_of_eq hseen, ?_, ?_⟩
    · change TrustedSignatures.ofText builder = lastSaved s (s.saved.take (s.calls call).seen)
      rw [htake, hall]
      cases hlast : s.saved.getLast? with
      | none =>
        have hnone := h.files.final.1 (List.getLast?_eq_none_iff.mp hlast)
        exact absurd (hnone.symm.trans hfinal) nofun
      | some c =>
        obtain ⟨inode', hfinal', -, htext⟩ := h.files.final.2 c hlast
        obtain rfl := Option.some.inj (hfinal'.symm.trans hfinal)
        rw [htext, TrustedSignatures.ofText_text]
        simp [lastSaved, hlast]
    · change ∀ d, d ∈ (s.calls call).completed ↔ d ∈ s.saved.take (s.calls call).seen
      rw [htake]
      exact hcompleted
  · cases hstep

end Ordered

/-- Every operation keeps the invariant. -/
theorem step_ordered (h : Ordered closeReleases s) {e : SignatureEvent} (hok : s.Apart closeReleases e)
    (hstep : s.step closeReleases e = some s') : Ordered closeReleases s' := by
  cases e with
  | save process signatures =>
    obtain rfl := Option.some.inj hstep
    exact ⟨h.sections.begin rfl, h.files.begin h.sections rfl nofun⟩
  | read process =>
    obtain rfl := Option.some.inj hstep
    exact ⟨h.sections.begin rfl, h.files.begin h.sections rfl fun _ => rfl⟩
  | lock call =>
    by_cases hphase : (s.calls call).phase = .opened
    · exact h.lock hphase (fun d hd hp => h.not_busy_of_apart hok hd hp) hstep
    · simp only [SignatureFiles.step] at hstep
      cases hstep
  | acquire call => exact h.acquire hstep
  | createTemp call => exact h.createTemp hstep
  | write call n => exact h.write hstep
  | closeTemp call => exact h.closeTemp hstep
  | rename call => exact h.rename hstep
  | existsTemp call => exact h.existsTemp hstep
  | deleteTemp call => exact h.deleteTemp hstep
  | existsFinal call => exact h.existsFinal hstep
  | openFinal call => exact h.openFinal hstep
  | readPiece call n => exact h.readPiece hstep
  | endOfFile call => exact h.endOfFile hstep
  | release call => exact h.release hstep
  | close call => exact h.close hstep

/-- The invariant holds in every run. -/
theorem run_ordered {es : List SignatureEvent} (h : (signatureSystem closeReleases).RunWhere (SignatureFiles.Apart closeReleases) es s) :
    Ordered closeReleases s := by
  refine h.invariant (fun _ s => Ordered closeReleases s) ?_ fun _ _ _ _ hord hok hstep => step_ordered hord hok hstep
  rintro s ⟨htemp, hfinal, hlocks, habsent, -, hsaved⟩
  refine ⟨⟨fun c _ => habsent c, ?_, ?_, ?_, ?_⟩, ⟨?_, ⟨fun _ => hfinal, ?_⟩, ?_, ?_, ?_⟩⟩
  · intro c d _ hc
    rw [habsent c] at hc
    cases hc
  · rw [hlocks]
    exact nofun
  · intro c hc
    rw [habsent c] at hc
    cases hc
  · rw [hlocks]
    exact nofun
  · rw [htemp]
    exact nofun
  · rw [hsaved]
    exact nofun
  · intro c
    rw [hsaved, habsent c]
    exact ⟨nofun, nofun⟩
  · exact fun c => fileOk_of_not_holds (by rw [habsent c]; exact nofun)
  · intro c _
    unfold ReadOk
    rw [habsent c]
    trivial

/-! ## Later reads -/

/-- The call has not asked for the lock yet, or waits for it. -/
def beforeLock : SignatureCallPhase → Bool
  | .absent | .opened | .waiting => true
  | _ => false

/-- The call is still to get its lock, or knows of some saves. -/
def Knows (saves : List Nat) (c : Nat) (s : SignatureFiles) : Prop :=
  saves <+: s.saved ∧ (beforeLock (s.calls c).phase = true ∨ saves.length ≤ (s.calls c).seen)

/-- A call goes on: it is still to get its lock, or gets it, or has had it already. -/
theorem Knows.update {saves : List Nat} {c : Nat} (h : Knows saves c s)
    (hcalls : s'.calls = Function.update s.calls call new) (hsaved : s.saved <+: s'.saved)
    (hnew : beforeLock new.phase = true ∨ new.seen = s.saved.length ∨
      (beforeLock (s.calls call).phase = false ∧ new.seen = (s.calls call).seen)) : Knows saves c s' := by
  obtain ⟨hn, hc⟩ := h
  refine ⟨hn.trans hsaved, ?_⟩
  rw [hcalls]
  by_cases hcc : c = call
  · rw [hcc] at hc ⊢
    rw [Function.update_self]
    rcases hnew with hb | hseen | ⟨hb, hseen⟩
    · exact Or.inl hb
    · exact Or.inr (hseen ▸ hn.length_le)
    · rw [hb] at hc
      exact Or.inr (hseen ▸ hc.resolve_left nofun)
  · rwa [Function.update_of_ne hcc]

/-- What a call knows is not lost. -/
theorem step_knows (hord : Ordered closeReleases s) {e : SignatureEvent} (hok : s.Apart closeReleases e)
    (hstep : s.step closeReleases e = some s') {saves : List Nat} {c : Nat} (h : Knows saves c s) : Knows saves c s' := by
  cases e with
  | save process signatures =>
    obtain rfl := Option.some.inj hstep
    exact h.update rfl (List.prefix_refl _) (Or.inl rfl)
  | read process =>
    obtain rfl := Option.some.inj hstep
    exact h.update rfl (List.prefix_refl _) (Or.inl rfl)
  | lock call =>
    simp only [SignatureFiles.step] at hstep
    split at hstep
    · rename_i hphase
      have hover := (hord.sections.lock hphase fun d hd hp => hord.not_busy_of_apart hok hd hp).1
      rw [if_neg hover] at hstep
      obtain rfl := Option.some.inj hstep
      exact h.update rfl (List.prefix_refl _) (Or.inl rfl)
    · cases hstep
  | acquire call =>
    simp only [SignatureFiles.step] at hstep
    split at hstep
    · obtain ⟨-, hs'⟩ := Option.ite_none_right_eq_some.mp hstep
      obtain rfl := Option.some.inj hs'
      exact h.update rfl (List.prefix_refl _) (Or.inr (Or.inl rfl))
    · cases hstep
  | createTemp call =>
    simp only [SignatureFiles.step] at hstep
    split at hstep
    · rename_i hphase _ _
      obtain rfl := Option.some.inj hstep
      exact h.update rfl (List.prefix_refl _) (Or.inr (Or.inr ⟨by rw [hphase]; rfl, rfl⟩))
    · rename_i hphase _ _
      obtain rfl := Option.some.inj hstep
      exact h.update rfl (List.prefix_refl _) (Or.inr (Or.inr ⟨by rw [hphase]; rfl, rfl⟩))
    · cases hstep
  | rename call =>
    simp only [SignatureFiles.step] at hstep
    split at hstep
    · rename_i hphase _
      obtain rfl := Option.some.inj hstep
      exact h.update rfl (List.prefix_append _ _) (Or.inr (Or.inr ⟨by rw [hphase]; rfl, rfl⟩))
    · rename_i hphase _
      obtain rfl := Option.some.inj hstep
      exact h.update rfl (List.prefix_refl _) (Or.inr (Or.inr ⟨by rw [hphase]; rfl, rfl⟩))
    · cases hstep
  | openFinal call =>
    simp only [SignatureFiles.step] at hstep
    split at hstep
    · rename_i hphase _
      obtain rfl := Option.some.inj hstep
      exact h.update rfl (List.prefix_refl _) (Or.inr (Or.inr ⟨by rw [hphase]; rfl, rfl⟩))
    · rename_i hphase _
      obtain rfl := Option.some.inj hstep
      exact h.update rfl (List.prefix_refl _) (Or.inr (Or.inr ⟨by rw [hphase]; rfl, rfl⟩))
    · cases hstep
  | existsFinal call =>
    simp only [SignatureFiles.step] at hstep
    split at hstep
    · rename_i hphase _
      obtain rfl := Option.some.inj hstep
      exact h.update rfl (List.prefix_refl _) (Or.inr (Or.inr ⟨by rw [hphase]; rfl, rfl⟩))
    · cases hstep
  | existsTemp call | deleteTemp call | release call | close call =>
    simp only [SignatureFiles.step] at hstep
    split at hstep
    · rename_i hphase
      obtain rfl := Option.some.inj hstep
      exact h.update rfl (List.prefix_refl _) (Or.inr (Or.inr ⟨by rw [hphase]; rfl, rfl⟩))
    · cases hstep
  | write call n | closeTemp call | readPiece call n | endOfFile call =>
    simp only [SignatureFiles.step] at hstep
    split at hstep
    · rename_i hphase
      obtain ⟨-, hs'⟩ := Option.ite_none_right_eq_some.mp hstep
      obtain rfl := Option.some.inj hs'
      exact h.update rfl (List.prefix_refl _) (Or.inr (Or.inr ⟨by rw [hphase]; rfl, rfl⟩))
    · cases hstep

end TrustedSignaturesAux

open TrustedSignaturesAux

/-- In every run in which no call asks for the lock while another one of its process waits for it or has it (or where closing a channel
ends the lock, has not yet closed its channel):

1. a read that has returned has the map of the last save that had completed when it got its lock, and the empty map if there was none;
   the saves before its lock are just those that had completed;
2. a save that has returned has saved its map;
3. after a save has returned, every read that gets its lock later returns its map or that of a later save: the save is before its lock. -/
theorem trusted_signatures_kept {closeReleases : Bool} {es es' : List SignatureEvent} {s s' : SignatureFiles}
    (h : (signatureSystem closeReleases).RunWhere (SignatureFiles.Apart closeReleases) es s)
    (hmore : (signatureSystem closeReleases).execWhere (SignatureFiles.Apart closeReleases) s es' = some s') :
    (∀ c, (s'.calls c).isSave = false → (s'.calls c).phase = .returned →
      (s'.calls c).signatures = s'.lastSaved (s'.saved.take (s'.calls c).seen) ∧
        ∀ d, d ∈ (s'.calls c).completed ↔ d ∈ s'.saved.take (s'.calls c).seen) ∧
    (∀ d, (s.calls d).isSave = true → (s.calls d).phase = .returned → d ∈ s.saved) ∧
    ∀ c d, (s.calls d).isSave = true → (s.calls d).phase = .returned →
      (s.calls c).phase = .absent ∨ (s.calls c).phase = .opened ∨ (s.calls c).phase = .waiting →
      (s'.calls c).phase = .returned → d ∈ s'.saved.take (s'.calls c).seen := by
  have hord := run_ordered h
  have hord' := run_ordered (h.execWhere hmore)
  have hsaved : ∀ d, (s.calls d).isSave = true → (s.calls d).phase = .returned → d ∈ s.saved :=
    fun d hs hphase => (hord.files.saves d).mpr ⟨hs, by rw [hphase]; rfl⟩
  refine ⟨?_, hsaved, ?_⟩
  · intro c hr hphase
    have hread := hord'.files.read c hr
    simp only [ReadOk, hphase] at hread
    exact hread.2
  · intro c d hs hphase hbefore hreturned
    have hknows : Knows s.saved c s := by
      refine ⟨List.prefix_refl _, Or.inl ?_⟩
      rcases hbefore with hb | hb | hb <;> rw [hb] <;> rfl
    obtain ⟨-, hpre, hseen⟩ := System.execWhere_invariant (fun s' => Ordered closeReleases s' ∧ Knows s.saved c s')
      (fun t e t' ⟨ho, hk⟩ hok hstep => ⟨step_ordered ho hok hstep, step_knows ho hok hstep hk⟩) ⟨hord, hknows⟩ hmore
    have hle : s.saved.length ≤ (s'.calls c).seen := hseen.resolve_left (by rw [hreturned]; exact nofun)
    obtain ⟨more, hmore⟩ := hpre
    rw [← hmore, List.take_append]
    exact List.mem_append_left _ (by rw [List.take_of_length_le hle]; exact hsaved d hs hphase)

/-- No file and no call. -/
def noSignatureFiles : SignatureFiles := ⟨fun _ => [], 0, none, none, ⟨[], []⟩, fun _ => ⟨0, false, .empty, .absent, 0, []⟩, 0, []⟩

/-- The map of one package and one signature. -/
def oneSignature (packageName signature : String) : TrustedSignatures :=
  TrustedSignatures.empty.put packageName (SignatureSet.empty.add signature)

/-- A save by the first process. -/
def saveOnce : List SignatureEvent :=
  [.save 0 (oneSignature "a" "x"), .lock 0, .acquire 0, .createTemp 0, .write 0 6, .write 0 100, .closeTemp 0, .rename 0, .existsTemp 0,
    .release 0, .close 0]

/-- A read by the second process, in pieces, while the first process begins another save and waits for the lock. -/
def readAfter : List SignatureEvent :=
  [.read 1, .lock 1, .acquire 1, .save 0 (oneSignature "b" "y"), .lock 2, .existsFinal 1, .openFinal 1, .readPiece 1 3, .readPiece 1 100,
    .endOfFile 1, .release 1, .close 1]

theorem saveOnce_runs : ((signatureSystem true).execWhere (SignatureFiles.Apart true) noSignatureFiles saveOnce).isSome = true := by
  decide +kernel

theorem readAfter_runs :
    ((signatureSystem true).execWhere (SignatureFiles.Apart true) (Option.get _ saveOnce_runs) readAfter).isSome = true := by
  decide +kernel

/-- The read returns the map of the save. -/
theorem trusted_signatures_kept_once : ∃ s s', (signatureSystem true).RunWhere (SignatureFiles.Apart true) saveOnce s ∧
    (signatureSystem true).execWhere (SignatureFiles.Apart true) s readAfter = some s' ∧ (s'.calls 1).isSave = false ∧
    (s'.calls 1).phase = .returned ∧ 0 ∈ s'.saved.take (s'.calls 1).seen ∧ (s'.calls 1).signatures = oneSignature "a" "x" := by
  have hinit : (signatureSystem true).RunWhere (SignatureFiles.Apart true) [] noSignatureFiles :=
    .init ⟨rfl, rfl, rfl, fun _ => rfl, rfl, rfl⟩
  have h : (signatureSystem true).RunWhere (SignatureFiles.Apart true) saveOnce (Option.get _ saveOnce_runs) :=
    hinit.execWhere (Option.some_get _).symm
  have hr : ((Option.get _ readAfter_runs).calls 1).isSave = false := by decide +kernel
  have hphase : ((Option.get _ readAfter_runs).calls 1).phase = .returned := by decide +kernel
  have hlast : (Option.get _ readAfter_runs).lastSaved ((Option.get _ readAfter_runs).saved.take
      ((Option.get _ readAfter_runs).calls 1).seen) = oneSignature "a" "x" := by decide +kernel
  obtain ⟨hread, -, hlater⟩ := trusted_signatures_kept h (Option.some_get readAfter_runs).symm
  exact ⟨_, _, h, (Option.some_get readAfter_runs).symm, hr, hphase,
    hlater 1 0 (by decide +kernel) (by decide +kernel) (Or.inl (by decide +kernel)) hphase, (hread 1 hr hphase).1.trans hlast⟩

/-- A save returns; then, while a read of the same process has the lock, another read and another save of it ask for the lock. -/
def overlappingCalls : List SignatureEvent :=
  [.save 0 (oneSignature "a" "x"), .lock 0, .acquire 0, .createTemp 0, .write 0 100, .closeTemp 0, .rename 0, .existsTemp 0, .release 0,
    .close 0, .read 0, .lock 1, .acquire 1, .read 0, .lock 2, .close 2, .save 0 (oneSignature "b" "y"), .lock 3, .close 3]

/-- While a save writes, the channel of a read of its process is closed, which ends its lock; a save of another process writes over the
same temporary file and renames it, and the first save goes on writing. -/
def endedLock : List SignatureEvent :=
  [.save 0 (oneSignature "a" "x"), .lock 0, .acquire 0, .createTemp 0, .write 0 6, .read 0, .lock 1, .close 1,
    .save 1 (oneSignature "b" "y"), .lock 2, .acquire 2, .createTemp 2, .write 2 100, .closeTemp 2, .rename 2, .existsTemp 2, .release 2,
    .close 2, .write 0 100, .read 1, .lock 3, .acquire 3, .existsFinal 3, .openFinal 3, .readPiece 3 100, .endOfFile 3, .release 3, .close 3]

theorem overlappingCalls_runs : ((signatureSystem true).exec noSignatureFiles overlappingCalls).isSome = true := by decide +kernel

theorem endedLock_runs : ((signatureSystem true).exec noSignatureFiles endedLock).isSome = true := by decide +kernel

/-- Signatures are lost. A read returns the empty map although a save had returned, and a save returns that has not saved its map; and a
read returns a map that was never saved. -/
theorem trusted_signatures_lost :
    (∃ s, (signatureSystem true).Run overlappingCalls s ∧ (s.calls 0).phase = .returned ∧ s.saved = [0] ∧
      (s.calls 0).signatures = oneSignature "a" "x" ∧ (s.calls 2).isSave = false ∧ (s.calls 2).phase = .returned ∧
      (s.calls 2).signatures = .empty ∧ (s.calls 3).isSave = true ∧ (s.calls 3).phase = .returned) ∧
    ∃ s, (signatureSystem true).Run endedLock s ∧ (s.calls 3).isSave = false ∧ (s.calls 3).phase = .returned ∧
      (s.calls 3).signatures = oneSignature "b" "x" := by
  have hinit : (signatureSystem true).Run [] noSignatureFiles := .init ⟨rfl, rfl, rfl, fun _ => rfl, rfl, rfl⟩
  have hover : (signatureSystem true).Run overlappingCalls (Option.get _ overlappingCalls_runs) := hinit.exec (Option.some_get _).symm
  have hended : (signatureSystem true).Run endedLock (Option.get _ endedLock_runs) := hinit.exec (Option.some_get _).symm
  refine ⟨⟨_, hover, ?_⟩, _, hended, ?_⟩
  · decide +kernel
  · decide +kernel

end PsiphonAndroid
