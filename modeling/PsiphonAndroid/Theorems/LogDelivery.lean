import Mathlib
import PsiphonAndroid.Log.Delivery

/-!
# What becomes of a log entry

An entry has one task as long as nothing has become of it, and that task knows how often its insertion has failed. So the record of an
entry is always some failed insertions, followed by nothing, by one that succeeded, or by what a branch that drops it does.
-/

namespace PsiphonAndroid

open Lib

/-- The entry an action is about. -/
def LogAction.entry : LogAction → Nat
  | .inserted entry _ | .printed entry | .dropped entry => entry

/-- The action is a call of `insert` for the entry. -/
def LogAction.isInsertOf (entry : Nat) : LogAction → Bool
  | .inserted e _ => e = entry
  | _ => false

namespace MyLog

/-- The tasks that are not finished, the running one first. -/
def tasks (l : MyLog) : List LogTask := l.running.toList ++ l.queue

/-- The circuit resets that are pending or running. -/
def resets (l : MyLog) : Nat := l.tasks.countP fun
  | .circuitReset => true
  | _ => false

/-- How often `insert` was called for an entry. -/
def attempts (l : MyLog) (entry : Nat) : Nat := l.trace.countP (·.isInsertOf entry)

/-- What was done with an entry, in order. -/
def history (l : MyLog) (entry : Nat) : List LogAction := l.trace.filter fun a => a.entry = entry

end MyLog

namespace LogDeliveryAux

/-- What a task has to insert, and how often that has failed. -/
structure LogWork where
  entry : Nat
  values : LogEntry
  attempt : Nat

/-- The work of a task; a reset has none. -/
def work : LogTask → Option LogWork
  | .insert entry values => some ⟨entry, values, 0⟩
  | .retry entry values _ attempt => some ⟨entry, values, attempt⟩
  | .circuitReset => none

/-- The work of all tasks. -/
def works (l : MyLog) : List LogWork := l.tasks.filterMap work

/-- The insertion failed so often, and nothing else was done. -/
def Failed (entry n : Nat) (h : List LogAction) : Prop := h.length = n ∧ ∀ a ∈ h, ∃ outcome ≠ .uri, a = .inserted entry outcome

/-- What a branch that drops an entry does. -/
def dropActions (entry : Nat) (values : LogEntry) : List LogAction :=
  (if logError ≤ values.priority then [.printed entry] else []) ++ [.dropped entry]

/-- The entry is stored, or dropped. -/
def Ended (entry : Nat) (values : LogEntry) (h : List LogAction) : Prop :=
  ∃ n failed, Failed entry n failed ∧
    ((n ≤ maxRetries ∧ h = failed ++ [.inserted entry .uri]) ∨ (n ≤ maxRetries + 1 ∧ h = failed ++ dropActions entry values))

/-- What holds between the tasks, the circuit and the record. -/
structure Delivery (l : MyLog) : Prop where
  failures : l.failureCount ≤ failureThreshold
  closed : l.circuitOpen = false → l.failureCount < failureThreshold
  resets : l.resets = if l.circuitOpen then 1 else 0
  once : ((works l).map LogWork.entry).Nodup
  called : ∀ w ∈ works l, l.calls[w.entry]? = some w.values
  pending : ∀ w ∈ works l, w.attempt ≤ maxRetries ∧ Failed w.entry w.attempt (l.history w.entry)
  ended : ∀ entry values, l.calls[entry]? = some values → entry ∉ (works l).map LogWork.entry → Ended entry values (l.history entry)
  later : ∀ entry, l.calls.length ≤ entry → l.history entry = []

variable {l l' : MyLog} {entry n : Nat} {values : LogEntry} {h : List LogAction}

/-! ## Histories -/

theorem failed_nil (entry : Nat) : Failed entry 0 [] := ⟨rfl, nofun⟩

theorem Failed.snoc (hf : Failed entry n h) {outcome : InsertOutcome} (ho : outcome ≠ .uri) :
    Failed entry (n + 1) (h ++ [.inserted entry outcome]) := by
  refine ⟨by rw [List.length_append, hf.1]; rfl, ?_⟩
  intro a ha
  rcases List.mem_append.mp ha with ha | ha
  · exact hf.2 a ha
  · exact ⟨outcome, ho, List.mem_singleton.mp ha⟩

/-- What is done with one entry changes the history of no other. -/
theorem history_append {acts : List LogAction} (hacts : ∀ a ∈ acts, a.entry = entry) (htrace : l'.trace = l.trace ++ acts) (e : Nat) :
    l'.history e = l.history e ++ if e = entry then acts else [] := by
  unfold MyLog.history
  rw [htrace, List.filter_append]
  congr 1
  split
  · rename_i he
    rw [List.filter_eq_self]
    intro a ha
    simp [hacts a ha, he]
  · rename_i he
    rw [List.filter_eq_nil_iff]
    intro a ha
    simp [hacts a ha, Ne.symm he]

theorem dropActions_entry (entry : Nat) (values : LogEntry) : ∀ a ∈ dropActions entry values, a.entry = entry := by
  unfold dropActions
  split <;> simp [LogAction.entry]

/-! ## One task -/

/-- A task with work is finished: it is given to the executor again with one more failure, or the entry has come to its end. -/
theorem Delivery.worked (h : Delivery l) {task : LogTask} {w : LogWork} (hrun : l.running = some task) (hw : work task = some w)
    {more : List LogTask} {acts : List LogAction} (hqueue : l'.queue = l.queue ++ more) (hidle : l'.running = none)
    (hcalls : l'.calls = l.calls) (htrace : l'.trace = l.trace ++ acts) (hacts : ∀ a ∈ acts, a.entry = w.entry)
    (hfailures : l'.failureCount ≤ failureThreshold) (hclosed : l'.circuitOpen = false → l'.failureCount < failureThreshold)
    (hresets : l'.resets = if l'.circuitOpen then 1 else 0)
    (hnext : (more.filterMap work = [] ∧ Ended w.entry w.values (l.history w.entry ++ acts)) ∨
      (more.filterMap work = [⟨w.entry, w.values, w.attempt + 1⟩] ∧ w.attempt + 1 ≤ maxRetries ∧
        Failed w.entry (w.attempt + 1) (l.history w.entry ++ acts))) : Delivery l' := by
  have hworks : works l = w :: l.queue.filterMap work := by
    unfold works MyLog.tasks
    rw [hrun]
    exact List.filterMap_cons_some hw
  have hworks' : works l' = l.queue.filterMap work ++ more.filterMap work := by
    unfold works MyLog.tasks
    rw [hidle, hqueue, Option.toList_none, List.nil_append, List.filterMap_append]
  have hmem : w ∈ works l := by rw [hworks]; exact List.mem_cons_self
  have hold : ∀ v ∈ l.queue.filterMap work, v ∈ works l := fun v hv => by rw [hworks]; exact List.mem_cons_of_mem _ hv
  have honce := h.once
  rw [hworks, List.map_cons, List.nodup_cons] at honce
  have hne : ∀ v ∈ l.queue.filterMap work, v.entry ≠ w.entry := fun v hv heq => honce.1 (heq ▸ List.mem_map_of_mem hv)
  have hhist := history_append hacts htrace
  have hother : ∀ e ≠ w.entry, l'.history e = l.history e := fun e he => by rw [hhist e, if_neg he, List.append_nil]
  have hself : l'.history w.entry = l.history w.entry ++ acts := by rw [hhist w.entry, if_pos rfl]
  have hlt : w.entry < l.calls.length := (List.getElem?_eq_some_iff.mp (h.called w hmem)).1
  have hlater : ∀ e, l'.calls.length ≤ e → l'.history e = [] := by
    intro e he
    rw [hcalls] at he
    rw [hother e (by omega)]
    exact h.later e he
  have hended : ∀ e v, l.calls[e]? = some v → e ≠ w.entry → e ∉ (l.queue.filterMap work).map LogWork.entry →
      Ended e v (l'.history e) := by
    intro e v hc he hn
    rw [hother e he]
    refine h.ended e v hc ?_
    rw [hworks, List.map_cons, List.mem_cons]
    exact not_or.mpr ⟨he, hn⟩
  have hpending : ∀ v ∈ l.queue.filterMap work, v.attempt ≤ maxRetries ∧ Failed v.entry v.attempt (l'.history v.entry) := by
    intro v hv
    rw [hother v.entry (hne v hv)]
    exact h.pending v (hold v hv)
  rcases hnext with ⟨hnone, hend⟩ | ⟨hone, hle, hfailed⟩
  · rw [hnone, List.append_nil] at hworks'
    refine ⟨hfailures, hclosed, hresets, ?_, ?_, ?_, ?_, hlater⟩
    · rw [hworks']
      exact honce.2
    · rw [hworks', hcalls]
      exact fun v hv => h.called v (hold v hv)
    · rw [hworks']
      exact hpending
    · intro e v hc hn
      rw [hcalls] at hc
      rw [hworks'] at hn
      by_cases he : e = w.entry
      · subst he
        obtain rfl := Option.some.inj (hc.symm.trans (h.called w hmem))
        rw [hself]
        exact hend
      · exact hended e v hc he hn
  · rw [hone] at hworks'
    refine ⟨hfailures, hclosed, hresets, ?_, ?_, ?_, ?_, hlater⟩
    · rw [hworks', List.map_append, List.nodup_append]
      refine ⟨honce.2, List.nodup_singleton _, ?_⟩
      rintro e he e' he' rfl
      obtain rfl := List.mem_singleton.mp he'
      exact honce.1 he
    · intro v hv
      rw [hworks'] at hv
      rw [hcalls]
      rcases List.mem_append.mp hv with hv | hv
      · exact h.called v (hold v hv)
      · rw [List.mem_singleton.mp hv]
        exact h.called w hmem
    · intro v hv
      rw [hworks'] at hv
      rcases List.mem_append.mp hv with hv | hv
      · exact hpending v hv
      · rw [List.mem_singleton.mp hv]
        dsimp only
        rw [hself]
        exact ⟨hle, hfailed⟩
    · intro e v hc hn
      rw [hcalls] at hc
      rw [hworks', List.map_append, List.mem_append] at hn
      obtain ⟨hn, he⟩ := not_or.mp hn
      exact hended e v hc (fun heq => he (List.mem_singleton.mpr heq)) hn

/-- A delay is there for every retry. -/
theorem retryDelay_some (hn : n < maxRetries) : ∃ delay, MyLog.retryDelay (n + 1) = some delay := by
  have hlen : n < retryDelaysMs.length := hn
  exact ⟨retryDelaysMs[n], List.getElem?_eq_getElem hlen⟩

/-- The resets once a task with work has finished. -/
theorem resets_worked {task : LogTask} {w : LogWork} (hrun : l.running = some task) (hw : work task = some w)
    {more : List LogTask} (hqueue : l'.queue = l.queue ++ more) (hidle : l'.running = none) :
    l'.resets = l.resets + more.countP fun
      | .circuitReset => true
      | _ => false := by
  unfold MyLog.resets MyLog.tasks
  rw [hrun, hidle, hqueue, Option.toList_none, List.nil_append, Option.toList_some, List.singleton_append, List.countP_append,
    List.countP_cons]
  cases task with
  | circuitReset => cases hw
  | _ => rfl

/-- `insertWithRetry`, at the end of the task that calls it. -/
theorem Delivery.insertWithRetry (h : Delivery l) {task : LogTask} {w : LogWork} (hrun : l.running = some task) (hw : work task = some w)
    (outcome : InsertOutcome) :
    ∃ l', { l with running := none }.insertWithRetry w.entry w.values w.attempt outcome = .ok l' ∧ Delivery l' := by
  have hmem : w ∈ works l := by
    unfold works MyLog.tasks
    rw [hrun, Option.toList_some, List.singleton_append, List.filterMap_cons_some hw]
    exact List.mem_cons_self
  obtain ⟨hattempt, hfailed⟩ := h.pending w hmem
  have hdrops := dropActions_entry w.entry w.values
  have hreset := h.resets
  have hcount : ∀ {l' : MyLog} {more : List LogTask}, l'.queue = l.queue ++ more → l'.running = none → l'.resets = _ :=
    fun hqueue hidle => resets_worked hrun hw hqueue hidle
  unfold MyLog.insertWithRetry
  dsimp only
  split
  · rename_i hopen
    -- The circuit is open: the entry is dropped without a further attempt.
    refine ⟨_, rfl, h.worked hrun hw (by exact (List.append_nil _).symm) rfl rfl rfl hdrops h.failures h.closed ?_ ?_⟩
    · rw [hcount (by exact (List.append_nil _).symm) rfl]
      exact hreset
    · exact Or.inl ⟨rfl, _, _, hfailed, Or.inr ⟨by omega, rfl⟩⟩
  · rename_i hclosed
    have hclosed := Bool.eq_false_iff.mpr hclosed
    have hless := h.closed hclosed
    rw [if_neg (by rw [hclosed]; exact Bool.false_ne_true)] at hreset
    split
    · rename_i hsuccess
      subst hsuccess
      refine ⟨_, rfl, h.worked hrun hw (by exact (List.append_nil _).symm) rfl rfl rfl ?_ (Nat.zero_le _) ?_ ?_ ?_⟩
      · intro a ha
        rw [List.mem_singleton.mp ha]
        rfl
      · exact fun _ => (by decide : 0 < failureThreshold)
      · rw [hcount (by exact (List.append_nil _).symm) rfl, hreset]
        simp [MyLog.act, hclosed]
      · exact Or.inl ⟨rfl, _, _, hfailed, Or.inl ⟨hattempt, rfl⟩⟩
    · rename_i hfailure
      have hfailed' := hfailed.snoc hfailure
      split
      · -- Too many failures in a row: the circuit opens.
        refine ⟨_, rfl, h.worked hrun hw rfl rfl rfl (List.append_assoc _ _ _) ?_ (by exact hless) nofun ?_ ?_⟩
        · intro a ha
          rcases List.mem_append.mp ha with ha | ha
          · rw [List.mem_singleton.mp ha]
            rfl
          · exact hdrops a ha
        · rw [hcount rfl rfl, hreset]
          rfl
        · refine Or.inl ⟨rfl, _, _, hfailed', Or.inr ⟨by omega, ?_⟩⟩
          rw [List.append_assoc]
          rfl
      · rename_i hbelow
        have hbelow : l.failureCount + 1 < failureThreshold := Nat.not_le.mp hbelow
        split
        · rename_i hretry
          obtain ⟨delay, hdelay⟩ := retryDelay_some hretry
          unfold MyLog.scheduleRetry
          rw [hdelay]
          refine ⟨_, rfl, h.worked hrun hw rfl rfl rfl rfl ?_ (by exact Nat.le_of_lt hbelow) (fun _ => hbelow) ?_ ?_⟩
          · intro a ha
            rw [List.mem_singleton.mp ha]
            rfl
          · rw [hcount rfl rfl, hreset]
            simp [MyLog.act, MyLog.execute, hclosed]
          · exact Or.inr ⟨rfl, hretry, hfailed'⟩
        · refine ⟨_, rfl, h.worked hrun hw (by exact (List.append_nil _).symm) rfl rfl (List.append_assoc _ _ _) ?_
            (by exact Nat.le_of_lt hbelow) (fun _ => hbelow) ?_ ?_⟩
          · intro a ha
            rcases List.mem_append.mp ha with ha | ha
            · rw [List.mem_singleton.mp ha]
              rfl
            · exact hdrops a ha
          · rw [hcount (by exact (List.append_nil _).symm) rfl, hreset]
            simp [MyLog.act, MyLog.dropEntry, hclosed]
          · refine Or.inl ⟨rfl, _, _, hfailed', Or.inr ⟨by omega, ?_⟩⟩
            rw [List.append_assoc]
            rfl

/-- A reset is finished. -/
theorem Delivery.circuitReset (h : Delivery l) (hrun : l.running = some .circuitReset) :
    Delivery { l with running := none, circuitOpen := false, failureCount := 0 } := by
  have hworks : works { l with running := none, circuitOpen := false, failureCount := 0 } = works l := by
    unfold works MyLog.tasks
    rw [hrun]
    rfl
  have hresets : l.resets = { l with running := none, circuitOpen := false, failureCount := 0 }.resets + 1 := by
    unfold MyLog.resets MyLog.tasks
    rw [hrun, Option.toList_some, List.singleton_append, List.countP_cons]
    rfl
  have hle : l.resets ≤ 1 := by
    rw [h.resets]
    split <;> omega
  refine ⟨Nat.zero_le _, fun _ => (by decide : 0 < failureThreshold), ?_, ?_, ?_, ?_, ?_, h.later⟩
  · change _ = 0
    omega
  · rw [hworks]
    exact h.once
  · rw [hworks]
    exact h.called
  · rw [hworks]
    exact h.pending
  · rw [hworks]
    exact h.ended

/-- A call that logs. -/
theorem Delivery.storeLog (h : Delivery l) (values : LogEntry) : Delivery (l.storeLog values) := by
  have htasks : (l.storeLog values).tasks = l.tasks ++ [.insert l.calls.length values] := (List.append_assoc _ _ _).symm
  have hworks : works (l.storeLog values) = works l ++ [⟨l.calls.length, values, 0⟩] := by
    unfold works
    rw [htasks, List.filterMap_append]
    rfl
  have hlt : ∀ w ∈ works l, w.entry < l.calls.length := fun w hw => (List.getElem?_eq_some_iff.mp (h.called w hw)).1
  have hnew : (l.calls ++ [values])[l.calls.length]? = some values := List.getElem?_concat_length
  have hold : ∀ e < l.calls.length, (l.calls ++ [values])[e]? = l.calls[e]? := fun e he => List.getElem?_append_left he
  refine ⟨h.failures, h.closed, ?_, ?_, ?_, ?_, ?_, ?_⟩
  · unfold MyLog.resets
    rw [htasks, List.countP_append]
    exact h.resets
  · rw [hworks, List.map_append, List.nodup_append]
    refine ⟨h.once, List.nodup_singleton _, ?_⟩
    rintro e he e' he' rfl
    obtain ⟨w, hw, rfl⟩ := List.mem_map.mp he
    exact absurd (List.mem_singleton.mp he') (Nat.ne_of_lt (hlt w hw))
  · intro w hw
    rw [hworks] at hw
    rcases List.mem_append.mp hw with hw | hw
    · exact (hold w.entry (hlt w hw)).trans (h.called w hw)
    · rw [List.mem_singleton.mp hw]
      exact hnew
  · intro w hw
    rw [hworks] at hw
    rcases List.mem_append.mp hw with hw | hw
    · exact h.pending w hw
    · rw [List.mem_singleton.mp hw]
      refine ⟨Nat.zero_le _, ?_⟩
      change Failed _ 0 (l.history l.calls.length)
      rw [h.later _ (Nat.le_refl _)]
      exact failed_nil _
  · intro e v hc hn
    rw [hworks, List.map_append, List.mem_append] at hn
    obtain ⟨hn, he⟩ := not_or.mp hn
    have hlen : e < l.calls.length := by
      have hle : e < (l.calls ++ [values]).length := (List.getElem?_eq_some_iff.mp hc).1
      rw [List.length_append, List.length_singleton] at hle
      have hne : e ≠ l.calls.length := fun heq => he (List.mem_singleton.mpr heq)
      omega
    exact h.ended e v ((hold e hlen).symm.trans hc) hn
  · intro e he
    have hle : (l.calls ++ [values]).length ≤ e := he
    rw [List.length_append] at hle
    exact h.later e (by omega)

/-! ## Runs -/

/-- One event. -/
theorem Delivery.step (h : Delivery l) {e : LogEvent} {s : Except LogFault MyLog} (hs : logSystem.step (.ok l) e = some s) :
    ∃ l', s = .ok l' ∧ Delivery l' := by
  cases e with
  | storeLog values =>
    obtain rfl := Option.some.inj hs
    exact ⟨_, rfl, h.storeLog values⟩
  | take =>
    unfold logSystem at hs
    dsimp only at hs
    split at hs
    · rename_i task queue hidle hqueue
      obtain rfl := Option.some.inj hs
      have htasks : { l with running := some task, queue := queue }.tasks = l.tasks := by
        unfold MyLog.tasks
        rw [hidle, hqueue]
        rfl
      have hworks : works { l with running := some task, queue := queue } = works l := by
        unfold works
        rw [htasks]
      refine ⟨_, rfl, h.failures, h.closed, ?_, ?_, ?_, ?_, ?_, h.later⟩
      · unfold MyLog.resets
        rw [htasks]
        exact h.resets
      · rw [hworks]
        exact h.once
      · rw [hworks]
        exact h.called
      · rw [hworks]
        exact h.pending
      · rw [hworks]
        exact h.ended
    · cases hs
  | finish outcome =>
    unfold logSystem at hs
    dsimp only at hs
    cases hrun : l.running with
    | none =>
      rw [hrun] at hs
      cases hs
    | some task =>
      rw [hrun] at hs
      obtain rfl := Option.some.inj hs
      cases task with
      | insert entry values => exact h.insertWithRetry hrun rfl outcome
      | retry entry values delay attempt => exact h.insertWithRetry hrun rfl outcome
      | circuitReset => exact ⟨_, rfl, h.circuitReset hrun⟩

theorem delivery_new : Delivery .new :=
  ⟨Nat.zero_le _, fun _ => (by decide : 0 < failureThreshold), rfl, List.nodup_nil, nofun, nofun, nofun, fun _ _ => rfl⟩

theorem delivery_of_run {es : List LogEvent} {s : Except LogFault MyLog} (h : logSystem.Run es s) : ∃ l, s = .ok l ∧ Delivery l := by
  refine h.invariant (fun _ s => ∃ l, s = .ok l ∧ Delivery l) ?_ ?_
  · rintro s rfl
    exact ⟨_, rfl, delivery_new⟩
  · rintro es s e s' ⟨l, rfl, hd⟩ hs
    exact hd.step hs

/-! ## Counts -/

/-- A history is some failed insertions, or that of an entry that has ended. -/
theorem Delivery.history_cases (h : Delivery l) (entry : Nat) :
    (∃ n ≤ maxRetries, Failed entry n (l.history entry)) ∨ ∃ values, Ended entry values (l.history entry) := by
  by_cases hw : entry ∈ (works l).map LogWork.entry
  · obtain ⟨w, hmem, rfl⟩ := List.mem_map.mp hw
    exact Or.inl ⟨w.attempt, h.pending w hmem⟩
  · cases hc : l.calls[entry]? with
    | none =>
      rw [h.later entry (List.getElem?_eq_none_iff.mp hc)]
      exact Or.inl ⟨0, Nat.zero_le _, failed_nil entry⟩
    | some values => exact Or.inr ⟨values, h.ended entry values hc hw⟩

/-- An action of an entry is counted in its history. -/
theorem count_history (a : LogAction) : l.trace.count a = (l.history a.entry).count a :=
  (List.count_filter (by simp)).symm

theorem attempts_history (l : MyLog) (entry : Nat) : l.attempts entry = (l.history entry).countP (·.isInsertOf entry) := by
  unfold MyLog.attempts MyLog.history
  rw [List.countP_filter]
  refine List.countP_congr ?_
  intro a _
  cases a with
  | inserted e outcome => by_cases he : e = entry <;> simp [LogAction.isInsertOf, LogAction.entry, he]
  | _ => simp [LogAction.isInsertOf]

theorem Failed.not_mem (hf : Failed entry n h) {a : LogAction} (ha : ∀ outcome ≠ .uri, a ≠ .inserted entry outcome) : a ∉ h := by
  intro hmem
  obtain ⟨outcome, ho, heq⟩ := hf.2 a hmem
  exact ha outcome ho heq

/-- Failed insertions are no successful one, and neither drop nor print. -/
theorem Failed.counts (hf : Failed entry n h) :
    h.count (.inserted entry .uri) = 0 ∧ h.count (.dropped entry) = 0 ∧ h.count (.printed entry) = 0 := by
  refine ⟨List.count_eq_zero.mpr (hf.not_mem ?_), List.count_eq_zero.mpr (hf.not_mem ?_), List.count_eq_zero.mpr (hf.not_mem ?_)⟩
  · rintro outcome ho ⟨⟩
    exact ho rfl
  · exact nofun
  · exact nofun

theorem Failed.attempts (hf : Failed entry n h) : h.countP (·.isInsertOf entry) = n := by
  rw [← hf.1, List.countP_eq_length]
  intro a ha
  obtain ⟨outcome, -, rfl⟩ := hf.2 a ha
  simp [LogAction.isInsertOf]

/-- The counts in the history of an entry that was stored. -/
theorem counts_stored (hf : Failed entry n h) {h' : List LogAction} (heq : h' = h ++ [.inserted entry .uri]) :
    h'.countP (·.isInsertOf entry) = n + 1 ∧ h'.count (.inserted entry .uri) = 1 ∧ h'.count (.dropped entry) = 0 ∧
      h'.count (.printed entry) = 0 := by
  obtain ⟨huri, hdropped, hprinted⟩ := hf.counts
  rw [heq, List.countP_append, List.count_append, List.count_append, List.count_append, hf.attempts, huri, hdropped, hprinted]
  simp [LogAction.isInsertOf]

/-- The counts in the history of an entry that was dropped. -/
theorem counts_dropped (hf : Failed entry n h) {h' : List LogAction} (heq : h' = h ++ dropActions entry values) :
    h'.countP (·.isInsertOf entry) = n ∧ h'.count (.inserted entry .uri) = 0 ∧ h'.count (.dropped entry) = 1 ∧
      h'.count (.printed entry) = if logError ≤ values.priority then 1 else 0 := by
  obtain ⟨huri, hdropped, hprinted⟩ := hf.counts
  rw [heq, List.countP_append, List.count_append, List.count_append, List.count_append, hf.attempts, huri, hdropped, hprinted]
  unfold dropActions
  split <;> simp [LogAction.isInsertOf]

/-- Whatever has become of an entry so far, it was attempted a bounded number of times and stored at most once. -/
theorem Delivery.attempts_le (h : Delivery l) (entry : Nat) :
    l.attempts entry ≤ maxRetries + 1 ∧ l.trace.count (.inserted entry .uri) ≤ 1 := by
  rw [attempts_history, count_history]
  dsimp only [LogAction.entry]
  rcases h.history_cases entry with ⟨n, hn, hf⟩ | ⟨values, n, failed, hf, ⟨hn, heq⟩ | ⟨hn, heq⟩⟩
  · rw [hf.attempts, hf.counts.1]
    omega
  · obtain ⟨hatt, hstored, -, -⟩ := counts_stored hf heq
    rw [hatt, hstored]
    omega
  · obtain ⟨hatt, hstored, -, -⟩ := counts_dropped hf heq
    rw [hatt, hstored]
    omega

/-- Behind a successful insertion stands no other of the same entry. -/
theorem Delivery.after_success (h : Delivery l) {before after : List LogAction}
    (htrace : l.trace = before ++ .inserted entry .uri :: after) (outcome : InsertOutcome) : .inserted entry outcome ∉ after := by
  intro hmem
  have hhist : l.history entry = before.filter (·.entry = entry) ++ .inserted entry .uri :: after.filter (·.entry = entry) := by
    unfold MyLog.history
    rw [htrace, List.filter_append, List.filter_cons_of_pos (by simp [LogAction.entry])]
  have hafter : 0 < (after.filter (·.entry = entry)).countP (·.isInsertOf entry) :=
    List.countP_pos_iff.mpr ⟨_, List.mem_filter.mpr ⟨hmem, by simp [LogAction.entry]⟩, by simp [LogAction.isInsertOf]⟩
  have huri : .inserted entry .uri ∈ l.history entry := by rw [hhist]; simp
  have hpos := List.count_pos_iff.mpr huri
  rcases h.history_cases entry with ⟨n, -, hf⟩ | ⟨values, n, failed, hf, ⟨-, heq⟩ | ⟨-, heq⟩⟩
  · rw [hf.counts.1] at hpos
    omega
  · -- The last action is the successful one, so nothing of the entry is behind it.
    have hne : after.filter (·.entry = entry) ≠ [] := fun hn => by
      rw [hn] at hafter
      exact absurd hafter (by simp)
    have hlast := congrArg List.dropLast (heq.symm.trans hhist)
    rw [List.dropLast_concat, List.dropLast_append_of_ne_nil (List.cons_ne_nil _ _), List.dropLast_cons_of_ne_nil hne] at hlast
    have hzero := hf.counts.1
    rw [hlast] at hzero
    simp at hzero
  · rw [(counts_dropped hf heq).2.1] at hpos
    omega

end LogDeliveryAux

open LogDeliveryAux

/-- Delivery of log entries, in five parts, over every sequence of calls that log and every pattern of outcomes of `insert`.
1. `RETRY_DELAYS_MS` is never indexed out of range.
2. For each entry `insert` is called at most `MAX_RETRIES + 1` times, succeeds at most once, and is not called again once it has.
3. When all tasks have run each entry is stored, and then was neither dropped nor printed, or it was dropped once, and then it was
   printed once if its priority is `ERROR` or higher.
4. At most one circuit reset is pending or running, and the circuit is open exactly while one is.
5. The failure count never exceeds its threshold. -/
theorem log_entries_delivered {es : List LogEvent} {s : Except LogFault MyLog} (h : logSystem.Run es s) :
    ∃ l, s = .ok l ∧
    (∀ entry, l.attempts entry ≤ maxRetries + 1 ∧ l.trace.count (.inserted entry .uri) ≤ 1 ∧
      ∀ before after outcome, l.trace = before ++ .inserted entry .uri :: after → .inserted entry outcome ∉ after) ∧
    (l.tasks = [] → ∀ entry values, l.calls[entry]? = some values →
      (l.trace.count (.inserted entry .uri) = 1 ∧ l.trace.count (.dropped entry) = 0 ∧ l.trace.count (.printed entry) = 0) ∨
      (l.trace.count (.inserted entry .uri) = 0 ∧ l.trace.count (.dropped entry) = 1 ∧
        l.trace.count (.printed entry) = if logError ≤ values.priority then 1 else 0)) ∧
    (l.resets ≤ 1 ∧ (l.circuitOpen = true ↔ l.resets = 1)) ∧
    l.failureCount ≤ failureThreshold := by
  obtain ⟨l, rfl, hd⟩ := delivery_of_run h
  refine ⟨l, rfl, ?_, ?_, ?_, hd.failures⟩
  · intro entry
    obtain ⟨hatt, hstored⟩ := hd.attempts_le entry
    exact ⟨hatt, hstored, fun _ _ outcome htrace => hd.after_success htrace outcome⟩
  · intro htasks entry values hc
    have hworks : works l = [] := by
      unfold works
      rw [htasks]
      rfl
    rw [count_history, count_history, count_history]
    dsimp only [LogAction.entry]
    obtain ⟨n, failed, hf, ⟨-, heq⟩ | ⟨-, heq⟩⟩ := hd.ended entry values hc (by rw [hworks]; exact List.not_mem_nil)
    · exact Or.inl (counts_stored hf heq).2
    · exact Or.inr (counts_dropped hf heq).2
  · rw [hd.resets]
    cases l.circuitOpen <;> simp

namespace LogDeliveryAux

/-- Three entries, the first of priority `ERROR`, are logged and no `insert` succeeds: at the tenth failure the circuit opens, and the
two retries behind it are dropped. The circuit is reset, and a fourth entry is inserted. -/
def circuitOpens : List LogEvent :=
  [.storeLog ⟨"first", true, 6, 0⟩, .storeLog ⟨"second", true, 4, 1⟩, .storeLog ⟨"third", true, 4, 2⟩] ++
    (List.replicate 12 [.take, .finish .null]).flatten ++
    [.take, .finish .uri, .storeLog ⟨"fourth", true, 4, 3⟩, .take, .finish .uri]

/-- The record and the number of tasks left. -/
def record : Except LogFault MyLog → List LogAction × Nat
  | .error _ => ([], 0)
  | .ok l => (l.trace, l.tasks.length)

end LogDeliveryAux

/-- The first entry is dropped and printed, the second dropped, and the fourth stored. -/
theorem log_entries_delivered_circuit : ∃ l, logSystem.Run circuitOpens (.ok l) ∧ l.tasks = [] ∧
    (l.trace.count (.dropped 0) = 1 ∧ l.trace.count (.printed 0) = 1) ∧
    (l.trace.count (.dropped 1) = 1 ∧ l.trace.count (.printed 1) = 0) ∧ l.trace.count (.inserted 3 .uri) = 1 ∧
    l.circuitOpen = false := by
  have h0 : logSystem.Run [] (.ok .new) := .init rfl
  have hexec : (logSystem.exec (.ok .new) circuitOpens).map record = some
      ([.inserted 0 .null, .inserted 1 .null, .inserted 2 .null, .inserted 0 .null, .inserted 1 .null, .inserted 2 .null,
        .inserted 0 .null, .inserted 1 .null, .inserted 2 .null, .inserted 0 .null, .printed 0, .dropped 0, .dropped 1, .dropped 2,
        .inserted 3 .uri], 0) := by decide
  have hcalls : (logSystem.exec (.ok .new) circuitOpens).map (fun s => s.map (·.calls)) = some (.ok
      [⟨"first", true, 6, 0⟩, ⟨"second", true, 4, 1⟩, ⟨"third", true, 4, 2⟩, ⟨"fourth", true, 4, 3⟩]) := rfl
  obtain ⟨s, hs, hrecord⟩ := Option.map_eq_some_iff.1 hexec
  rw [hs] at hcalls
  have h := h0.exec hs
  obtain ⟨l, rfl, -, hended, ⟨hresets, hopen⟩, -⟩ := log_entries_delivered h
  obtain ⟨htrace, htasks⟩ := Prod.mk.inj hrecord
  have hcalls : l.calls = _ := Except.ok.inj (Option.some.inj hcalls)
  have hnone := List.eq_nil_of_length_eq_zero htasks
  refine ⟨l, h, hnone, ?_, ?_, ?_, ?_⟩
  · rcases hended hnone 0 ⟨"first", true, 6, 0⟩ (by rw [hcalls]; rfl) with ⟨hstored, -⟩ | ⟨-, hdropped, hprinted⟩
    · rw [htrace] at hstored
      exact absurd hstored (by decide)
    · exact ⟨hdropped, hprinted⟩
  · rcases hended hnone 1 ⟨"second", true, 4, 1⟩ (by rw [hcalls]; rfl) with ⟨hstored, -⟩ | ⟨-, hdropped, hprinted⟩
    · rw [htrace] at hstored
      exact absurd hstored (by decide)
    · exact ⟨hdropped, hprinted⟩
  · rcases hended hnone 3 ⟨"fourth", true, 4, 3⟩ (by rw [hcalls]; rfl) with ⟨hstored, -⟩ | ⟨hstored, -⟩
    · exact hstored
    · rw [htrace] at hstored
      exact absurd hstored (by decide)
  · -- No task is left, so no reset is pending.
    cases ho : l.circuitOpen with
    | false => rfl
    | true =>
      have hone := hopen.1 ho
      rw [MyLog.resets, hnone] at hone
      cases hone

end PsiphonAndroid
