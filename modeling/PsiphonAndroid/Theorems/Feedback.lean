import PsiphonAndroid.Log.Feedback

/-!
# What the feedback tells of sensitive entries

Two logs that differ only in sensitive content give feedback that differs at most in how far down the log it goes: the size of a
sensitive entry counts against the limit like that of any other. So the feedback is the same exactly when the limit lets the loop
reach equally many of the entries it shows.
-/

namespace PsiphonAndroid

open Lib

/-- The call is one that the feedback shows. -/
def LogCall.shown : LogCall → Bool
  | .status _ _ sensitivity _ _ => sensitivity ≠ sensitiveLog
  | .diagnostic _ _ _ _ => true

/-- The calls agree in time, priority, kind and sensitivity, in the resource name where the log is not sensitive, and in the format
arguments where neither the log nor they are. -/
def SameButSensitive : LogCall → LogCall → Prop
  | .status name args sensitivity priority timestamp, .status name' args' sensitivity' priority' timestamp' =>
    sensitivity = sensitivity' ∧ priority = priority' ∧ timestamp = timestamp' ∧
      (sensitivity ≠ sensitiveLog → name = name' ∧ (sensitivity ≠ sensitiveFormatArgs → args = args'))
  | .diagnostic msg data priority timestamp, .diagnostic msg' data' priority' timestamp' =>
    msg = msg' ∧ data = data' ∧ priority = priority' ∧ timestamp = timestamp'
  | _, _ => False

/-- The calls, newest first, that are read with so many bytes already read. -/
def withinLimit : Nat → List LogCall → List LogCall
  | _, [] => []
  | totalBytesRead, c :: calls =>
    if totalBytesRead < maxLogSourceJsonSizeBytes then c :: withinLimit (totalBytesRead + javaLength c.store.logJson) calls else []

/-- How many of the calls that the limit lets the loop read are shown. -/
def shownWithinLimit (beforeTimeMillis : Int64) (calls : List LogCall) : Nat :=
  (withinLimit 0 (getLogsBeforeDate LogCall.timestamp beforeTimeMillis calls)).countP LogCall.shown

namespace FeedbackAux

/-! ## A stored call is read back -/

/-- The object is read back from its text. -/
theorem jsonObject_jsonText (ms : List (String × Json)) : jsonObject (jsonText ms) = some ms := by
  unfold jsonObject jsonText
  rw [String.toList_ofList, Json.parse_print]

/-- Two objects with one text are equal. -/
theorem jsonText_injective : Function.Injective jsonText := fun _ _ h =>
  Json.obj.inj (Json.print_injective (String.ofList_inj.1 h))

variable (context : FeedbackContext)

theorem optInt_sensitivity (name : String) (args : List Json) (sensitivity : Int32) :
    optInt context (statusLogJson name args sensitivity) "sensitivity" 0 = sensitivity := by
  have hopt : Json.opt (statusLogJson name args sensitivity) "sensitivity" = some (jsonInt sensitivity) := by
    simp [Json.opt, statusLogJson]
  unfold optInt
  rw [hopt, jsonInt]
  dsimp only
  rw [Numeral.toInt?_ofInt]
  dsimp only
  rw [if_pos ⟨Int32.minValue_le_toInt _, Int32.toInt_le _⟩, Int32.ofInt_toInt]

/-- What one call adds to the histories: an entry of the one or of the other, or nothing. -/
def item : LogCall → Option (Json ⊕ Json)
  | .diagnostic msg data _ timestamp => some (.inl (diagnosticEntry context timestamp (diagnosticLogJson msg data)))
  | .status name args sensitivity priority timestamp =>
    if sensitivity = sensitiveLog then none
    else some (.inr (statusEntry context timestamp priority ((context.resourceEntryName name).getD "")
      (if sensitivity ≠ sensitiveFormatArgs ∧ 0 < args.length then .arr args else .null)))

/-- The histories made of the items. -/
def histories (items : List (Json ⊕ Json)) : Histories := ⟨items.filterMap Sum.getLeft?, items.filterMap Sum.getRight?⟩

/-- The histories with more entries behind theirs. -/
def follow (h h' : Histories) : Histories := ⟨h.diagnosticHistory ++ h'.diagnosticHistory, h.statusHistory ++ h'.statusHistory⟩

theorem follow_assoc (h₁ h₂ h₃ : Histories) : follow (follow h₁ h₂) h₃ = follow h₁ (follow h₂ h₃) := by
  simp only [follow, List.append_assoc]

theorem follow_histories_nil (h : Histories) : follow h (histories []) = h := by
  simp [follow, histories]

theorem histories_append (items items' : List (Json ⊕ Json)) :
    histories (items ++ items') = follow (histories items) (histories items') := by
  simp only [histories, follow, List.filterMap_append]

/-- The body of the loop, on the row of a call. -/
theorem addLogEntry_store (h : Histories) (c : LogCall) :
    addLogEntry context h c.store = some (follow h (histories (item context c).toList)) := by
  cases c with
  | diagnostic msg data priority timestamp =>
    unfold addLogEntry LogCall.store storeDiagnosticLog
    simp only [jsonObject_jsonText]
    simp [follow, histories, item]
  | status name args sensitivity priority timestamp =>
    have hname : getString context (statusLogJson name args sensitivity) "stringResourceName" = some name := by
      simp [getString, Json.opt, statusLogJson]
    have hargs : optJsonArray (statusLogJson name args sensitivity) "formatArgs" =
        if args.length = 0 then none else some args := by
      unfold optJsonArray
      have hopt : Json.opt (statusLogJson name args sensitivity) "formatArgs" =
          some (if args.length = 0 then .null else .arr args) := by simp [Json.opt, statusLogJson]
      rw [hopt]
      cases args <;> rfl
    unfold addLogEntry LogCall.store storeStatusLog
    simp only [jsonObject_jsonText, Option.bind_eq_bind, Option.bind_some]
    rw [optInt_sensitivity, hname, hargs]
    by_cases hlog : sensitivity = sensitiveLog
    · simp [follow, histories, item, hlog]
    · by_cases hformat : sensitivity = sensitiveFormatArgs
      · subst hformat
        simp [follow, histories, item, hlog]
      · cases args with
        | nil => simp [follow, histories, item, hlog, hformat]
        | cons x xs => simp [follow, histories, item, hlog, hformat]

/-- The loop, on the rows of calls. -/
theorem readLogs_store (calls : List LogCall) (totalBytesRead : Nat) (h : Histories) :
    readLogs context totalBytesRead (calls.map LogCall.store) h =
      some (follow h (histories ((withinLimit totalBytesRead calls).filterMap (item context)))) := by
  induction calls generalizing totalBytesRead h with
  | nil => simp [readLogs, withinLimit, follow_histories_nil]
  | cons c calls ih =>
    rw [List.map_cons, readLogs, withinLimit]
    split
    · rw [addLogEntry_store]
      simp only [Option.bind_eq_bind, Option.bind_some]
      rw [ih, follow_assoc, ← histories_append]
      congr 3
      rw [List.filterMap_cons]
      cases item context c <;> rfl
    · rw [List.filterMap_nil, follow_histories_nil]

/-! ## Two logs -/

theorem item_isSome (c : LogCall) : (item context c).isSome = c.shown := by
  cases c with
  | diagnostic => rfl
  | status name args sensitivity priority timestamp =>
    unfold item LogCall.shown
    by_cases hlog : sensitivity = sensitiveLog <;> simp [hlog]

/-- The calls agree in what the loop adds for them, and in their times. -/
theorem item_eq {c c' : LogCall} (h : SameButSensitive c c') :
    item context c = item context c' ∧ c.timestamp = c'.timestamp := by
  cases c with
  | diagnostic msg data priority timestamp =>
    cases c' with
    | status => exact h.elim
    | diagnostic =>
      obtain ⟨rfl, rfl, rfl, rfl⟩ := h
      exact ⟨rfl, rfl⟩
  | status name args sensitivity priority timestamp =>
    cases c' with
    | diagnostic => exact h.elim
    | status name' args' =>
      obtain ⟨rfl, rfl, rfl, hrest⟩ := h
      refine ⟨?_, rfl⟩
      simp only [item]
      by_cases hlog : sensitivity = sensitiveLog
      · rw [if_pos hlog, if_pos hlog]
      · obtain ⟨rfl, hargs⟩ := hrest hlog
        rw [if_neg hlog, if_neg hlog]
        by_cases hformat : sensitivity = sensitiveFormatArgs
        · rw [if_neg (fun hn => hn.1 hformat), if_neg (fun hn => hn.1 hformat)]
        · rw [hargs hformat]

/-- Two calls that agree. -/
abbrev Pair : Type := { p : LogCall × LogCall // SameButSensitive p.1 p.2 }

/-- Two logs that agree entry by entry are the two halves of a list of pairs. -/
theorem exists_pairs {calls calls' : List LogCall} (h : List.Forall₂ SameButSensitive calls calls') :
    ∃ pairs : List Pair, calls = pairs.map (·.1.1) ∧ calls' = pairs.map (·.1.2) := by
  induction h with
  | nil => exact ⟨[], rfl, rfl⟩
  | @cons c c' calls calls' hsame _ ih =>
    obtain ⟨pairs, hfst, hsnd⟩ := ih
    exact ⟨⟨(c, c'), hsame⟩ :: pairs, by rw [List.map_cons, hfst], by rw [List.map_cons, hsnd]⟩

/-- The query selects and orders by the time alone. -/
theorem getLogsBeforeDate_map {α β : Type} (f : α → β) (timestamp : β → Int64) (beforeDateMillis : Int64) (rows : List α) :
    getLogsBeforeDate timestamp beforeDateMillis (rows.map f) =
      (getLogsBeforeDate (fun row => timestamp (f row)) beforeDateMillis rows).map f := by
  unfold getLogsBeforeDate
  rw [List.filter_map, ← List.map_reverse]
  refine (List.map_mergeSort ?_).symm
  intro a _ b _
  rfl

theorem withinLimit_isBeginning (totalBytesRead : Nat) (calls : List LogCall) : withinLimit totalBytesRead calls <+: calls := by
  induction calls generalizing totalBytesRead with
  | nil => exact List.prefix_rfl
  | cons c calls ih =>
    unfold withinLimit
    split
    · exact List.cons_prefix_cons.mpr ⟨rfl, ih _⟩
    · exact List.nil_prefix

/-- What the loop reads of a log. -/
def readItems (beforeTimeMillis : Int64) (calls : List LogCall) : List (Json ⊕ Json) :=
  (withinLimit 0 (getLogsBeforeDate LogCall.timestamp beforeTimeMillis calls)).filterMap (item context)

theorem length_readItems (beforeTimeMillis : Int64) (calls : List LogCall) :
    (readItems context beforeTimeMillis calls).length = shownWithinLimit beforeTimeMillis calls := by
  unfold readItems shownWithinLimit
  rw [List.length_filterMap_eq_countP]
  simp only [item_isSome]

/-- What the loops read of two logs that agree are beginnings of one list. -/
theorem readItems_beginnings {calls calls' : List LogCall} (h : List.Forall₂ SameButSensitive calls calls') (beforeTimeMillis : Int64) :
    ∃ items, readItems context beforeTimeMillis calls <+: items ∧ readItems context beforeTimeMillis calls' <+: items := by
  obtain ⟨pairs, rfl, rfl⟩ := exists_pairs h
  have htime : (fun p : Pair => p.1.2.timestamp) = fun p : Pair => p.1.1.timestamp := by
    funext p
    exact (item_eq context p.2).2.symm
  have hitem : ((item context) ∘ fun p : Pair => p.1.2) = (item context) ∘ fun p : Pair => p.1.1 := by
    funext p
    exact (item_eq context p.2).1.symm
  refine ⟨_, (withinLimit_isBeginning 0 _).filterMap _, ?_⟩
  rw [getLogsBeforeDate_map, List.filterMap_map, ← hitem, ← htime, ← List.filterMap_map, ← getLogsBeforeDate_map]
  exact (withinLimit_isBeginning 0 _).filterMap _

theorem length_histories (items : List (Json ⊕ Json)) :
    (histories items).diagnosticHistory.length + (histories items).statusHistory.length = items.length := by
  simp only [histories]
  induction items with
  | nil => rfl
  | cons x items ih =>
    cases x with
    | inl j =>
      simp only [List.filterMap_cons, Sum.getLeft?, Sum.getRight?, List.length_cons]
      omega
    | inr j =>
      simp only [List.filterMap_cons, Sum.getLeft?, Sum.getRight?, List.length_cons]
      omega

/-- The histories of two logs that agree are equal exactly when equally many entries are shown. -/
theorem histories_eq_iff {calls calls' : List LogCall} (h : List.Forall₂ SameButSensitive calls calls') (beforeTimeMillis : Int64) :
    histories (readItems context beforeTimeMillis calls) = histories (readItems context beforeTimeMillis calls') ↔
      shownWithinLimit beforeTimeMillis calls = shownWithinLimit beforeTimeMillis calls' := by
  rw [← length_readItems context, ← length_readItems context]
  constructor
  · intro heq
    rw [← length_histories, ← length_histories, heq]
  · intro hlen
    obtain ⟨items, hprefix, hprefix'⟩ := readItems_beginnings context h beforeTimeMillis
    rw [(List.prefix_of_prefix_length_le hprefix hprefix' (Nat.le_of_eq hlen)).eq_of_length hlen]

/-- The feedback tells the histories. -/
theorem feedback_injective {args : FeedbackArgs} {h h' : Histories} :
    jsonText (feedbackMembers args ++ [("DiagnosticInfo", diagnosticInfo context h)]) =
      jsonText (feedbackMembers args ++ [("DiagnosticInfo", diagnosticInfo context h')]) ↔ h = h' := by
  constructor
  · intro heq
    have hmembers := List.append_cancel_left (jsonText_injective heq)
    simp only [List.cons.injEq, Prod.mk.injEq, and_true, true_and, diagnosticInfo, Json.obj.injEq, List.cons_append, Json.arr.injEq]
      at hmembers
    cases h
    cases h'
    simp_all
  · rintro rfl
    rfl

/-- `createFeedbackData` on the rows of calls does not throw. -/
theorem createFeedbackData_store (args : FeedbackArgs) (calls : List LogCall) :
    createFeedbackData context args (calls.map LogCall.store) = some (jsonText (if args.shouldIncludeDiagnostics = true then
      feedbackMembers args ++ [("DiagnosticInfo", diagnosticInfo context (histories (readItems context args.beforeTimeMillis calls)))]
      else feedbackMembers args)) := by
  unfold createFeedbackData readItems
  split
  · rw [getLogsBeforeDate_map, readLogs_store]
    simp only [Option.bind_eq_bind, Option.bind_some]
    have htime : (fun c : LogCall => c.store.timestamp) = LogCall.timestamp := by
      funext c
      cases c <;> rfl
    rw [htime]
    rfl
  · rfl

/-- The feedback on two logs that agree is the same exactly when it is made without them or equally many entries are shown. -/
theorem createFeedbackData_eq_iff (args : FeedbackArgs) {calls calls' : List LogCall}
    (h : List.Forall₂ SameButSensitive calls calls') :
    createFeedbackData context args (calls.map LogCall.store) = createFeedbackData context args (calls'.map LogCall.store) ↔
      (args.shouldIncludeDiagnostics = true →
        shownWithinLimit args.beforeTimeMillis calls = shownWithinLimit args.beforeTimeMillis calls') := by
  rw [createFeedbackData_store, createFeedbackData_store]
  cases args.shouldIncludeDiagnostics with
  | false => simp
  | true =>
    rw [if_pos rfl, if_pos rfl, Option.some.injEq, feedback_injective, histories_eq_iff context h]
    simp

end FeedbackAux

open FeedbackAux

/-- The feedback on two logs that differ only in sensitive content, as `MyLog` stores them, with equal other inputs. In neither case is
there an exception, and the feedback is the same if and only if it leaves out the diagnostics, or the limit, which counts the stored
text of every entry it reads, lets the loop reach equally many of the entries it shows. -/
theorem feedback_same_iff (context : FeedbackContext) (args : FeedbackArgs) {calls calls' : List LogCall}
    (h : List.Forall₂ SameButSensitive calls calls') :
    (createFeedbackData context args (calls.map LogCall.store)).isSome = true ∧
    (createFeedbackData context args (calls'.map LogCall.store)).isSome = true ∧
    (createFeedbackData context args (calls.map LogCall.store) = createFeedbackData context args (calls'.map LogCall.store) ↔
      (args.shouldIncludeDiagnostics = true →
        shownWithinLimit args.beforeTimeMillis calls = shownWithinLimit args.beforeTimeMillis calls')) := by
  refine ⟨?_, ?_, createFeedbackData_eq_iff context args h⟩
  · rw [createFeedbackData_store]
    rfl
  · rw [createFeedbackData_store]
    rfl

namespace FeedbackAux

/-- A device, with the resources and times of the logs below. -/
def device : FeedbackContext where
  isRooted := false
  isPlayStoreBuild := true
  language := "en"
  networkTypeName := "WIFI"
  brand := "google"
  cpuAbi := "arm64-v8a"
  manufacturer := "Google"
  model := "Pixel 6"
  display := "SQ1D"
  tags := "release-keys"
  versionCodename := "REL"
  versionRelease := "12"
  versionSdkInt := 31
  propagationChannelId := "FFFFFFFFFFFFFFFF"
  sponsorId := "FFFFFFFFFFFFFFFF"
  clientVersion := "400"
  crashReport := none
  getISO8601String := fun timestamp => if timestamp = 1 then "1970-01-01T00:00:00.001Z" else "1970-01-01T00:00:00.002Z"
  resourceEntryName := fun name => if name = "com.psiphon3:string/starting_tunnel" then some "starting_tunnel"
    else if name = "com.psiphon3:string/individual_app_excluded" then some "individual_app_excluded" else none
  toInteger := fun _ => none
  valueOf := fun v => String.ofList (Json.print v)

/-- Feedback with diagnostics. -/
def withDiagnostics : FeedbackArgs := ⟨true, "", "slow", "", "0123456789ABCDEF", 3⟩

/-- The start of the tunnel is logged. -/
def started : LogCall := .status "com.psiphon3:string/starting_tunnel" [] notSensitive 4 1

/-- An app that is excluded is logged. -/
def excluded (packageId : String) : LogCall :=
  .status "com.psiphon3:string/individual_app_excluded" [.str packageId] sensitiveFormatArgs 4 2

/-- The tunnel is started, and one app is logged as excluded `n` times. -/
def opened (packageId : String) (n : Nat) : List LogCall := started :: List.replicate n (excluded packageId)

/-- Logs of two apps differ in sensitive content only. -/
theorem opened_same (packageId packageId' : String) (n : Nat) :
    List.Forall₂ SameButSensitive (opened packageId n) (opened packageId' n) := by
  refine .cons ⟨rfl, rfl, rfl, fun _ => ⟨rfl, fun _ => rfl⟩⟩ ?_
  induction n with
  | zero => exact .nil
  | succ n ih => exact .cons ⟨rfl, rfl, rfl, fun _ => ⟨rfl, fun hn => absurd rfl hn⟩⟩ ih

/-- The newer entries are read first. -/
theorem getLogsBeforeDate_opened (packageId : String) (n : Nat) :
    getLogsBeforeDate LogCall.timestamp 3 (opened packageId n) = List.replicate n (excluded packageId) ++ [started] := by
  have htime : (excluded packageId).timestamp = 2 := rfl
  have hsorted : (List.replicate n (excluded packageId) ++ [started]).Pairwise fun a b => decide (b.timestamp ≤ a.timestamp) = true := by
    refine List.pairwise_append.2 ⟨List.pairwise_replicate.2 (.inr (by rw [htime]; decide)), List.pairwise_singleton _ _, ?_⟩
    intro c hc d hd
    rw [List.eq_of_mem_replicate hc, List.mem_singleton.1 hd, htime]
    decide
  have hrows : ((opened packageId n).filter fun c => c.timestamp < 3).reverse = List.replicate n (excluded packageId) ++ [started] := by
    rw [opened, List.filter_cons_of_pos (by decide), List.filter_replicate, if_pos (by rw [htime]; decide), List.reverse_cons, List.reverse_replicate]
  rw [getLogsBeforeDate, hrows]
  exact List.mergeSort_of_pairwise hsorted

variable {c : LogCall} {rest : List LogCall} {n size : Nat}

/-- As long as there is room behind them, entries of one size are all read. -/
theorem withinLimit_replicate (hsize : javaLength c.store.logJson = size) {k : Nat} (h : k + n * size < maxLogSourceJsonSizeBytes) :
    withinLimit k (List.replicate n c ++ rest) = List.replicate n c ++ withinLimit (k + n * size) rest := by
  induction n generalizing k with
  | zero => simp
  | succ n ih =>
    rw [Nat.succ_mul] at h
    rw [List.replicate_succ, List.cons_append, withinLimit, if_pos (by omega), hsize, ih (by omega), List.cons_append, Nat.succ_mul,
      Nat.add_assoc, Nat.add_comm size]

/-- Where they use up the room, nothing behind them is read. -/
theorem length_withinLimit_le (hsize : javaLength c.store.logJson = size) {k : Nat} (h : maxLogSourceJsonSizeBytes ≤ k + n * size) :
    (withinLimit k (List.replicate n c ++ rest)).length ≤ n := by
  induction n generalizing k with
  | zero =>
    rw [List.replicate_zero, List.nil_append]
    cases rest with
    | nil => exact Nat.le_refl 0
    | cons d rest => rw [withinLimit, if_neg (by omega)]; exact Nat.le_refl 0
  | succ n ih =>
    rw [Nat.succ_mul] at h
    rw [List.replicate_succ, List.cons_append, withinLimit]
    split
    · rw [hsize, List.length_cons]
      exact Nat.succ_le_succ (ih (by omega))
    · exact Nat.zero_le _

/-- With room for the start of the tunnel behind the entries of the app, all of them are shown. -/
theorem shownWithinLimit_opened {packageId : String} (hsize : javaLength (excluded packageId).store.logJson = size)
    (h : n * size < maxLogSourceJsonSizeBytes) : shownWithinLimit 3 (opened packageId n) = n + 1 := by
  rw [shownWithinLimit, getLogsBeforeDate_opened, withinLimit_replicate hsize (by omega), List.countP_append, List.countP_replicate,
    if_pos (show (excluded packageId).shown = true from rfl), withinLimit, if_pos (by omega)]
  rfl

/-- Without it, at most these are. -/
theorem shownWithinLimit_opened_le {packageId : String} (hsize : javaLength (excluded packageId).store.logJson = size)
    (h : maxLogSourceJsonSizeBytes ≤ n * size) : shownWithinLimit 3 (opened packageId n) ≤ n := by
  rw [shownWithinLimit, getLogsBeforeDate_opened]
  exact List.countP_le_length.trans (length_withinLimit_le hsize (by omega))

end FeedbackAux

/-- Two logs that differ in the app that was excluded give one feedback. -/
theorem feedback_same_short : List.Forall₂ SameButSensitive (opened "a.b" 1) (opened "org.example.app" 1) ∧
    createFeedbackData device withDiagnostics ((opened "a.b" 1).map LogCall.store) =
      createFeedbackData device withDiagnostics ((opened "org.example.app" 1).map LogCall.store) := by
  have hsame := opened_same "a.b" "org.example.app" 1
  refine ⟨hsame, (feedback_same_iff device withDiagnostics hsame).2.2.mpr fun _ => ?_⟩
  change shownWithinLimit 3 _ = shownWithinLimit 3 _
  rw [shownWithinLimit_opened (show _ = 106 by decide +kernel) (by decide), shownWithinLimit_opened (show _ = 118 by decide +kernel) (by decide)]

/-- Nine thousand entries of an app with the longer name use up the limit, and the entry before them is not in the feedback; those of
the app with the shorter name leave room for it. -/
theorem feedback_depends_on_sensitive_length :
    List.Forall₂ SameButSensitive (opened "a.b" 9000) (opened "org.example.app" 9000) ∧
    createFeedbackData device withDiagnostics ((opened "a.b" 9000).map LogCall.store) ≠
      createFeedbackData device withDiagnostics ((opened "org.example.app" 9000).map LogCall.store) := by
  refine ⟨opened_same _ _ _, fun heq => ?_⟩
  have hcount := (createFeedbackData_eq_iff device withDiagnostics (opened_same _ _ _)).mp heq rfl
  have hle : shownWithinLimit 3 (opened "org.example.app" 9000) ≤ 9000 :=
    shownWithinLimit_opened_le (show _ = 118 by decide +kernel) (by decide)
  change shownWithinLimit 3 _ = shownWithinLimit 3 _ at hcount
  rw [← hcount, shownWithinLimit_opened (show _ = 106 by decide +kernel) (by decide)] at hle
  omega

end PsiphonAndroid
