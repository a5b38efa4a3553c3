import Mathlib
import PsiphonAndroid.Lib.Json

/-!
# The log and the feedback made from it

`MyLog` writes each entry of the log as the text of a JSON object, and `FeedbackWorker.createFeedbackData` reads the texts back, newest
first, until it has read `MAX_LOG_SOURCE_JSON_SIZE_BYTES`, and copies what is not sensitive into the feedback. The format arguments of
an entry are taken as the JSON values they are written as.
-/

namespace PsiphonAndroid

open Lib

/-! ## `MyLog` -/

/-- `MyLog.Sensitivity.NOT_SENSITIVE`. -/
abbrev notSensitive : Int32 := 1

/-- `MyLog.Sensitivity.SENSITIVE_LOG`. -/
abbrev sensitiveLog : Int32 := 2

/-- `MyLog.Sensitivity.SENSITIVE_FORMAT_ARGS`. -/
abbrev sensitiveFormatArgs : Int32 := 4

/-- `LogEntry`, a row of the log. -/
structure LogEntry where
  logJson : String
  isDiagnostic : Bool
  priority : Int32
  timestamp : Int64

/-- `JSONObject.toString`. -/
def jsonText (ms : List (String × Json)) : String := String.ofList (Json.print (.obj ms))

/-- An `int` in a JSON object. -/
def jsonInt (n : Int32) : Json := .num (.ofInt n.toInt)

/-- The object of `storeStatusLog`. -/
def statusLogJson (stringResourceName : String) (formatArgs : List Json) (sensitivity : Int32) : List (String × Json) :=
  [("stringResourceName", .str stringResourceName), ("sensitivity", jsonInt sensitivity),
    ("formatArgs", if formatArgs.length = 0 then .null else .arr formatArgs)]

/-- `storeStatusLog`, for a resource of the given name. -/
def storeStatusLog (stringResourceName : String) (formatArgs : List Json) (sensitivity priority : Int32) (timestamp : Int64) : LogEntry :=
  ⟨jsonText (statusLogJson stringResourceName formatArgs sensitivity), false, priority, timestamp⟩

/-- The object of `storeDiagnosticLog`; a null value takes its name out. -/
def diagnosticLogJson (msg : Option String) (nameValuePairs : List (String × Option Json)) : List (String × Json) :=
  let data := nameValuePairs.foldl (fun data nv => Json.put data nv.1 nv.2) []
  Json.put (Json.put [] "msg" (msg.map .str)) "data" (some (.obj data))

/-- `storeDiagnosticLog`. -/
def storeDiagnosticLog (msg : Option String) (nameValuePairs : List (String × Option Json)) (priority : Int32) (timestamp : Int64) :
    LogEntry :=
  ⟨jsonText (diagnosticLogJson msg nameValuePairs), true, priority, timestamp⟩

/-- A call that logs. -/
inductive LogCall where
  | status (stringResourceName : String) (formatArgs : List Json) (sensitivity priority : Int32) (timestamp : Int64)
  | diagnostic (msg : Option String) (nameValuePairs : List (String × Option Json)) (priority : Int32) (timestamp : Int64)

namespace LogCall

/-- The row a call stores. -/
def store : LogCall → LogEntry
  | .status stringResourceName formatArgs sensitivity priority timestamp =>
    storeStatusLog stringResourceName formatArgs sensitivity priority timestamp
  | .diagnostic msg nameValuePairs priority timestamp => storeDiagnosticLog msg nameValuePairs priority timestamp

def timestamp : LogCall → Int64
  | .status _ _ _ _ timestamp => timestamp
  | .diagnostic _ _ _ timestamp => timestamp

end LogCall

/-! ## `FeedbackWorker` -/

/-- `MAX_LOG_SOURCE_JSON_SIZE_BYTES`. -/
abbrev maxLogSourceJsonSizeBytes : Nat := 2 ^ 20

/-- What `createFeedbackData` reads of the device and the app, and the conversions of `org.json` and of the resources it uses:
`toInteger` of a value that is no `int`, `valueOf` of a value that is no string, and the entry name of a resource where the name is
one. -/
structure FeedbackContext where
  isRooted : Bool
  isPlayStoreBuild : Bool
  language : String
  networkTypeName : String
  brand : String
  cpuAbi : String
  manufacturer : String
  model : String
  display : String
  tags : String
  versionCodename : String
  versionRelease : String
  versionSdkInt : Int32
  propagationChannelId : String
  sponsorId : String
  clientVersion : String
  crashReport : Option (List String)
  getISO8601String : Int64 → String
  resourceEntryName : String → Option String
  toInteger : Json → Option Int32
  valueOf : Json → String

/-- The other arguments of `createFeedbackData`. -/
structure FeedbackArgs where
  shouldIncludeDiagnostics : Bool
  email : String
  feedbackText : String
  surveyResponsesJson : String
  feedbackId : String
  beforeTimeMillis : Int64

/-- `String.length`, in UTF-16 code units. -/
def javaLength (s : String) : Nat := (s.toList.map fun c => if 0x10000 ≤ c.toNat then 2 else 1).sum

/-- `getLogsBeforeDate`: the rows before the date, newest first; rows of one time come in the order the index is walked back. -/
def getLogsBeforeDate {α : Type} (timestamp : α → Int64) (beforeDateMillis : Int64) (rows : List α) : List α :=
  (rows.filter fun row => timestamp row < beforeDateMillis).reverse.mergeSort fun a b => timestamp b ≤ timestamp a

/-- `new JSONObject(text)`; nothing where it throws. -/
def jsonObject (text : String) : Option (List (String × Json)) :=
  match Json.parse text.toList with
  | some (.obj ms) => some ms
  | _ => none

section Worker

variable (context : FeedbackContext)

/-- `optInt`. -/
def optInt (ms : List (String × Json)) (name : String) (fallback : Int32) : Int32 :=
  match Json.opt ms name with
  | none => fallback
  | some (.num n) =>
    match n.toInt? with
    | some i => if Int32.minValue.toInt ≤ i ∧ i ≤ Int32.maxValue.toInt then Int32.ofInt i
      else (context.toInteger (.num n)).getD fallback
    | none => (context.toInteger (.num n)).getD fallback
  | some v => (context.toInteger v).getD fallback

/-- `getString`; nothing where it throws. -/
def getString (ms : List (String × Json)) (name : String) : Option String :=
  (Json.opt ms name).map fun
    | .str s => s
    | v => context.valueOf v

/-- `optJSONArray`. -/
def optJsonArray (ms : List (String × Json)) (name : String) : Option (List Json) :=
  match Json.opt ms name with
  | some (.arr xs) => some xs
  | _ => none

/-- The two histories of the feedback. -/
structure Histories where
  diagnosticHistory : List Json
  statusHistory : List Json

/-- The entry of the diagnostic history. -/
def diagnosticEntry (timestamp : Int64) (ms : List (String × Json)) : Json :=
  .obj [("timestamp!!timestamp", .str (context.getISO8601String timestamp)), ("msg", (Json.opt ms "msg").getD .null),
    ("data", (Json.opt ms "data").getD .null)]

/-- The entry of the status history. -/
def statusEntry (timestamp : Int64) (priority : Int32) (id : String) (formatArgs : Json) : Json :=
  .obj [("timestamp!!timestamp", .str (context.getISO8601String timestamp)), ("id", .str id), ("priority", jsonInt priority),
    ("formatArgs", formatArgs), ("throwable", .null)]

/-- The body of the loop for one row. -/
def addLogEntry (h : Histories) (logEntry : LogEntry) : Option Histories := do
  let logJsonObject ← jsonObject logEntry.logJson
  if logEntry.isDiagnostic then
    return { h with diagnosticHistory := h.diagnosticHistory ++ [diagnosticEntry context logEntry.timestamp logJsonObject] }
  else
    let sensitivity := optInt context logJsonObject "sensitivity" 0
    if sensitivity = sensitiveLog then return h
    else do
      let stringResourceName ← getString context logJsonObject "stringResourceName"
      let id := (context.resourceEntryName stringResourceName).getD ""
      let formatArgs :=
        if sensitivity ≠ sensitiveFormatArgs then
          match optJsonArray logJsonObject "formatArgs" with
          | some xs => if 0 < xs.length then .arr xs else .null
          | none => .null
        else .null
      return { h with statusHistory := h.statusHistory ++ [statusEntry context logEntry.timestamp logEntry.priority id formatArgs] }

/-- The loop over the rows, as long as fewer bytes were read than allowed. -/
def readLogs : Nat → List LogEntry → Histories → Option Histories
  | _, [], h => some h
  | totalBytesRead, logEntry :: rows, h =>
    if totalBytesRead < maxLogSourceJsonSizeBytes then do
      let h ← addLogEntry context h logEntry
      readLogs (totalBytesRead + javaLength logEntry.logJson) rows h
    else some h

/-- The system information. -/
def systemInformation : Json :=
  .obj [("isRooted", .bool context.isRooted), ("isPlayStoreBuild", .bool context.isPlayStoreBuild),
    ("language", .str context.language), ("networkTypeName", .str context.networkTypeName),
    ("Build", .obj [("BRAND", .str context.brand), ("CPU_ABI", .str context.cpuAbi), ("MANUFACTURER", .str context.manufacturer),
      ("MODEL", .str context.model), ("DISPLAY", .str context.display), ("TAGS", .str context.tags),
      ("VERSION__CODENAME", .str context.versionCodename), ("VERSION__RELEASE", .str context.versionRelease),
      ("VERSION__SDK_INT", jsonInt context.versionSdkInt)]),
    ("PsiphonInfo", .obj [("PROPAGATION_CHANNEL_ID", .str context.propagationChannelId), ("SPONSOR_ID", .str context.sponsorId),
      ("CLIENT_VERSION", .str context.clientVersion)])]

/-- The crash history, where there is a report with a line. -/
def crashHistory : List (String × Json) :=
  match context.crashReport with
  | some (line :: lines) => [("CrashHistory", .arr ((line :: lines).map .str))]
  | _ => []

/-- The diagnostic information. -/
def diagnosticInfo (h : Histories) : Json :=
  .obj ([("SystemInformation", systemInformation context), ("DiagnosticHistory", .arr h.diagnosticHistory),
    ("StatusHistory", .arr h.statusHistory)] ++ crashHistory context)

/-- The metadata and what the user wrote. -/
def feedbackMembers (args : FeedbackArgs) : List (String × Json) :=
  [("Metadata", .obj [("platform", .str "android"), ("version", jsonInt 4), ("id", .str args.feedbackId)])] ++
    if 0 < args.feedbackText.length ∨ 0 < args.surveyResponsesJson.length then
      [("Feedback", .obj [("email", .str args.email), ("Message", .obj [("text", .str args.feedbackText)]),
        ("Survey", .obj [("json", .str args.surveyResponsesJson)])])]
    else []

/-- `createFeedbackData`, with the rows of the log; nothing where it throws. -/
def createFeedbackData (args : FeedbackArgs) (rows : List LogEntry) : Option String :=
  if args.shouldIncludeDiagnostics then do
    let h ← readLogs context 0 (getLogsBeforeDate LogEntry.timestamp args.beforeTimeMillis rows) ⟨[], []⟩
    return jsonText (feedbackMembers args ++ [("DiagnosticInfo", diagnosticInfo context h)])
  else some (jsonText (feedbackMembers args))

end Worker

end PsiphonAndroid
