import Mathlib.Data.List.Nodup
import PsiphonAndroid.Lib.FileLock
import PsiphonAndroid.Lib.Json
import PsiphonAndroid.Lib.Transition

/-!
# The file of trusted signatures

`saveTrustedSignaturesToFile` and `readTrustedSignaturesFromFile` of `PackageHelper`: the map of packages and their signatures, its text,
and every interleaving of the calls of any threads of any processes. A call opens the lock file, locks it (the whole file, shared for a
read), works on the files, releases the lock and closes the channel. A map is saved to a temporary file that is then renamed. No
operation on a file fails. A file is an inode with its characters, which are written and read in pieces; a name is bound to an inode, and
renaming moves the name.
-/

namespace PsiphonAndroid

open Lib

/-! ## The map and its text -/

/-- `Set<String>`, in the order of its iteration. -/
@[ext] structure SignatureSet where
  signatures : List String
  nodup : signatures.Nodup
  deriving DecidableEq

namespace SignatureSet

/-- The set without elements. -/
def empty : SignatureSet := ⟨[], List.nodup_nil⟩

/-- `add`. -/
def add (set : SignatureSet) (signature : String) : SignatureSet :=
  if h : signature ∈ set.signatures then set
  else ⟨set.signatures ++ [signature], set.nodup.append (List.nodup_singleton _) (List.disjoint_singleton.mpr h)⟩

end SignatureSet

/-- `Map<String, Set<String>>`, in the order of its iteration. -/
@[ext] structure TrustedSignatures where
  entries : List (String × SignatureSet)
  nodup : (entries.map Prod.fst).Nodup
  deriving DecidableEq

namespace TrustedSignatures

/-- The map without entries. -/
def empty : TrustedSignatures := ⟨[], List.nodup_nil⟩

/-- `put`: in the place of the old entry if there is one, and else at the end. -/
def put (m : TrustedSignatures) (packageName : String) (set : SignatureSet) : TrustedSignatures :=
  if h : packageName ∈ m.entries.map Prod.fst then
    ⟨m.entries.map fun e => if e.1 = packageName then (packageName, set) else e, by
      have hkeys : (m.entries.map fun e => if e.1 = packageName then (packageName, set) else e).map Prod.fst = m.entries.map Prod.fst := by
        rw [List.map_map]
        refine List.map_congr_left fun e _ => ?_
        dsimp only [Function.comp_apply]
        split
        · rename_i he
          exact he.symm
        · rfl
      rw [hkeys]
      exact m.nodup⟩
  else ⟨m.entries ++ [(packageName, set)], by
    rw [List.map_append]
    exact m.nodup.append (List.nodup_singleton _) (List.disjoint_singleton.mpr h)⟩

/-- The `JSONObject` of a map: `put` of a `JSONArray` for each entry. -/
def toJson (m : TrustedSignatures) : List (String × Json) :=
  m.entries.foldl (fun ms e => Json.put ms e.1 (some (.arr (e.2.signatures.map .str)))) []

/-- The text that is written. -/
def text (m : TrustedSignatures) : List Char := Json.print (.obj m.toJson)

/-- `getString` of an element: what is no string is turned into its text. -/
def getString : Json → String
  | .str s => s
  | j => String.ofList (Json.print j)

/-- The loop over the names of the object. A value that is no array ends it with an exception, and the map as it is by then. -/
def putAll (m : TrustedSignatures) : List (String × Json) → TrustedSignatures
  | [] => m
  | (packageName, .arr xs) :: ms => (m.put packageName ((xs.map getString).foldl SignatureSet.add .empty)).putAll ms
  | _ :: _ => m

/-- What is read from a text: its lines without their ends, as an object; a text that is none gives an empty map. -/
def ofText (cs : List Char) : TrustedSignatures :=
  match Json.parse (cs.filter Json.inLine) with
  | some (.obj ms) => empty.putAll ms
  | _ => empty

/-! ## A map is read back from its text -/

/-- Distinct signatures are added at the end. -/
theorem foldl_add {set : SignatureSet} {signatures : List String} (h : (set.signatures ++ signatures).Nodup) :
    (signatures.foldl SignatureSet.add set).signatures = set.signatures ++ signatures := by
  induction signatures generalizing set with
  | nil => exact (List.append_nil _).symm
  | cons s signatures ih =>
    have hs : s ∉ set.signatures := by
      intro hn
      exact (List.nodup_append.mp h).2.2 s hn s List.mem_cons_self rfl
    have hadd : (set.add s).signatures = set.signatures ++ [s] := by
      unfold SignatureSet.add
      rw [dif_neg hs]
    have happ : set.signatures ++ s :: signatures = (set.add s).signatures ++ signatures := by
      rw [hadd, List.append_assoc, List.singleton_append]
    rw [happ] at h ⊢
    exact ih h

/-- A new package is put at the end. -/
theorem put_new {m : TrustedSignatures} {packageName : String} (h : packageName ∉ m.entries.map Prod.fst) (set : SignatureSet) :
    (m.put packageName set).entries = m.entries ++ [(packageName, set)] := by
  unfold put
  rw [dif_neg h]

/-- The members of the object of a map. -/
def members (entries : List (String × SignatureSet)) : List (String × Json) := entries.map fun e => (e.1, .arr (e.2.signatures.map .str))

/-- Distinct packages give the members in their order. -/
theorem foldl_put {done entries : List (String × SignatureSet)} (h : ((done ++ entries).map Prod.fst).Nodup) :
    entries.foldl (fun ms e => Json.put ms e.1 (some (.arr (e.2.signatures.map .str)))) (members done) = members (done ++ entries) := by
  induction entries generalizing done with
  | nil => rw [List.append_nil, List.foldl_nil]
  | cons e entries ih =>
    have hnew : ¬((members done).any (·.1 == e.1)) = true := by
      intro hn
      obtain ⟨x, hx, hkey⟩ := List.any_eq_true.mp hn
      obtain ⟨y, hy, rfl⟩ := List.mem_map.mp hx
      rw [List.map_append, List.map_cons] at h
      exact (List.nodup_append.mp h).2.2 y.1 (List.mem_map_of_mem hy) e.1 List.mem_cons_self (eq_of_beq hkey)
    have hput : Json.put (members done) e.1 (some (.arr (e.2.signatures.map .str))) = members (done ++ [e]) := by
      unfold Json.put
      dsimp only
      rw [if_neg hnew, members, members, List.map_append]
      rfl
    have happ : done ++ e :: entries = done ++ [e] ++ entries := by rw [List.append_assoc, List.singleton_append]
    rw [List.foldl_cons, hput, happ]
    exact ih (happ ▸ h)

/-- The members of distinct packages are put at the end. -/
theorem putAll_members {m : TrustedSignatures} {entries : List (String × SignatureSet)}
    (h : ((m.entries ++ entries).map Prod.fst).Nodup) : (m.putAll (members entries)).entries = m.entries ++ entries := by
  induction entries generalizing m with
  | nil => exact (List.append_nil _).symm
  | cons e entries ih =>
    obtain ⟨packageName, set⟩ := e
    have hset : (((set.signatures.map Json.str).map getString).foldl SignatureSet.add .empty) = set := by
      rw [List.map_map]
      refine SignatureSet.ext ?_
      have hid : set.signatures.map (getString ∘ Json.str) = set.signatures := List.map_id' set.signatures
      rw [hid]
      exact @foldl_add .empty set.signatures set.nodup
    have hnew : packageName ∉ m.entries.map Prod.fst := by
      intro hn
      rw [List.map_append, List.map_cons] at h
      exact (List.nodup_append.mp h).2.2 _ hn packageName List.mem_cons_self rfl
    have happ : m.entries ++ (packageName, set) :: entries = (m.put packageName set).entries ++ entries := by
      rw [put_new hnew, List.append_assoc, List.singleton_append]
    change ((m.put packageName (((set.signatures.map Json.str).map getString).foldl SignatureSet.add .empty)).putAll
      (members entries)).entries = _
    rw [hset, happ]
    exact ih (happ ▸ h)

/-- What is written is read back. -/
theorem ofText_text (m : TrustedSignatures) : ofText m.text = m := by
  have hjson : m.toJson = members m.entries := @foldl_put [] m.entries m.nodup
  have hline : m.text.filter Json.inLine = m.text := List.filter_eq_self.mpr (List.all_eq_true.mp (Json.print_inLine _))
  have hall : (empty.putAll (members m.entries)).entries = m.entries := @putAll_members empty m.entries m.nodup
  unfold ofText
  rw [hline, text, Json.parse_print, hjson]
  exact TrustedSignatures.ext hall

end TrustedSignatures

/-! ## The calls -/

/-- Where a call is. It is `absent` before it begins, and from `opened` to `closing` its channel is open; a save writes at its position
in the temporary file, and a read has the characters it has read. -/
inductive SignatureCallPhase where
  | absent
  | opened
  | waiting
  | locked
  | writing (inode position : Nat)
  | renaming
  | checkingTemp
  | deletingTemp
  | opening
  | reading (inode : Nat) (builder : List Char)
  | releasing
  | closing
  | returned
  deriving DecidableEq

namespace SignatureCallPhase

/-- The call has the lock of its process. -/
def holds : SignatureCallPhase → Bool
  | .absent | .opened | .waiting | .closing | .returned => false
  | _ => true

/-- The call waits for the lock or has it, or where closing a channel ends the lock, its channel is still to be closed. -/
def busy (closeReleases : Bool) : SignatureCallPhase → Bool
  | .waiting => true
  | .closing => closeReleases
  | phase => phase.holds

end SignatureCallPhase

/-- A call by a thread of a process. `signatures` is the argument of a save, and the variable of a read that it returns. When a read
gets its lock, it notes how many saves have renamed their file, and which ones have completed. -/
structure SignatureCall where
  process : Nat
  isSave : Bool
  signatures : TrustedSignatures
  phase : SignatureCallPhase
  seen : Nat
  completed : List Nat

/-- The names and inodes of the files, the lock of the lock file, and the calls, which are numbered as they come. `saved` are the saves
that have renamed their file, in order. The inodes are `0, …, nextInode - 1`. -/
structure SignatureFiles where
  contents : Nat → List Char
  nextInode : Nat
  tempFile : Option Nat
  finalFile : Option Nat
  locks : FileLocks
  calls : Nat → SignatureCall
  count : Nat
  saved : List Nat

/-- The operations of the calls. A call begins by opening its channel; `lock` asks for the lock and `acquire` is when it is granted; a
piece of the text is written or read at a time. -/
inductive SignatureEvent where
  | save (process : Nat) (signatures : TrustedSignatures)
  | read (process : Nat)
  | lock (call : Nat)
  | acquire (call : Nat)
  | createTemp (call : Nat)
  | write (call n : Nat)
  | closeTemp (call : Nat)
  | rename (call : Nat)
  | existsTemp (call : Nat)
  | deleteTemp (call : Nat)
  | existsFinal (call : Nat)
  | openFinal (call : Nat)
  | readPiece (call n : Nat)
  | endOfFile (call : Nat)
  | release (call : Nat)
  | close (call : Nat)
  deriving DecidableEq

/-- A write of characters at a position: a gap is filled with zeros. -/
def writeChars (content : List Char) (position : Nat) (piece : List Char) : List Char :=
  (content ++ List.replicate (position - content.length) '\x00').take position ++ piece ++ content.drop (position + piece.length)

namespace SignatureFiles

/-- A call that begins. -/
def begin (s : SignatureFiles) (call : SignatureCall) : SignatureFiles :=
  { s with calls := Function.update s.calls s.count call, count := s.count + 1 }

/-- A call goes on. -/
def goTo (s : SignatureFiles) (call : Nat) (phase : SignatureCallPhase) : SignatureFiles :=
  { s with calls := Function.update s.calls call { s.calls call with phase := phase } }

/-- The saves that have released their lock. -/
def completedSaves (s : SignatureFiles) : List Nat := (List.range s.count).filter fun call =>
  (s.calls call).isSave && ((s.calls call).phase = .closing || (s.calls call).phase = .returned)

/-- The map of the last of some saves, and the empty map where there is none. -/
def lastSaved (s : SignatureFiles) (saves : List Nat) : TrustedSignatures :=
  (saves.getLast?.map fun call => (s.calls call).signatures).getD .empty

/-- One operation, where it can come. With `closeReleases`, the operating system ends the lock of a process when one of its channels is
closed. -/
def step (closeReleases : Bool) (s : SignatureFiles) : SignatureEvent → Option SignatureFiles
  | .save process signatures => some (s.begin ⟨process, true, signatures, .opened, 0, []⟩)
  | .read process => some (s.begin ⟨process, false, .empty, .opened, 0, []⟩)
  | .lock call =>
    match (s.calls call).phase with
    | .opened =>
      -- `OverlappingFileLockException`: a save returns, and a read returns its empty map.
      if s.locks.Overlaps (s.calls call).process then some (s.goTo call .closing)
      else some ({ s with locks := s.locks.enter (s.calls call).process call }.goTo call .waiting)
    | _ => none
  | .acquire call =>
    match (s.calls call).phase with
    | .waiting =>
      if s.locks.Free (s.calls call).process (!(s.calls call).isSave) then
        some { s with
          locks := s.locks.grant (s.calls call).process (!(s.calls call).isSave)
          calls := Function.update s.calls call { s.calls call with
            phase := .locked, seen := s.saved.length, completed := s.completedSaves } }
      else none
    | _ => none
  | .createTemp call =>
    match (s.calls call).phase, (s.calls call).isSave, s.tempFile with
    | .locked, true, some inode => some ({ s with contents := Function.update s.contents inode [] }.goTo call (.writing inode 0))
    | .locked, true, none => some ({ s with
        contents := Function.update s.contents s.nextInode []
        nextInode := s.nextInode + 1
        tempFile := some s.nextInode }.goTo call (.writing s.nextInode 0))
    | _, _, _ => none
  | .write call n =>
    match (s.calls call).phase with
    | .writing inode position =>
      if position < (s.calls call).signatures.text.length ∧ 0 < n then
        let piece := ((s.calls call).signatures.text.drop position).take n
        some ({ s with contents := Function.update s.contents inode (writeChars (s.contents inode) position piece) }.goTo call
          (.writing inode (position + piece.length)))
      else none
    | _ => none
  | .closeTemp call =>
    match (s.calls call).phase with
    | .writing _ position =>
      if position = (s.calls call).signatures.text.length then some (s.goTo call .renaming) else none
    | _ => none
  | .rename call =>
    match (s.calls call).phase, s.tempFile with
    | .renaming, some inode => some ({ s with
        tempFile := none, finalFile := some inode, saved := s.saved ++ [call] }.goTo call .checkingTemp)
    | .renaming, none => some (s.goTo call .checkingTemp)
    | _, _ => none
  | .existsTemp call =>
    match (s.calls call).phase with
    | .checkingTemp => some (s.goTo call (if s.tempFile.isSome then .deletingTemp else .releasing))
    | _ => none
  | .deleteTemp call =>
    match (s.calls call).phase with
    | .deletingTemp => some ({ s with tempFile := none }.goTo call .releasing)
    | _ => none
  | .existsFinal call =>
    match (s.calls call).phase, (s.calls call).isSave with
    | .locked, false => some (s.goTo call (if s.finalFile.isSome then .opening else .releasing))
    | _, _ => none
  | .openFinal call =>
    match (s.calls call).phase, s.finalFile with
    | .opening, some inode => some (s.goTo call (.reading inode []))
    | .opening, none => some (s.goTo call .releasing)
    | _, _ => none
  | .readPiece call n =>
    match (s.calls call).phase with
    | .reading inode builder =>
      if builder.length < (s.contents inode).length ∧ 0 < n then
        some (s.goTo call (.reading inode (builder ++ ((s.contents inode).drop builder.length).take n)))
      else none
    | _ => none
  | .endOfFile call =>
    match (s.calls call).phase with
    | .reading inode builder =>
      if (s.contents inode).length ≤ builder.length then
        some { s with calls := Function.update s.calls call { s.calls call with
          phase := .releasing, signatures := .ofText builder } }
      else none
    | _ => none
  | .release call =>
    match (s.calls call).phase with
    | .releasing => some ({ s with locks := s.locks.release (s.calls call).process }.goTo call .closing)
    | _ => none
  | .close call =>
    match (s.calls call).phase with
    | .closing => some ({ s with
        locks := if closeReleases then s.locks.forget (s.calls call).process else s.locks }.goTo call .returned)
    | _ => none

/-- No call asks for the lock while another one of its process is busy with it. -/
def Apart (closeReleases : Bool) (s : SignatureFiles) : SignatureEvent → Prop
  | .lock call => ∀ other < s.count, other ≠ call → (s.calls other).process = (s.calls call).process →
      (s.calls other).phase.busy closeReleases = false
  | _ => True

instance (closeReleases : Bool) (s : SignatureFiles) (e : SignatureEvent) : Decidable (s.Apart closeReleases e) := by
  cases e <;> unfold Apart <;> infer_instance

end SignatureFiles

/-- The calls of all processes, from a state without a file of signatures. -/
def signatureSystem (closeReleases : Bool) : System SignatureFiles SignatureEvent where
  init s := s.tempFile = none ∧ s.finalFile = none ∧ s.locks = ⟨[], []⟩ ∧ (∀ call, (s.calls call).phase = .absent) ∧ s.count = 0 ∧
    s.saved = []
  step := SignatureFiles.step closeReleases

end PsiphonAndroid
