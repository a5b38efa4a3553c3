import PsiphonAndroid.Lib.Base64

/-!
# Authenticated data packages

`AuthenticatedDataPackage.extractAndVerifyData`. The parser is the tokens it gives; a string token carries the text and what reading
it as base64 writes, in as many pieces as the parser makes. What the platform provides (`Security`) and where the destination fails
(`Disk`) is left open. Every function gives the state it ends in together with the exception it throws, if any.
-/

namespace PsiphonAndroid

open Lib

/-- The exceptions of the modelled code: `IOException`, the checked ones of `java.security`, `AuthenticatedDataPackageException`, and the
unchecked `IllegalArgumentException`. -/
inductive PackageException where
  | io
  | security
  | authenticatedDataPackage
  | illegalArgument
  deriving DecidableEq

/-- `java.security` and `android.util.Base64`: `Base64.decode`, which gives nothing where it throws `IllegalArgumentException`,
SHA-256, `generatePublic`, which fails on what is not a key, and `Signature.verify` on a key, the bytes of all updates and a
signature, which gives nothing where it throws `SignatureException`. -/
structure Security where
  base64Decode : String → Option Bytes
  sha256 : Bytes → Bytes
  generatePublic : Bytes → Bool
  verify : Bytes → Bytes → Bytes → Option Bool

/-- `Base64.encodeToString` with `NO_WRAP`. -/
def base64EncodeToString (b : Bytes) : String := String.ofList ((base64 b).map fun c => Char.ofNat c.toNat)

/-- `String.getBytes()`. -/
def getBytes (s : String) : Bytes := s.toUTF8.toList

/-! ## The destination -/

/-- An output stream: what was written, whether it was closed, and how many calls were made on it. -/
structure Destination where
  written : Bytes
  closed : Bool
  calls : Nat
  deriving DecidableEq

/-- Where a destination throws: a write after some of its bytes, and `close`. -/
structure Disk where
  writeFault : Destination → Bytes → Option Nat
  closeFault : Destination → Bool

namespace Destination

/-- A file opened with truncation. -/
abbrev new : Destination := ⟨[], false, 0⟩

/-- `write`: a closed stream takes no bytes. -/
def write (disk : Disk) (d : Destination) (b : Bytes) : Destination × Option PackageException :=
  if d.closed ∧ b ≠ [] then ({ d with calls := d.calls + 1 }, some .io) else
  match disk.writeFault d b with
  | some n => ({ d with
      written := d.written ++ b.take n
      calls := d.calls + 1 }, some .io)
  | none => ({ d with
      written := d.written ++ b
      calls := d.calls + 1 }, none)

/-- `close`. -/
def close (disk : Disk) (d : Destination) : Destination × Option PackageException :=
  ({ d with
    closed := true
    calls := d.calls + 1 }, if disk.closeFault d then some .io else none)

end Destination

/-- `VerifyingOutputStream`: the destination and the stream to the verifier. `verifier.out` is what `Signature.update` was given;
without `dataIsBase64` nothing stays in the encoder. -/
structure VerifyingOutputStream where
  dataIsBase64 : Bool
  out : Destination
  verifier : Base64Encoder
  deriving DecidableEq

namespace VerifyingOutputStream

/-- The constructor. -/
def new (dataIsBase64 : Bool) (out : Destination) : VerifyingOutputStream := ⟨dataIsBase64, out, .new⟩

/-- `verifyOutputStream.write`. -/
def verifyWrite (v : VerifyingOutputStream) (b : Bytes) : Base64Encoder :=
  if v.dataIsBase64 then v.verifier.write b else { v.verifier with out := v.verifier.out ++ b }

/-- `verifyOutputStream.close`. -/
def verifyClose (v : VerifyingOutputStream) : Base64Encoder := if v.dataIsBase64 then v.verifier.finish else v.verifier

/-- `write`. -/
def write (disk : Disk) (v : VerifyingOutputStream) (b : Bytes) : VerifyingOutputStream × Option PackageException :=
  match v.out.write disk b with
  | (out, some e) => ({ v with out := out }, some e)
  | (out, none) => ({ v with
      out := out
      verifier := v.verifyWrite b }, none)

/-- The pieces of a value are written one after another. -/
def writeChunks (disk : Disk) : VerifyingOutputStream → List Bytes → VerifyingOutputStream × Option PackageException
  | v, [] => (v, none)
  | v, b :: rest =>
    match v.write disk b with
    | (v, some e) => (v, some e)
    | (v, none) => writeChunks disk v rest

/-- `close`. -/
def close (disk : Disk) (v : VerifyingOutputStream) : VerifyingOutputStream × Option PackageException :=
  match v.out.close disk with
  | (out, some e) => ({ v with out := out }, some e)
  | (out, none) => ({ v with
      out := out
      verifier := v.verifyClose }, none)

end VerifyingOutputStream

/-! ## Parsing -/

/-- A string value: its text, unless reading it throws, the pieces that `readBinaryValue` writes, and how that ends. -/
structure StringValue where
  text : Option String
  chunks : List Bytes
  ending : Option PackageException
  deriving DecidableEq

/-- `JsonToken`. -/
inductive JsonToken where
  | startObject
  | endObject
  | startArray
  | endArray
  | fieldName (name : String)
  | valueString (value : StringValue)
  | valueOther
  deriving DecidableEq

/-- What a parser gives: tokens, and then nothing, or an exception where the input is `broken`. -/
structure JsonInput where
  tokens : List JsonToken
  broken : Bool
  deriving DecidableEq

/-- The variables of the loop. -/
structure ExtractState where
  verifyingOutputStream : VerifyingOutputStream
  dataValueRead : Bool
  signature : Option String
  signingPublicKeyDigest : Option String
  deriving DecidableEq

/-- Where the loop is when it asks for a token: at a field, at the value of a field, or in `skipChildren`. -/
inductive ParseMode where
  | field
  | value (fieldName : String)
  | skipChildren (opened : Nat)
  deriving DecidableEq

/-- A turn of the loop: it goes on, or it ends, with an exception or without. -/
inductive ParseTurn where
  | more (mode : ParseMode) (state : ExtractState)
  | stop (state : ExtractState) (thrown : Option PackageException)
  deriving DecidableEq

namespace ExtractState

/-- The call for a value of the field `data`: written, then closed. -/
def readData (disk : Disk) (s : ExtractState) (value : StringValue) : VerifyingOutputStream × Option PackageException :=
  let written : VerifyingOutputStream × Option PackageException :=
    if s.verifyingOutputStream.dataIsBase64 then
      match s.verifyingOutputStream.writeChunks disk value.chunks with
      | (v, some e) => (v, some e)
      -- the IllegalArgumentException of malformed base64 is caught here
      | (v, none) => (v, value.ending.map fun e => if e = .illegalArgument then .authenticatedDataPackage else e)
    else
      match value.text with
      | none => (s.verifyingOutputStream, some .io)
      | some text => s.verifyingOutputStream.write disk (getBytes text)
  match written with
  | (v, some e) => (v, some e)
  | (v, none) => v.close disk

/-- A string value of a field. -/
def readString (disk : Disk) (s : ExtractState) (fieldName : String) (value : StringValue) : ParseTurn :=
  if fieldName = "data" then
    match s.readData disk value with
    | (v, some e) => .stop { s with verifyingOutputStream := v } (some e)
    | (v, none) => .more .field { s with
        verifyingOutputStream := v
        dataValueRead := true }
  else if fieldName = "signature" then
    match value.text with
    | none => .stop s (some .io)
    | some text => .more .field { s with signature := some text }
  else if fieldName = "signingPublicKeyDigest" then
    match value.text with
    | none => .stop s (some .io)
    | some text => .more .field { s with signingPublicKeyDigest := some text }
  else .more .field s

/-- What the loop does with a token, or with the end of the input. -/
def turn (disk : Disk) (s : ExtractState) : ParseMode → Option JsonToken → ParseTurn
  | .field, some .endObject => .stop s none
  | .field, some (.fieldName name) => .more (.value name) s
  | .field, _ => .stop s (some .authenticatedDataPackage)
  | .value name, some (.valueString value) => s.readString disk name value
  | .value _, some .startObject => .more (.skipChildren 1) s
  | .value _, some .startArray => .more (.skipChildren 1) s
  | .value _, _ => .more .field s
  | .skipChildren opened, some .startObject => .more (.skipChildren (opened + 1)) s
  | .skipChildren opened, some .startArray => .more (.skipChildren (opened + 1)) s
  | .skipChildren opened, some .endObject => .more (if opened = 1 then .field else .skipChildren (opened - 1)) s
  | .skipChildren opened, some .endArray => .more (if opened = 1 then .field else .skipChildren (opened - 1)) s
  | .skipChildren opened, some _ => .more (.skipChildren opened) s
  | .skipChildren _, none => .more .field s

/-- The loop, for as many calls of `nextToken` as `fuel` says. -/
def parseLoop (disk : Disk) (broken : Bool) : Nat → List JsonToken → ParseMode → ExtractState → Option (ExtractState × Option PackageException)
  | 0, _, _, _ => none
  | fuel + 1, tokens, mode, s =>
    if tokens = [] ∧ broken then some (s, some .io) else
    match s.turn disk mode tokens.head? with
    | .stop s thrown => some (s, thrown)
    | .more mode s => parseLoop disk broken fuel tokens.tail mode s

/-- The checks after the loop. -/
def verifyData (sec : Security) (signaturePublicKey : String) (publicKeyBytes : Bytes) (s : ExtractState) : Option PackageException :=
  match s.dataValueRead, s.signature, s.signingPublicKeyDigest with
  | true, some signature, some signingPublicKeyDigest =>
    if base64EncodeToString (sec.sha256 (getBytes signaturePublicKey)) ≠ signingPublicKeyDigest then
      some .authenticatedDataPackage
    else
      match sec.base64Decode signature with
      | none => some .illegalArgument
      | some signatureBytes =>
        match sec.verify publicKeyBytes s.verifyingOutputStream.verifier.out signatureBytes with
        | none => some .security
        | some false => some .authenticatedDataPackage
        | some true => none
  | _, _, _ => some .authenticatedDataPackage

end ExtractState

/-- The catch clauses: every checked exception becomes an `AuthenticatedDataPackageException`. -/
def PackageException.rethrown : PackageException → PackageException
  | .illegalArgument => .illegalArgument
  | _ => .authenticatedDataPackage

/-- The loop from the first token of the package on. -/
def parsePackage (disk : Disk) (fuel : Nat) (dataPackage : JsonInput) (s : ExtractState) : Option (ExtractState × Option PackageException) :=
  match dataPackage.tokens with
  | .startObject :: tokens => s.parseLoop disk dataPackage.broken fuel tokens .field
  | _ => some (s, some .authenticatedDataPackage)

/-- `extractAndVerifyData`: the destination in the end, and what is thrown. The last `close` is the one of the `finally` block. -/
def extractAndVerifyData (sec : Security) (disk : Disk) (fuel : Nat) (signaturePublicKey : String) (dataPackage : JsonInput)
    (dataIsBase64 : Bool) (dataDestination : Destination) : Option (Destination × Option PackageException) :=
  match sec.base64Decode signaturePublicKey with
  | none => some (dataDestination, some .illegalArgument)
  | some publicKeyBytes =>
    if sec.generatePublic publicKeyBytes then
      match parsePackage disk fuel dataPackage ⟨.new dataIsBase64 dataDestination, false, none, none⟩ with
      | none => none
      | some (s, thrown) =>
        let thrown := match thrown with
          | some e => some e
          | none => s.verifyData sec signaturePublicKey publicKeyBytes
        some ((s.verifyingOutputStream.close disk).1.out, thrown.map PackageException.rethrown)
    else some (dataDestination, some .authenticatedDataPackage)

end PsiphonAndroid
