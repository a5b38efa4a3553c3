import PsiphonAndroid.Lib.Bytes
import Mathlib.Data.Int.Order.Basic

/-!
# Psiphon Bump over NFC

`PsiphonHostApduService` hands out the exported connection info as a card, `PsiphonBumpNfcReaderActivity` reads it. The reader is the
states in which `onTagDiscovered` waits for the answer to a command; an answer is a response APDU or an `IOException`. What Java
throws beside that ends the reader as `thrown`. The texts shown on the screen are the ends; the progress bar is left out.
-/

namespace PsiphonAndroid

open Lib

/-- `SELECT_AID`. -/
def selectAid : Bytes := [0x00, 0xA4, 0x04, 0x00, 0x0A, 0x50, 0x73, 0x69, 0x70, 0x68, 0x6f, 0x6e, 0x4e, 0x66, 0x63, 0x00]

/-- `A_OK`. -/
def aOk : Bytes := [0x90, 0x00]

/-- `A_ERROR`. -/
def aError : Bytes := [0x6A, 0x82]

/-- `String.getBytes(StandardCharsets.US_ASCII)`: what is not ASCII becomes `?`. -/
def usAscii (s : String) : Bytes := s.toList.map fun c => if c.toNat < 128 then UInt8.ofNat c.toNat else 0x3F

/-! ## The card -/

/-- The fields of `PsiphonHostApduService`. -/
structure BumpHost where
  aidSelected : Bool
  payload : Option Bytes
  deriving DecidableEq

namespace BumpHost

/-- The payload: its own length in two bytes, then the exported data. -/
def makePayload (exportData : String) : Bytes :=
  let exportDataBytes := usAscii exportData
  let len := exportDataBytes.length + 2
  [UInt8.ofNat (len / 256), UInt8.ofNat len] ++ exportDataBytes

/-- `processCommandApdu`, with what is sent in the end: nothing when the command reads past the payload. `exportData` is what
`exportNfcDataSingle` gives. -/
def processCommandApdu (h : BumpHost) (exportData : String) (commandApdu : Bytes) : BumpHost × Option Bytes :=
  if commandApdu = selectAid then ({ h with aidSelected := true }, some aOk)
  else if h.aidSelected ∧ commandApdu.length = 5 ∧ byteAt commandApdu 0 = 0x00 ∧ byteAt commandApdu 1 = 0xB0 then
    let payload := h.payload.getD (makePayload exportData)
    let offset := (byteAt commandApdu 2).toNat * 256 + (byteAt commandApdu 3).toNat
    let le := (byteAt commandApdu 4).toNat
    ({ h with payload := some payload },
      if offset + le ≤ payload.length then some (slice payload offset le ++ aOk) else none)
  else (h, some aError)

/-- `onCreate` and `onDeactivated`. -/
def fresh : BumpHost := ⟨false, none⟩

end BumpHost

/-! ## The reader -/

/-- The unchecked exceptions of the reader. -/
inductive JavaException where
  | negativeArraySize
  | indexOutOfBounds
  deriving DecidableEq

/-- How `onTagDiscovered` ends: with one of its messages, with `importNfcData`, or with an exception that nothing catches. -/
inductive ReaderEnd where
  | unsupportedTag
  | badData
  | lostTag
  | imported (data : Bytes)
  | thrown (e : JavaException)
  deriving DecidableEq

/-- What `onTagDiscovered` waits for. -/
inductive BumpReader where
  | selecting
  | readingLength
  | reading (payloadLength : Int) (data : Bytes) (offset : Nat)
  | ended (e : ReaderEnd)
  deriving DecidableEq

namespace BumpReader

/-- `clampIntToByte`. -/
def clampIntToByte (length : Int) : UInt8 := if length > 0xFD then 0xFD else UInt8.ofNat length.toNat

/-- `rApduSuccess`: `copyOfRange` throws where there are no two bytes. -/
def rApduSuccess (pByte : Bytes) : Except JavaException Bool :=
  if pByte.length < 2 then .error .indexOutOfBounds else .ok (slice pByte (pByte.length - 2) 2 = aOk)

/-- `payloadLength`: the first two bytes of the response, as a `short`. -/
def payloadLengthOf (responseApdu : Bytes) : Int := ((readBe16 responseApdu 0).toNat : Int).bmod 65536

/-- The command whose answer is waited for. -/
def command : BumpReader → Option Bytes
  | selecting => some selectAid
  | readingLength => some [0x00, 0xB0, 0x00, 0x00, 0x02]
  | reading payloadLength _ offset =>
    some [0x00, 0xB0, UInt8.ofNat (offset / 256), UInt8.ofNat offset, clampIntToByte (payloadLength - offset)]
  | ended _ => none

/-- The head of the `while` loop, and what follows it. -/
def loop (payloadLength : Int) (data : Bytes) (offset : Nat) : BumpReader :=
  if offset < payloadLength then reading payloadLength data offset else ended (.imported data)

/-- The status bytes are looked at: `failed` is where the reader ends when they are not `A_OK`. -/
def checked (responseApdu : Bytes) (failed : ReaderEnd) (next : BumpReader) : BumpReader :=
  match rApduSuccess responseApdu with
  | .error e => ended (.thrown e)
  | .ok false => ended failed
  | .ok true => next

/-- The answer comes; `none` is an `IOException`. -/
def respond : BumpReader → Option Bytes → BumpReader
  | ended e, _ => ended e
  | _, none => ended .lostTag
  | selecting, some responseApdu => checked responseApdu .unsupportedTag readingLength
  | readingLength, some responseApdu =>
    checked responseApdu .badData <|
      if payloadLengthOf responseApdu - 2 < 0 then ended (.thrown .negativeArraySize)
      else loop (payloadLengthOf responseApdu) (List.replicate (payloadLengthOf responseApdu - 2).toNat 0) 2
  | reading payloadLength data offset, some responseApdu =>
    checked responseApdu .badData <|
      let dataLength := responseApdu.length - 2
      if data.length < offset - 2 + dataLength then ended (.thrown .indexOutOfBounds)
      else loop payloadLength (memcpy data (offset - 2) (slice responseApdu 0 dataLength)) (offset + dataLength)

/-- The reader after `n` answers of a peer. -/
def run (answers : Nat → Option Bytes) : Nat → BumpReader
  | 0 => selecting
  | n + 1 => (run answers n).respond (answers n)

end BumpReader

/-! ## Both ends -/

/-- The two ends and the commands exchanged so far, each with its answer. -/
structure BumpExchange where
  host : BumpHost
  reader : BumpReader
  log : List (Bytes × Option Bytes)
  deriving DecidableEq

namespace BumpExchange

/-- A tag is discovered. -/
def start : BumpExchange := ⟨.fresh, .selecting, []⟩

/-- One `transceive`; a command without an answer ends in a timeout, which is an `IOException`. -/
def transceive (exportData : String) (x : BumpExchange) : BumpExchange :=
  match x.reader.command with
  | none => x
  | some commandApdu =>
    let (host, answer) := x.host.processCommandApdu exportData commandApdu
    ⟨host, x.reader.respond answer, x.log ++ [(commandApdu, answer)]⟩

/-- The two ends after `n` calls of `transceive`, as far as the reader makes them. -/
def run (exportData : String) : Nat → BumpExchange
  | 0 => start
  | n + 1 => (run exportData n).transceive exportData

end BumpExchange

end PsiphonAndroid
