import PsiphonAndroid.Lib.Memory
import PsiphonAndroid.Lib.Transition

/-!
# The packet buffer

`structure/ChunkBuffer2.h` and `flow/PacketBuffer.c`: a circular buffer of blocks of four bytes that keeps packets contiguous. A packet is
a block with its length, followed by its bytes. Where no packet of the MTU fits behind the last one, the buffer wraps at its end (`wrap`),
and goes on at the first block. `PacketBuffer` receives packets into the free part of the buffer and sends the first one.

An `int` is an integer that an assignment from a `size_t` brings into range; `w` is the number of bits of a `size_t`. The pointers into the
buffer are offsets in bytes, and `none` is `NULL`. An `ASSERT` that does not hold is a fault.
-/

namespace PsiphonAndroid

open Lib

/-- `INT_MAX`. -/
abbrev intMax32 : Int := 2 ^ 31 - 1

/-- The conversion of a `size_t` to an `int`. -/
def toInt (x : Int) : Int := Int.bmod x (2 ^ 32)

/-- The conversion of an `int` to a `size_t`, and what an operation on them leaves. -/
def toSize (w : Nat) (x : Int) : Int := x % 2 ^ w

/-- `bdivide_up`, of values of type `size_t`. -/
def bdivideUp (a b : Int) : Int := if a % b > 0 then a / b + 1 else a / b

/-- The failure of an `ASSERT`. -/
inductive PacketBufferFault where
  | assertion
  deriving DecidableEq

/-- `ASSERT`. -/
def assertThat (p : Prop) [Decidable p] : Except PacketBufferFault Unit := if p then .ok () else .error .assertion

/-! ## `ChunkBuffer2` -/

/-- `ChunkBuffer2`, with the memory of its blocks. -/
structure ChunkBuffer2 where
  buffer : Memory
  size : Int
  wrap : Int
  start : Int
  used : Int
  mtu : Int
  inputDest : Option Int
  inputAvail : Int
  outputDest : Option Int
  outputAvail : Int

namespace ChunkBuffer2

variable (w : Nat)

/-- The blocks of some bytes: `bdivide_up(len, sizeof(struct ChunkBuffer2_block))`, as an `int`. -/
def blockLen (len : Int) : Int := toInt (bdivideUp (toSize w len) 4)

/-- `buffer[i].len`. -/
def len (b : ChunkBuffer2) (i : Int) : Int := b.buffer.load32 (4 * i)

/-- `_ChunkBuffer2_end`. -/
def end_ (b : ChunkBuffer2) : Int :=
  if b.used ≥ b.wrap - b.start then b.used - (b.wrap - b.start) else b.start + b.used

/-- The number of free blocks at the end. -/
def free (b : ChunkBuffer2) : Int := if b.used ≥ b.wrap - b.start then b.start - b.end_ else b.size - b.end_

/-- The free bytes behind a header, as a `size_t`. -/
def freeBytes (b : ChunkBuffer2) : Int := toSize w (toSize w (b.free - 1) * 4)

/-- `_ChunkBuffer2_assert_buffer`. -/
def AssertBuffer (b : ChunkBuffer2) : Prop :=
  b.size > 0 ∧ b.wrap > 0 ∧ b.wrap ≤ b.size ∧ b.start ≥ 0 ∧ b.start < b.wrap ∧ b.used ≥ 0 ∧ b.used ≤ b.wrap ∧
    (b.wrap = b.size ∨ b.used ≥ b.wrap - b.start) ∧ b.mtu ≥ 0

instance (b : ChunkBuffer2) : Decidable b.AssertBuffer := inferInstanceAs (Decidable (_ ∧ _))

/-- What is asserted of the first packet. -/
def AssertFirst (b : ChunkBuffer2) : Prop :=
  b.len b.start ≥ 0 ∧ blockLen w (b.len b.start) ≤ b.used - 1 ∧ blockLen w (b.len b.start) ≤ b.wrap - b.start - 1

instance (b : ChunkBuffer2) : Decidable (b.AssertFirst w) := inferInstanceAs (Decidable (_ ∧ _))

/-- `_ChunkBuffer2_assert_io`. -/
def AssertIo (b : ChunkBuffer2) : Prop :=
  (if b.size - b.end_ - 1 < b.mtu then b.inputDest = none ∧ b.inputAvail = -1
    else if b.free > 0 then b.inputDest = some (4 * (b.end_ + 1)) ∧ toSize w b.inputAvail = b.freeBytes w
    else b.inputDest = none ∧ b.inputAvail = -1) ∧
  if b.used > 0 then b.AssertFirst w ∧ b.outputDest = some (4 * (b.start + 1)) ∧ b.outputAvail = b.len b.start
  else b.outputDest = none ∧ b.outputAvail = -1

instance (b : ChunkBuffer2) : Decidable (b.AssertIo w) := by
  unfold AssertIo
  infer_instance

/-- `_ChunkBuffer2_update_input`. -/
def updateInput (b : ChunkBuffer2) : ChunkBuffer2 :=
  if b.size - b.end_ - 1 < b.mtu then { b with inputDest := none, inputAvail := -1 }
  else if b.free > 0 then { b with inputDest := some (4 * (b.end_ + 1)), inputAvail := toInt (b.freeBytes w) }
  else { b with inputDest := none, inputAvail := -1 }

/-- `_ChunkBuffer2_update_output`. -/
def updateOutput (b : ChunkBuffer2) : Except PacketBufferFault ChunkBuffer2 :=
  if b.used > 0 then do
    assertThat (b.AssertFirst w)
    return { b with outputDest := some (4 * (b.start + 1)), outputAvail := b.len b.start }
  else return { b with outputDest := none, outputAvail := -1 }

/-- `ChunkBuffer2_calc_blocks`. -/
def calcBlocks (chunkLen num : Int) : Int :=
  let chunkDataBlocks := blockLen w chunkLen
  if chunkDataBlocks > intMax32 - 1 then -1
  else
    let chunkBlocks := 1 + chunkDataBlocks
    if num > intMax32 - 1 then -1
    else
      let numChunks := num + 1
      if chunkBlocks > intMax32 / numChunks then -1 else chunkBlocks * numChunks

/-- `ChunkBuffer2_Init`. -/
def init (buffer : Memory) (blocks mtu : Int) : Except PacketBufferFault ChunkBuffer2 := do
  assertThat (blocks > 0)
  assertThat (mtu ≥ 0)
  let b : ChunkBuffer2 := ⟨buffer, blocks, blocks, 0, 0, blockLen w mtu, none, 0, none, 0⟩
  assertThat b.AssertBuffer
  let b := b.updateInput w
  let b ← b.updateOutput w
  assertThat (b.AssertIo w)
  return b

/-- `ChunkBuffer2_SubmitPacket`. -/
def submitPacket (b : ChunkBuffer2) (len : Int) : Except PacketBufferFault ChunkBuffer2 := do
  assertThat (b.inputDest.isSome = true)
  assertThat (len ≥ 0)
  assertThat (len ≤ b.inputAvail)
  assertThat b.AssertBuffer
  assertThat (b.AssertIo w)
  let e := b.end_
  let blocklen := blockLen w len
  assertThat (blocklen ≤ b.size - e - 1)
  assertThat (b.used < b.wrap - b.start ∨ blocklen ≤ b.start - e - 1)
  let b := { b with buffer := b.buffer.store32 (4 * e) len, used := b.used + (1 + blocklen) }
  let b :=
    if b.used ≤ b.wrap - b.start ∧ b.mtu > b.size - (e + 1 + blocklen) - 1 then { b with wrap := e + 1 + blocklen } else b
  assertThat b.AssertBuffer
  let b := b.updateInput w
  let b ← if b.used = 1 + blocklen then b.updateOutput w else pure b
  assertThat (b.AssertIo w)
  return b

/-- `ChunkBuffer2_ConsumePacket`. -/
def consumePacket (b : ChunkBuffer2) : Except PacketBufferFault ChunkBuffer2 := do
  assertThat (b.outputDest.isSome = true)
  assertThat b.AssertBuffer
  assertThat (b.AssertIo w)
  assertThat (1 ≤ b.wrap - b.start)
  assertThat (1 ≤ b.used)
  let blocklen := blockLen w (b.len b.start)
  assertThat (blocklen ≤ b.wrap - b.start - 1)
  assertThat (blocklen ≤ b.used - 1)
  let dataWrapped := b.used ≥ b.wrap - b.start
  let b := { b with start := b.start + (1 + blocklen), used := b.used - (1 + blocklen) }
  let b := if b.start = b.wrap then { b with start := 0, wrap := b.size } else b
  assertThat b.AssertBuffer
  let b := if dataWrapped then b.updateInput w else b
  let b ← b.updateOutput w
  assertThat (b.AssertIo w)
  return b

end ChunkBuffer2

/-! ## `PacketBuffer` -/

/-- `PacketBuffer`, with the MTU of its output. `recv` is the outstanding receive and `send` the outstanding send, with their arguments.
Beside them are the packets that were received, and those whose send is done. -/
structure PacketBuffer where
  inputMtu : Int
  outputMtu : Int
  buf : ChunkBuffer2
  recv : Option (Option Int)
  send : Option (Option Int × Int)
  submitted : List (List UInt8)
  consumed : List (List UInt8)

namespace PacketBuffer

variable (w : Nat)

/-- `PacketRecvInterface_Receiver_Recv` into the buffer. -/
def receiverRecv (p : PacketBuffer) : Except PacketBufferFault PacketBuffer := do
  assertThat (¬p.inputMtu > 0 ∨ p.buf.inputDest.isSome = true)
  assertThat (p.recv = none)
  return { p with recv := some p.buf.inputDest }

/-- `PacketPassInterface_Sender_Send` of the first packet. -/
def senderSend (p : PacketBuffer) : Except PacketBufferFault PacketBuffer := do
  assertThat (p.buf.outputAvail ≥ 0)
  assertThat (p.buf.outputAvail ≤ p.outputMtu)
  assertThat (¬p.buf.outputAvail > 0 ∨ p.buf.outputDest.isSome = true)
  assertThat (p.send = none)
  return { p with send := some (p.buf.outputDest, p.buf.outputAvail) }

/-- `input_handler_done`. -/
def inputHandlerDone (p : PacketBuffer) (inLen : Int) : Except PacketBufferFault PacketBuffer := do
  assertThat (inLen ≥ 0)
  assertThat (inLen ≤ p.inputMtu)
  let wasEmpty := p.buf.outputAvail < 0
  let buf ← p.buf.submitPacket w inLen
  let p := { p with buf := buf }
  let p ← if p.buf.inputAvail ≥ p.inputMtu then p.receiverRecv else pure p
  if wasEmpty then p.senderSend else return p

/-- `output_handler_done`. -/
def outputHandlerDone (p : PacketBuffer) : Except PacketBufferFault PacketBuffer := do
  let wasFull := p.buf.inputAvail < p.inputMtu
  let buf ← p.buf.consumePacket w
  let p := { p with buf := buf }
  let p ← if wasFull ∧ p.buf.inputAvail ≥ p.inputMtu then p.receiverRecv else pure p
  if p.buf.outputAvail ≥ 0 then p.senderSend else return p

/-- `PacketBuffer_Init`, where the memory is there; nothing where the number of blocks is too large. -/
def init (inputMtu outputMtu numPackets : Int) (mem : Memory) : Option (Except PacketBufferFault PacketBuffer) :=
  if ChunkBuffer2.calcBlocks w inputMtu numPackets < 0 then none
  else some do
    assertThat (outputMtu ≥ inputMtu)
    assertThat (numPackets > 0)
    let buf ← ChunkBuffer2.init w mem (ChunkBuffer2.calcBlocks w inputMtu numPackets) inputMtu
    let p : PacketBuffer := ⟨inputMtu, outputMtu, buf, none, none, [], []⟩
    p.receiverRecv

end PacketBuffer

/-- What happens to the buffer: the input writes some of the packet it is to receive, or is done with it, and the output is done. -/
inductive PacketBufferEvent where
  | fill (offset : Nat) (data : List UInt8)
  | recvDone (len : Nat)
  | sendDone
  deriving DecidableEq

namespace PacketBuffer

/-- The bytes at a pointer. -/
def bytesAt (p : PacketBuffer) (dest : Option Int) (len : Nat) : List UInt8 := dest.elim [] fun a => p.buf.buffer.read a len

/-- One event: the input writes at most the MTU into the memory it was given, and a send or a receive is done that was asked for. -/
def step (w : Nat) (p : PacketBuffer) : PacketBufferEvent → Option (Except PacketBufferFault PacketBuffer)
  | .fill offset data =>
    match p.recv with
    | some (some a) =>
      if offset + data.length ≤ p.inputMtu then
        some (.ok { p with buf := { p.buf with buffer := p.buf.buffer.write (a + offset) data } })
      else none
    | _ => none
  | .recvDone len =>
    match p.recv with
    | some dest =>
      if len ≤ p.inputMtu then
        some ({ p with recv := none, submitted := p.submitted ++ [p.bytesAt dest len] }.inputHandlerDone w len)
      else none
    | none => none
  | .sendDone =>
    match p.send with
    | some (dest, len) =>
      some ({ p with send := none, consumed := p.consumed ++ [p.bytesAt dest len.toNat] }.outputHandlerDone w)
    | none => none

end PacketBuffer

/-- A buffer from its initialisation on, with any contents of its memory; a fault ends the run. -/
def packetBufferSystem (w : Nat) (inputMtu outputMtu numPackets : Int) :
    System (Except PacketBufferFault PacketBuffer) PacketBufferEvent where
  init s := ∃ mem, PacketBuffer.init w inputMtu outputMtu numPackets mem = some s
  step s e :=
    match s with
    | .error _ => none
    | .ok p => p.step w e

end PsiphonAndroid
