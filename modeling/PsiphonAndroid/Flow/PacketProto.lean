import PsiphonAndroid.Lib.Framing
import PsiphonAndroid.Lib.Transition

/-!
# PacketProto encoder and decoder

`flow/PacketProtoEncoder.c` and `flow/PacketProtoDecoder.c`. Both work in place: the encoder's input writes the packet two bytes
into the output's buffer and the encoder writes the length in front of it; the decoder receives into one buffer of exactly one
maximal frame and hands packets to its output as pointers into it. A buffer is the list of its bytes, a pointer an offset.
-/

namespace PsiphonAndroid

open Lib

/-- `sizeof(struct packetproto_header)`. -/
abbrev sizeofPacketprotoHeader : Nat := 2

/-- `PACKETPROTO_ENCLEN`. -/
abbrev packetprotoEnclen (len : Nat) : Nat := sizeofPacketprotoHeader + len

/-- `PACKETPROTO_MAXPAYLOAD`. -/
abbrev packetprotoMaxpayload : Nat := 65535

/-! ## Encoder -/

namespace PacketProtoEncoder

/-- `output_handler_recv` and the input's write: the packet stands after the room for the header. -/
def outputHandlerRecv (outputPacket packet : Bytes) : Bytes := memcpy outputPacket sizeofPacketprotoHeader packet

/-- `input_handler_done`: the length is written in front of the packet, and the whole is given to the output. -/
def inputHandlerDone (outputPacket : Bytes) (inLen : Nat) : Bytes :=
  slice (memcpy outputPacket 0 (le16 (UInt16.ofNat inLen))) 0 (packetprotoEnclen inLen)

/-- One packet through the encoder: `buf` is the output's buffer, of any content. -/
def encode (buf packet : Bytes) : Bytes := inputHandlerDone (outputHandlerRecv buf packet) packet.length

end PacketProtoEncoder

/-! ## Decoder -/

/-- What the decoder waits for: `StreamRecvInterface_Receiver_Recv` into the buffer, or the output to be done with a packet in
the buffer. -/
inductive DecoderPending where
  | recv (off len : Nat)
  | send (off len : Nat)
  deriving DecidableEq, Repr

/-- The fields of `PacketProtoDecoder`. -/
structure PacketProtoDecoder where
  outputMtu : Nat
  bufSize : Nat
  bufStart : Nat
  bufUsed : Nat
  buf : Bytes
  pending : DecoderPending
  deriving DecidableEq, Repr

namespace PacketProtoDecoder

/-- The call of `StreamRecvInterface_Receiver_Recv` at the end of `process_data`. -/
def receive (enc : PacketProtoDecoder) : PacketProtoDecoder :=
  { enc with pending := .recv (enc.bufStart + enc.bufUsed) (enc.bufSize - (enc.bufStart + enc.bufUsed)) }

/-- No whole packet in the buffer: if its end is reached, wrap around to allow more data to be received. -/
def noPacket (enc : PacketProtoDecoder) : PacketProtoDecoder :=
  if enc.bufStart + enc.bufUsed = enc.bufSize then
    { enc with buf := memmove enc.buf 0 enc.bufStart enc.bufUsed, bufStart := 0 }.receive
  else enc.receive

/-- `process_data`, with whether it called `handler_error`. -/
def processData (enc : PacketProtoDecoder) : PacketProtoDecoder × Bool :=
  let dataLen := (readLe16 enc.buf enc.bufStart).toNat
  if enc.bufUsed < sizeofPacketprotoHeader then (enc.noPacket, false)
  else if enc.outputMtu < dataLen then ({ enc with bufStart := 0, bufUsed := 0 }.receive, true)
  else if enc.bufUsed - sizeofPacketprotoHeader < dataLen then (enc.noPacket, false)
  else
    ({ enc with
        bufStart := enc.bufStart + (sizeofPacketprotoHeader + dataLen)
        bufUsed := enc.bufUsed - (sizeofPacketprotoHeader + dataLen)
        pending := .send (enc.bufStart + sizeofPacketprotoHeader) dataLen }, false)

/-- `input_handler_done`. -/
def inputHandlerDone (enc : PacketProtoDecoder) (dataLen : Nat) : PacketProtoDecoder × Bool :=
  processData { enc with bufUsed := enc.bufUsed + dataLen }

/-- `output_handler_done`. -/
def outputHandlerDone (enc : PacketProtoDecoder) : PacketProtoDecoder × Bool := processData enc

/-- `PacketProtoDecoder_Init` for an output of MTU `mtu`; `buf` is what `malloc` returned. -/
def init (mtu : Nat) (buf : Bytes) : PacketProtoDecoder :=
  let outputMtu := min mtu packetprotoMaxpayload
  { outputMtu := outputMtu, bufSize := packetprotoEnclen outputMtu, bufStart := 0, bufUsed := 0, buf := buf,
    pending := .recv 0 (packetprotoEnclen outputMtu) }

/-- The bytes received and not yet consumed. -/
def buffered (enc : PacketProtoDecoder) : Bytes := slice enc.buf enc.bufStart enc.bufUsed

end PacketProtoDecoder

/-! ## The decoder in use -/

/-- What can happen to the decoder: the input completes a receive with some bytes, or the output is done with its packet. -/
inductive DecoderEvent where
  | inputDone (data : Bytes)
  | outputDone
  deriving DecidableEq, Repr

/-- The decoder with the history of its ends: the bytes received and the packets handed to the output since the stream began,
and, for every stream that ended in `handler_error`, the same of that stream. -/
structure DecoderRun where
  dec : PacketProtoDecoder
  received : Bytes
  handed : List Bytes
  failed : List (Bytes × List Bytes)
  deriving DecidableEq, Repr

namespace DecoderRun

/-- The history after a handler returned: a packet was handed over, the stream failed, or neither. -/
def record (s : DecoderRun) (received : Bytes) (r : PacketProtoDecoder × Bool) : DecoderRun :=
  if r.2 then { dec := r.1, received := [], handed := [], failed := s.failed ++ [(received, s.handed)] }
  else
    match r.1.pending with
    | .send off len => { s with dec := r.1, received := received, handed := s.handed ++ [slice r.1.buf off len] }
    | .recv _ _ => { s with dec := r.1, received := received }

/-- One event. The input writes where it was told to and no more than that; the output is done once per packet. -/
def step (s : DecoderRun) : DecoderEvent → Option DecoderRun
  | .inputDone data =>
    match s.dec.pending with
    | .recv off len =>
      if 0 < data.length ∧ data.length ≤ len then
        some (s.record (s.received ++ data)
          ({ s.dec with buf := memcpy s.dec.buf off data }.inputHandlerDone data.length))
      else none
    | .send _ _ => none
  | .outputDone =>
    match s.dec.pending with
    | .send _ _ => some (s.record s.received s.dec.outputHandlerDone)
    | .recv _ _ => none

end DecoderRun

/-- The decoder for an output of MTU `mtu`, from `PacketProtoDecoder_Init` on. -/
def decoderSystem (mtu : Nat) : System DecoderRun DecoderEvent where
  init s := ∃ buf : Bytes, buf.length = packetprotoEnclen (min mtu packetprotoMaxpayload) ∧
    s = { dec := .init mtu buf, received := [], handed := [], failed := [] }
  step := DecoderRun.step

end PsiphonAndroid
