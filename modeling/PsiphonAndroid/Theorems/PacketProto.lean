import PsiphonAndroid.Flow.PacketProto

/-!
# The PacketProto decoder reads what the encoder wrote

The invariant of the decoder over every chunking of its input: what it has received is the frames of the packets handed to the
output and the bytes still in its buffer, which are no whole frame while it waits for more. The buffer holds one maximal frame,
so a receive request never gets empty.
-/

namespace PsiphonAndroid

open Lib

namespace PacketProtoAux

/-- The encoder writes the frame of its packet, whatever was in the output's buffer. -/
theorem encode_eq {buf p : Bytes} (h : packetprotoEnclen p.length ≤ buf.length) : PacketProtoEncoder.encode buf p = frame p := by
  simp only [packetprotoEnclen, sizeofPacketprotoHeader] at h
  have hl : (memcpy buf 2 p).length = buf.length := length_memcpy h
  have h2 : slice (memcpy (memcpy buf 2 p) 0 (le16 (UInt16.ofNat p.length))) 0 2 = le16 (UInt16.ofNat p.length) :=
    @slice_memcpy_self (memcpy buf 2 p) 0 (le16 (UInt16.ofNat p.length)) (Nat.zero_le _)
  have h3 : slice (memcpy (memcpy buf 2 p) 0 (le16 (UInt16.ofNat p.length))) 2 p.length = p := by
    rw [slice_memcpy_after (by simp) (by rw [hl, length_le16]; omega), slice_memcpy_self (by omega)]
  simp only [PacketProtoEncoder.encode, PacketProtoEncoder.inputHandlerDone, PacketProtoEncoder.outputHandlerRecv,
    packetprotoEnclen, sizeofPacketprotoHeader]
  rw [← slice_append, Nat.zero_add, h2, h3, frame]

/-- What the decoder keeps between its handlers, before `process_data` looks at the buffer. -/
structure Shape (m : Nat) (enc : PacketProtoDecoder) : Prop where
  mtu : enc.outputMtu = m
  size : enc.bufSize = 2 + m
  len : enc.buf.length = enc.bufSize
  inside : enc.bufStart + enc.bufUsed ≤ enc.bufSize

theorem Shape.length_buffered {m : Nat} {enc : PacketProtoDecoder} (h : Shape m enc) :
    enc.buffered.length = enc.bufUsed := by
  have := h.inside
  exact length_slice_of_le (by rw [h.len]; omega)

/-- The header in the buffer, once it is there. -/
theorem header_buffered {enc : PacketProtoDecoder} (h2 : 2 ≤ enc.bufUsed) :
    readLe16 enc.buffered 0 = readLe16 enc.buf enc.bufStart := by
  rw [PacketProtoDecoder.buffered, readLe16_slice (by omega), Nat.add_zero]

/-- A whole frame in the buffer is handed to the output in place, and taken out of the buffered bytes. -/
theorem processData_frame {m : Nat} {enc : PacketProtoDecoder} (h : Shape m enc) (hf : HasFrame m enc.buffered) :
    ∃ enc' off len, enc.processData = (enc', false) ∧ Shape m enc' ∧ enc'.pending = .send off len ∧ off + len = enc'.bufStart ∧
      enc.buffered = frame (slice enc'.buf off len) ++ enc'.buffered ∧ len ≤ m := by
  obtain ⟨h2, hm, hl⟩ := hf
  have hframe := frame_of_hasFrame ⟨h2, hm, hl⟩
  rw [h.length_buffered] at h2 hl
  rw [header_buffered h2] at hm hl hframe
  have hin := h.inside
  have hmtu := h.mtu
  refine ⟨{ enc with
      bufStart := enc.bufStart + (2 + (readLe16 enc.buf enc.bufStart).toNat)
      bufUsed := enc.bufUsed - (2 + (readLe16 enc.buf enc.bufStart).toNat)
      pending := .send (enc.bufStart + 2) (readLe16 enc.buf enc.bufStart).toNat }, _, _, ?_, ?_, rfl, ?_, ?_, hm⟩
  · simp only [PacketProtoDecoder.processData, sizeofPacketprotoHeader]
    rw [if_neg (by omega), if_neg (by omega), if_neg (by omega)]
  · exact ⟨h.mtu, h.size, h.len, by simp only; omega⟩
  · simp only
    omega
  · simp only [PacketProtoDecoder.buffered] at hframe ⊢
    rw [slice_slice _ _ _ _ _ hl, slice_slice _ _ _ _ _ (by omega)] at hframe
    rw [hframe, Nat.add_zero, slice_append]
    congr 1
    omega

/-- A header in the buffer that announces too much resets the buffer and calls `handler_error`. -/
theorem processData_oversized {m : Nat} {enc : PacketProtoDecoder} (h : Shape m enc) (ho : Oversized m enc.buffered) :
    ∃ enc', enc.processData = (enc', true) ∧ Shape m enc' ∧ enc'.pending = .recv 0 enc'.bufSize ∧ enc'.bufStart = 0 ∧
      enc'.bufUsed = 0 := by
  obtain ⟨h2, hm⟩ := ho
  rw [h.length_buffered] at h2
  rw [header_buffered h2] at hm
  have hmtu := h.mtu
  refine ⟨{ enc with bufStart := 0, bufUsed := 0 }.receive, ?_, ?_, rfl, rfl, rfl⟩
  · simp only [PacketProtoDecoder.processData, sizeofPacketprotoHeader]
    rw [if_neg (by omega), if_pos (by omega)]
  · exact ⟨h.mtu, h.size, h.len, Nat.zero_le _⟩

/-- With neither in the buffer, the decoder asks for more: there is room, since a full buffer holds a frame or such a header. -/
theorem processData_incomplete {m : Nat} {enc : PacketProtoDecoder} (h : Shape m enc) (hf : ¬HasFrame m enc.buffered)
    (ho : ¬Oversized m enc.buffered) :
    ∃ enc', enc.processData = (enc', false) ∧ Shape m enc' ∧ enc'.buffered = enc.buffered ∧
      enc'.pending = .recv (enc'.bufStart + enc'.bufUsed) (enc'.bufSize - (enc'.bufStart + enc'.bufUsed)) ∧
      enc'.bufStart + enc'.bufUsed < enc'.bufSize := by
  have hl := h.length_buffered
  have hmtu := h.mtu
  have hsize := h.size
  have hin := h.inside
  have hcase : enc.bufUsed < 2 ∨ 2 ≤ enc.bufUsed ∧ (readLe16 enc.buf enc.bufStart).toNat ≤ m ∧
      enc.bufUsed < 2 + (readLe16 enc.buf enc.bufStart).toNat := by
    rcases Nat.lt_or_ge enc.bufUsed 2 with h2 | h2
    · exact Or.inl h2
    · simp only [HasFrame, Oversized, hl, header_buffered h2] at hf ho
      omega
  have hpd : enc.processData = (enc.noPacket, false) := by
    simp only [PacketProtoDecoder.processData, sizeofPacketprotoHeader]
    rcases hcase with h2 | ⟨h2, h3, h4⟩
    · rw [if_pos h2]
    · rw [if_neg (by omega), if_neg (by omega), if_pos (by omega)]
  have hroom : enc.bufUsed < enc.bufSize := by omega
  refine ⟨enc.noPacket, hpd, ?_⟩
  by_cases hend : enc.bufStart + enc.bufUsed = enc.bufSize
  · rw [PacketProtoDecoder.noPacket, if_pos hend]
    refine ⟨⟨h.mtu, h.size, ?_, ?_⟩, ?_, rfl, ?_⟩
    · exact (length_memmove (by rw [h.len]; omega)).trans h.len
    · simp only [PacketProtoDecoder.receive]
      omega
    · exact slice_memmove_front (by rw [h.len]; omega)
    · simp only [PacketProtoDecoder.receive]
      omega
  · rw [PacketProtoDecoder.noPacket, if_neg hend]
    refine ⟨⟨h.mtu, h.size, h.len, h.inside⟩, rfl, rfl, ?_⟩
    simp only [PacketProtoDecoder.receive]
    omega

end PacketProtoAux

open PacketProtoAux

/-- The bytes an event brings. -/
def DecoderEvent.bytes : DecoderEvent → Bytes
  | .inputDone data => data
  | .outputDone => []

/-- All bytes the events of a run bring. -/
def inputBytes (es : List DecoderEvent) : Bytes := (es.map DecoderEvent.bytes).flatten

/-- A stream that ended in `handler_error`: the packets handed over are all the whole frames before a header that announces too
much, and that header is complete. -/
def FailedStream (m : Nat) (f : Bytes × List Bytes) : Prop := (frames m f.1).1 = f.2 ∧ Oversized m (frames m f.1).2

instance (m : Nat) (f : Bytes × List Bytes) : Decidable (FailedStream m f) := inferInstanceAs (Decidable (_ ∧ _))

/-- The invariant of the decoder in use. -/
structure DecoderInv (m : Nat) (s : DecoderRun) : Prop where
  shape : Shape m s.dec
  stream : s.received = encodeFrames s.handed ++ s.dec.buffered
  fits : ∀ p ∈ s.handed, p.length ≤ m
  waits : ∀ off len, s.dec.pending = .recv off len → off = s.dec.bufStart + s.dec.bufUsed ∧ off + len = s.dec.bufSize ∧
    0 < len ∧ ¬HasFrame m s.dec.buffered ∧ ¬Oversized m s.dec.buffered
  sends : ∀ off len, s.dec.pending = .send off len → off + len = s.dec.bufStart ∧
    s.handed.getLast? = some (slice s.dec.buf off len)
  failed : ∀ f ∈ s.failed, FailedStream m f

namespace PacketProtoAux

/-- What a handler leaves: the invariant, and a failed stream if this is one. -/
def Recorded (m : Nat) (s : DecoderRun) (received : Bytes) (enc : PacketProtoDecoder) : Prop :=
  DecoderInv m (s.record received enc.processData) ∧
    (s.record received enc.processData).failed = s.failed ++
      if FailedStream m (received, s.handed) then [(received, s.handed)] else []

section Record

variable {m : Nat} {s : DecoderRun} {enc : PacketProtoDecoder} {received : Bytes}

/-- A frame is complete: its packet is handed over. -/
theorem record_frame (hm : m ≤ 65535) (he : Shape m enc) (hr : received = encodeFrames s.handed ++ enc.buffered)
    (hfits : ∀ p ∈ s.handed, p.length ≤ m) (hfail : ∀ f ∈ s.failed, FailedStream m f) (hf : HasFrame m enc.buffered) :
    Recorded m s received enc := by
  obtain ⟨enc', off, len, hpd, hsh, hpend, hoff, hbuf, hlen⟩ := processData_frame he hf
  have hin := hsh.inside
  have hpl : (slice enc'.buf off len).length = len := length_slice_of_le (by rw [hsh.len]; omega)
  have hstream : received = encodeFrames (s.handed ++ [slice enc'.buf off len]) ++ enc'.buffered := by
    rw [hr, hbuf, encodeFrames_append, encodeFrames_cons, encodeFrames_nil, List.append_nil, List.append_assoc]
  have hfits' : ∀ p ∈ s.handed ++ [slice enc'.buf off len], p.length ≤ m := by
    intro p hp
    rcases List.mem_append.mp hp with hp | hp
    · exact hfits p hp
    · rw [List.mem_singleton.mp hp, hpl]
      exact hlen
  have hrec : s.record received enc.processData =
      { s with dec := enc', received := received, handed := s.handed ++ [slice enc'.buf off len] } := by
    simp only [DecoderRun.record, hpd, hpend, Bool.false_eq_true, if_false]
  have hno : ¬FailedStream m (received, s.handed) := by
    intro hx
    have hpre := prefix_frames hm hfits' enc'.buffered
    rw [← hstream, hx.1] at hpre
    simpa using hpre.length_le
  rw [Recorded, hrec, if_neg hno, List.append_nil]
  refine ⟨⟨hsh, hstream, hfits', ?_, ?_, hfail⟩, rfl⟩
  · intro off' len' hp
    rw [hpend] at hp
    cases hp
  · intro off' len' hp
    rw [hpend] at hp
    cases hp
    exact ⟨hoff, by simp⟩

/-- A header announces too much: the decoder starts over. -/
theorem record_oversized (hm : m ≤ 65535) (he : Shape m enc) (hr : received = encodeFrames s.handed ++ enc.buffered)
    (hfits : ∀ p ∈ s.handed, p.length ≤ m) (hfail : ∀ f ∈ s.failed, FailedStream m f) (hf : ¬HasFrame m enc.buffered)
    (ho : Oversized m enc.buffered) : Recorded m s received enc := by
  obtain ⟨enc', hpd, hsh, hpend, hst, hus⟩ := processData_oversized he ho
  have hrec : s.record received enc.processData =
      { dec := enc', received := [], handed := [], failed := s.failed ++ [(received, s.handed)] } := by
    simp only [DecoderRun.record, hpd, if_true]
  have hyes : FailedStream m (received, s.handed) := by
    simp only [FailedStream, hr, frames_encode hm hfits hf]
    exact ⟨trivial, ho⟩
  have hempty : enc'.buffered = [] := by
    rw [PacketProtoDecoder.buffered, hus, slice_zero_len]
  rw [Recorded, hrec, if_pos hyes]
  refine ⟨⟨hsh, ?_, by simp, ?_, ?_, ?_⟩, rfl⟩
  · rw [hempty]
    rfl
  · intro off' len' hp
    rw [hpend] at hp
    cases hp
    have := hsh.size
    exact ⟨by rw [hst, hus], Nat.zero_add _, by omega, hempty ▸ not_hasFrame_nil m, hempty ▸ not_oversized_nil m⟩
  · intro off' len' hp
    rw [hpend] at hp
    cases hp
  · intro f hfm
    rcases List.mem_append.mp hfm with hfm | hfm
    · exact hfail f hfm
    · rwa [List.mem_singleton.mp hfm]

/-- Nothing is complete: the decoder receives on. -/
theorem record_incomplete (hm : m ≤ 65535) (he : Shape m enc) (hr : received = encodeFrames s.handed ++ enc.buffered)
    (hfits : ∀ p ∈ s.handed, p.length ≤ m) (hfail : ∀ f ∈ s.failed, FailedStream m f) (hf : ¬HasFrame m enc.buffered)
    (ho : ¬Oversized m enc.buffered) : Recorded m s received enc := by
  obtain ⟨enc', hpd, hsh, hbuf, hpend, hroom⟩ := processData_incomplete he hf ho
  have hrec : s.record received enc.processData = { s with dec := enc', received := received } := by
    simp only [DecoderRun.record, hpd, hpend, Bool.false_eq_true, if_false]
  have hno : ¬FailedStream m (received, s.handed) := by
    simp only [FailedStream, hr, frames_encode hm hfits hf]
    exact fun h => ho h.2
  rw [Recorded, hrec, if_neg hno, List.append_nil]
  refine ⟨⟨hsh, by rw [hbuf]; exact hr, hfits, ?_, ?_, hfail⟩, rfl⟩
  · intro off' len' hp
    rw [hpend] at hp
    cases hp
    exact ⟨rfl, Nat.add_sub_cancel' (Nat.le_of_lt hroom), Nat.sub_pos_of_lt hroom, by rwa [hbuf], by rwa [hbuf]⟩
  · intro off' len' hp
    rw [hpend] at hp
    cases hp

/-- What a handler does once it has taken in its event: `enc` is the decoder before `process_data`. -/
theorem record_inv (hm : m ≤ 65535) (he : Shape m enc) (hr : received = encodeFrames s.handed ++ enc.buffered)
    (hfits : ∀ p ∈ s.handed, p.length ≤ m) (hfail : ∀ f ∈ s.failed, FailedStream m f) : Recorded m s received enc := by
  by_cases hf : HasFrame m enc.buffered
  · exact record_frame hm he hr hfits hfail hf
  by_cases ho : Oversized m enc.buffered
  · exact record_oversized hm he hr hfits hfail hf ho
  · exact record_incomplete hm he hr hfits hfail hf ho

end Record

/-- Every event that can happen is a receive into the buffer or a packet taken, followed by `process_data`. -/
theorem step_cases {m : Nat} {s s' : DecoderRun} {e : DecoderEvent} (hi : DecoderInv m s) (h : s.step e = some s') :
    ∃ enc, Shape m enc ∧ s.received ++ e.bytes = encodeFrames s.handed ++ enc.buffered ∧
      s' = s.record (s.received ++ e.bytes) enc.processData := by
  cases e with
  | inputDone data =>
    cases hp : s.dec.pending with
    | send off len => simp [DecoderRun.step, hp] at h
    | recv off len =>
      simp only [DecoderRun.step, hp, Option.ite_none_right_eq_some, Option.some.injEq] at h
      obtain ⟨⟨hpos, hle⟩, rfl⟩ := h
      obtain ⟨rfl, hend, -, -, -⟩ := hi.waits off len hp
      have hlen := hi.shape.len
      refine ⟨{ s.dec with buf := memcpy s.dec.buf (s.dec.bufStart + s.dec.bufUsed) data,
                           bufUsed := s.dec.bufUsed + data.length }, ?_, ?_, rfl⟩
      · exact ⟨hi.shape.mtu, hi.shape.size, (length_memcpy (by omega)).trans hi.shape.len, by simp only; omega⟩
      · simp only [PacketProtoDecoder.buffered, DecoderEvent.bytes]
        rw [slice_memcpy_extend rfl (by omega), hi.stream, List.append_assoc, PacketProtoDecoder.buffered]
  | outputDone =>
    cases hp : s.dec.pending with
    | recv off len => simp [DecoderRun.step, hp] at h
    | send off len =>
      simp only [DecoderRun.step, hp, Option.some.injEq] at h
      refine ⟨s.dec, hi.shape, ?_, ?_⟩
      · rw [DecoderEvent.bytes, List.append_nil, hi.stream]
      · rw [DecoderEvent.bytes, List.append_nil, ← h]
        rfl

/-- Every event keeps the invariant, and fails the stream exactly when all whole frames have been handed over and a header that
announces too much is complete. -/
theorem step_inv {m : Nat} (hm : m ≤ 65535) {s s' : DecoderRun} {e : DecoderEvent} (hi : DecoderInv m s)
    (h : s.step e = some s') :
    DecoderInv m s' ∧ s'.failed = s.failed ++
      if FailedStream m (s.received ++ e.bytes, s.handed) then [(s.received ++ e.bytes, s.handed)]
      else [] := by
  obtain ⟨enc, hsh, hstream, rfl⟩ := step_cases hi h
  exact record_inv hm hsh hstream hi.fits hi.failed

theorem init_inv {mtu : Nat} {s : DecoderRun} (h : (decoderSystem mtu).init s) :
    DecoderInv (min mtu packetprotoMaxpayload) s := by
  obtain ⟨buf, hl, rfl⟩ := h
  simp only [packetprotoEnclen, sizeofPacketprotoHeader] at hl
  have hempty : (PacketProtoDecoder.init mtu buf).buffered = [] := slice_zero_len _ _
  refine ⟨⟨rfl, rfl, hl, Nat.zero_le _⟩, by rw [hempty]; rfl, by simp, ?_, ?_, by simp⟩
  · intro off len hp
    simp only [PacketProtoDecoder.init, DecoderPending.recv.injEq] at hp
    obtain ⟨rfl, rfl⟩ := hp
    exact ⟨rfl, Nat.zero_add _, Nat.lt_of_lt_of_le (by decide) (Nat.le_add_right _ _), hempty ▸ not_hasFrame_nil _,
      hempty ▸ not_oversized_nil _⟩
  · intro off len hp
    cases hp

/-- No byte is lost between the streams of a run. -/
theorem record_bytes (s : DecoderRun) (received : Bytes) (r : PacketProtoDecoder × Bool) :
    ((s.record received r).failed.map Prod.fst).flatten ++ (s.record received r).received =
      (s.failed.map Prod.fst).flatten ++ received := by
  unfold DecoderRun.record
  split
  · simp
  · split <;> rfl

/-- When a packet is being output after a handler, it was handed over there. -/
theorem record_send {m : Nat} {s : DecoderRun} {received : Bytes} {r : PacketProtoDecoder × Bool} {off len : Nat}
    (hi : DecoderInv m (s.record received r)) (hp : (s.record received r).dec.pending = .send off len) :
    (s.record received r).received = received ∧ (s.record received r).handed.length = s.handed.length + 1 := by
  have hlast := (hi.sends off len hp).2
  revert hp hlast
  unfold DecoderRun.record
  split
  · intro _ hlast
    simp at hlast
  · split
    · intro _ _
      exact ⟨rfl, by simp⟩
    · rename_i hr
      intro hp
      rw [hr] at hp
      cases hp

/-- The output taking its packets one after another brings the decoder to wait for input. -/
theorem drain {mtu m : Nat} (hm : m ≤ 65535) {s : DecoderRun} (hi : DecoderInv m s) :
    ∃ n s', (decoderSystem mtu).exec s (List.replicate n .outputDone) = some s' ∧
      ∃ off len, s'.dec.pending = .recv off len := by
  obtain ⟨k, hk⟩ : ∃ k, s.received.length - s.handed.length = k := ⟨_, rfl⟩
  induction k using Nat.strong_induction_on generalizing s with
  | _ k ih =>
    cases hp : s.dec.pending with
    | recv off len => exact ⟨0, s, rfl, off, len, hp⟩
    | send off len =>
      have hstep : (decoderSystem mtu).step s .outputDone = some (s.record s.received s.dec.outputHandlerDone) := by
        simp only [decoderSystem, DecoderRun.step, hp]
      have hi' := (step_inv hm hi (show s.step .outputDone = _ from hstep)).1
      cases hp' : (s.record s.received s.dec.outputHandlerDone).dec.pending with
      | recv off' len' => exact ⟨1, _, by rw [List.replicate_one, System.exec, hstep]; rfl, off', len', hp'⟩
      | send off' len' =>
        obtain ⟨hrec, hlen⟩ := record_send hi' hp'
        have hle : s.handed.length + 1 ≤ s.received.length := by
          have h1 := length_le_encodeFrames (s.record s.received s.dec.outputHandlerDone).handed
          have h2 := congrArg List.length hi'.stream
          rw [hrec, List.length_append] at h2
          omega
        obtain ⟨n, s', hex, hq⟩ := ih _ (by rw [hrec, hlen]; omega) hi' rfl
        exact ⟨n + 1, s', by rw [List.replicate_succ, System.exec, hstep]; exact hex, hq⟩

/-- No failed stream is the beginning of a stream of frames. -/
theorem FailedStream.not_frames {m : Nat} (hm : m ≤ 65535) {ps : List Bytes} (hps : ∀ p ∈ ps, p.length ≤ m)
    {f : Bytes × List Bytes} (hf : FailedStream m f) : ¬f.1 <+: encodeFrames ps := by
  rintro ⟨more, hmore⟩
  obtain ⟨hsplit, hfits⟩ := frames_spec m f.1
  have h1 := frames_encode hm hps (not_hasFrame_nil m)
  have h2 := frames_encode hm hfits (hf.2.append more).not_hasFrame
  rw [← List.append_assoc, hsplit, hmore] at h2
  rw [List.append_nil, h2] at h1
  have hnil := congrArg List.length (congrArg Prod.snd h1)
  have hlen := hf.2.1
  simp only [List.length_append, List.length_nil] at hnil
  omega

/-- The invariant over a run, with all the bytes the run brought. -/
theorem run_inv {mtu : Nat} {es : List DecoderEvent} {s : DecoderRun} (h : (decoderSystem mtu).Run es s) :
    DecoderInv (min mtu packetprotoMaxpayload) s ∧ (s.failed.map Prod.fst).flatten ++ s.received = inputBytes es := by
  refine h.invariant (fun es s => DecoderInv (min mtu packetprotoMaxpayload) s ∧
    (s.failed.map Prod.fst).flatten ++ s.received = inputBytes es) ?_ ?_
  · intro s hinit
    refine ⟨init_inv hinit, ?_⟩
    obtain ⟨buf, -, rfl⟩ := hinit
    rfl
  · rintro es s e s' ⟨hi, hb⟩ hstep
    refine ⟨(step_inv (Nat.min_le_right _ _) hi hstep).1, ?_⟩
    obtain ⟨enc, -, -, rfl⟩ := step_cases hi hstep
    rw [record_bytes, ← List.append_assoc, hb]
    simp [inputBytes]

end PacketProtoAux

/-- The byte strings `fs` are what `PacketProtoEncoder` makes of the packets `ps`, each in an output buffer of some content. -/
def EncodedBy (fs ps : List Bytes) : Prop :=
  List.Forall₂ (fun f p => ∃ buf : Bytes, packetprotoEnclen p.length ≤ buf.length ∧ f = PacketProtoEncoder.encode buf p) fs ps

namespace PacketProtoAux

theorem EncodedBy.flatten {fs ps : List Bytes} (h : EncodedBy fs ps) : fs.flatten = encodeFrames ps := by
  induction h with
  | nil => rfl
  | cons hf _ ih =>
    obtain ⟨buf, hl, rfl⟩ := hf
    rw [List.flatten_cons, encodeFrames_cons, ih, encode_eq hl]

/-- As long as the run's input is the beginning of a stream of frames, nothing fails and only its packets are handed over. -/
theorem run_encoded {mtu : Nat} {es : List DecoderEvent} {s : DecoderRun} (h : (decoderSystem mtu).Run es s)
    {ps : List Bytes} (hps : ∀ p ∈ ps, p.length ≤ min mtu packetprotoMaxpayload) (hin : inputBytes es <+: encodeFrames ps) :
    s.failed = [] ∧ s.received = inputBytes es ∧ s.handed <+: ps := by
  have hm : min mtu packetprotoMaxpayload ≤ 65535 := Nat.min_le_right _ _
  obtain ⟨hi, hb⟩ := run_inv h
  cases hfl : s.failed with
  | cons f rest =>
    rw [hfl, List.map_cons, List.flatten_cons, List.append_assoc] at hb
    have hf := hi.failed f (by rw [hfl]; exact List.mem_cons_self)
    exact absurd ((hb ▸ List.prefix_append _ _).trans hin) (FailedStream.not_frames hm hps hf)
  | nil =>
    rw [hfl] at hb
    have hrec : s.received = inputBytes es := hb
    obtain ⟨more, hmore⟩ := hin
    have hpre := prefix_frames hm hi.fits (s.dec.buffered ++ more)
    have hall := frames_encode hm hps (not_hasFrame_nil _)
    rw [List.append_nil] at hall
    rw [← List.append_assoc, ← hi.stream, hrec, hmore, hall] at hpre
    exact ⟨rfl, hrec, hpre⟩

/-- A waiting decoder has handed over all whole frames of its stream. -/
theorem frames_of_waits {m : Nat} (hm : m ≤ 65535) {s : DecoderRun} (hi : DecoderInv m s) {off len : Nat}
    (hp : s.dec.pending = .recv off len) : frames m s.received = (s.handed, s.dec.buffered) := by
  obtain ⟨-, -, -, hf, -⟩ := hi.waits off len hp
  rw [hi.stream, frames_encode hm hi.fits hf]

end PacketProtoAux

/-- `PacketProtoDecoder` over every stream and every chunking of it, in every state it reaches.
1. The used part of the buffer lies inside it, and so does every receive request, which is never empty.
2. The packets handed to the output are the first whole frames of the stream; they are all of them whenever the decoder waits
   for input, and then no header that announces more than the MTU is complete.
3. Every stream that ended in `handler_error` had all its whole frames before the first such header handed over.
4. An event calls `handler_error` exactly when it completes such a header, or takes the last packet before one.
5. As long as the bytes received are the beginning of the encoder's output for packets that fit the MTU, there is no error and
   the packets handed over are the first of these; once all of the output has been received, taking the packets leads to a state
   in which exactly these packets have been handed over. -/
theorem decoder_exact {mtu m : Nat} (hm : m = min mtu packetprotoMaxpayload) {es : List DecoderEvent} {s : DecoderRun}
    (h : (decoderSystem mtu).Run es s) :
    (s.dec.bufStart + s.dec.bufUsed ≤ s.dec.bufSize ∧ s.dec.buf.length = s.dec.bufSize ∧
      ∀ off len, s.dec.pending = .recv off len → 0 < len ∧ off + len ≤ s.dec.bufSize) ∧
    (s.handed <+: (frames m s.received).1 ∧ ∀ off len, s.dec.pending = .recv off len →
      s.handed = (frames m s.received).1 ∧ ¬Oversized m (frames m s.received).2) ∧
    (∀ f ∈ s.failed, FailedStream m f) ∧
    (∀ e s', s.step e = some s' → (s'.failed ≠ s.failed ↔ FailedStream m (s.received ++ e.bytes, s.handed))) ∧
    (∀ ps fs, (∀ p ∈ ps, p.length ≤ m) → EncodedBy fs ps → inputBytes es <+: fs.flatten →
      s.failed = [] ∧ s.handed <+: ps ∧ (inputBytes es = fs.flatten → ∃ n s',
        (decoderSystem mtu).exec s (List.replicate n .outputDone) = some s' ∧ s'.handed = ps ∧ s'.failed = [])) := by
  have hm' : m ≤ 65535 := hm ▸ Nat.min_le_right _ _
  obtain ⟨hi, hb⟩ := run_inv h
  rw [← hm] at hi
  have hpre : s.handed <+: (frames m s.received).1 := hi.stream ▸ prefix_frames hm' hi.fits _
  refine ⟨⟨hi.shape.inside, hi.shape.len, ?_⟩, ⟨hpre, ?_⟩, hi.failed, ?_, ?_⟩
  · intro off len hp
    obtain ⟨-, hend, hpos, -, -⟩ := hi.waits off len hp
    exact ⟨hpos, Nat.le_of_eq hend⟩
  · intro off len hp
    obtain ⟨-, -, -, -, ho⟩ := hi.waits off len hp
    rw [frames_of_waits hm' hi hp]
    exact ⟨rfl, ho⟩
  · intro e s' hstep
    rw [(step_inv hm' hi hstep).2]
    by_cases hf : FailedStream m (s.received ++ e.bytes, s.handed) <;> simp [hf]
  · intro ps fs hps hfs hin
    rw [EncodedBy.flatten hfs] at hin ⊢
    obtain ⟨hfail, -, hhanded⟩ := run_encoded h (hm ▸ hps) hin
    refine ⟨hfail, hhanded, ?_⟩
    intro heq
    obtain ⟨n, s', hex, off, len, hp⟩ := drain hm' hi
    have hrun := h.exec hex
    have hin' : inputBytes (es ++ List.replicate n .outputDone) = encodeFrames ps := by
      rw [← heq]
      simp [inputBytes, DecoderEvent.bytes]
    obtain ⟨hfail', hrec', -⟩ := run_encoded hrun (hm ▸ hps) (hin' ▸ List.prefix_refl _)
    have hwait := frames_of_waits hm' (hm ▸ (run_inv hrun).1) hp
    have hall := frames_encode hm' hps (not_hasFrame_nil _)
    rw [List.append_nil, ← hin', ← hrec', hwait] at hall
    exact ⟨n, s', hex, congrArg Prod.fst hall, hfail'⟩

/-- One packet of one byte through encoder and decoder at an MTU of 3, the frame arriving in two chunks. -/
theorem decoder_exact_one_byte :
    ∃ s, (decoderSystem 3).Run [.inputDone [1, 0], .inputDone [7]] s ∧ s.failed = [] ∧ ∃ n s',
      (decoderSystem 3).exec s (List.replicate n .outputDone) = some s' ∧ s'.handed = [[7]] ∧ s'.failed = [] := by
  obtain ⟨s, hs⟩ : ∃ s, (decoderSystem 3).exec { dec := .init 3 [9, 9, 9, 9, 9], received := [], handed := [], failed := [] }
    [.inputDone [1, 0], .inputDone [7]] = some s := Option.isSome_iff_exists.mp (by decide)
  have hrun := (System.Run.init (M := decoderSystem 3) ⟨[9, 9, 9, 9, 9], rfl, rfl⟩).exec hs
  have henc : EncodedBy [[1, 0, 7]] [[7]] := .cons ⟨[0, 0, 0], by decide, by decide⟩ .nil
  obtain ⟨hfail, -, hend⟩ := (decoder_exact rfl hrun).2.2.2.2 [[7]] [[1, 0, 7]] (by decide) henc (by decide)
  exact ⟨s, hrun, hfail, hend (by decide)⟩

end PsiphonAndroid
