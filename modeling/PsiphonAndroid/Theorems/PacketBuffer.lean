import PsiphonAndroid.Flow.PacketBufferInv

/-!
# The packet buffer is a bounded queue that never stalls

What the buffer does over a whole run, where the bytes of its blocks are an `int`, and that it fails at once where they are not.
-/

namespace PsiphonAndroid

open Lib

/-- The buffer is a queue of some packets, each with the block where it starts: they are those that were received and not yet sent, in
order; they are inside the buffer, and neither they nor the memory of an outstanding receive overlap; there is room for a packet of the
MTU where fewer than `num` are stored; a receive is outstanding, into the input, just where the MTU fits, and a send, of the first packet,
just where there is one. -/
structure PacketBuffer.Queue (w : Nat) (mtu num : Int) (p : PacketBuffer) (packets : List (Int × List UInt8)) : Prop where
  asserts : p.buf.AssertBuffer ∧ p.buf.AssertIo w
  fifo : p.submitted = p.consumed ++ packets.map Prod.snd
  stored : ∀ q ∈ packets, ChunkBuffer2.Stored p.buf.buffer q.1 q.2 ∧ 0 ≤ q.1 ∧ q.1 + ChunkBuffer2.packetBlocks q.2 ≤ p.buf.size
  apart : packets.Pairwise ChunkBuffer2.Apart
  room : (packets.length : Int) < num → mtu ≤ p.buf.inputAvail
  recv : p.recv.isSome = true ↔ mtu ≤ p.buf.inputAvail
  input : ∀ dest, p.recv = some dest → p.buf.inputDest = dest ∧ ∃ e, dest = some (4 * (e + 1)) ∧ 0 ≤ e ∧
    4 * (e + 1) + mtu ≤ 4 * p.buf.size ∧ ∀ q ∈ packets, q.1 + ChunkBuffer2.packetBlocks q.2 ≤ e ∨ 4 * (e + 1) + mtu ≤ 4 * q.1
  send : p.send = packets.head?.map fun q => (some (4 * (q.1 + 1)), (q.2.length : Int))
  output : ∀ dest len, p.send = some (dest, len) → p.buf.outputDest = dest ∧ p.buf.outputAvail = len

namespace PacketBufferAux

open ChunkBuffer2 PacketBuffer

variable {w : Nat} {mtu outputMtu num e : Int} {p p' : PacketBuffer} {front back : List (List UInt8)}

/-- The receive that is outstanding: one into the input, where the MTU fits. -/
def recvOf (mtu : Int) (b : ChunkBuffer2) : Option (Option Int) := if mtu ≤ b.inputAvail then some b.inputDest else none

/-- The send that is outstanding: that of the first packet. -/
def sendOf (b : ChunkBuffer2) (packets : List (List UInt8)) : Option (Option Int × Int) :=
  if packets = [] then none else some (b.outputDest, b.outputAvail)

/-- What holds of the buffer with some packets: it is laid out with them, a receive is outstanding just where the MTU fits, and a send just
where there is a packet. -/
structure Holds (mtu outputMtu num : Int) (p : PacketBuffer) (front back : List (List UInt8)) (e : Int) : Prop where
  in_mtu : p.inputMtu = mtu
  out_mtu : p.outputMtu = outputMtu
  mtu_le : mtu ≤ outputMtu
  laid : p.buf.Laid front back e
  fixed : Fixed mtu num p.buf
  small : ∀ d ∈ front ++ back, (d.length : Int) ≤ mtu
  input : p.buf.InputOk e
  output : p.buf.OutputOk (front ++ back)
  recv : p.recv = recvOf mtu p.buf
  send : p.send = sendOf p.buf (front ++ back)
  fifo : p.submitted = p.consumed ++ (front ++ back)

/-- Where the MTU fits, the input is behind a header at the end. -/
theorem dest_of_avail {b : ChunkBuffer2} (hin : b.InputOk e) (hfix : Fixed mtu num b) (h : mtu ≤ b.inputAvail) :
    b.inputDest = some (4 * (e + 1)) := by
  have hfree := (hin.avail_iff hfix).mp h
  have hmtu := hfix.mtu_ge
  rw [hin.1, if_pos (by omega)]

/-- A receive is asked for where the MTU fits and none is outstanding. -/
theorem receiverRecv_eq (hin : p.buf.InputOk e) (hfix : Fixed mtu num p.buf) (h : mtu ≤ p.buf.inputAvail)
    (hnone : p.recv = none) : p.receiverRecv = .ok { p with recv := some p.buf.inputDest } := by
  unfold receiverRecv
  rw [assertThat_pos (Or.inr (by rw [dest_of_avail hin hfix h]; rfl)), assertThat_pos hnone]
  rfl

/-- A send is asked for where there is a packet and none is outstanding. -/
theorem senderSend_eq {packets : List (List UInt8)} (hout : p.buf.OutputOk packets) (hne : packets ≠ [])
    (hsmall : ∀ d ∈ packets, (d.length : Int) ≤ p.outputMtu) (hnone : p.send = none) :
    p.senderSend = .ok { p with send := some (p.buf.outputDest, p.buf.outputAvail) } := by
  cases packets with
  | nil => exact absurd rfl hne
  | cons d rest =>
    have hlen : p.buf.outputAvail = d.length := hout.2
    have hle := hsmall d List.mem_cons_self
    unfold senderSend
    rw [assertThat_pos (by omega), assertThat_pos (by omega), assertThat_pos (Or.inr (by rw [hout.1]; rfl)), assertThat_pos hnone]
    rfl

/-- There is no output just where there is no packet. -/
theorem outputAvail_neg_iff {b : ChunkBuffer2} {packets : List (List UInt8)} (hout : b.OutputOk packets) :
    b.outputAvail < 0 ↔ packets = [] := by
  cases packets with
  | nil =>
    have hlen : b.outputAvail = -1 := hout.2
    exact iff_of_true (by omega) rfl
  | cons d rest =>
    have hlen : b.outputAvail = d.length := hout.2
    exact iff_of_false (by omega) (List.cons_ne_nil _ _)

/-- The input writes some bytes. -/
theorem Holds.fill (h : Holds mtu outputMtu num p front back e) {offset : Nat} {data : List UInt8} {s : Except PacketBufferFault PacketBuffer}
    (hstep : p.step w (.fill offset data) = some s) : ∃ p', s = .ok p' ∧ Holds mtu outputMtu num p' front back e := by
  have hrecv := h.recv
  simp only [PacketBuffer.step] at hstep
  split at hstep
  · rename_i a ha
    obtain ⟨hlen, hs⟩ := Option.ite_none_right_eq_some.mp hstep
    obtain rfl := Option.some.inj hs
    rw [ha, recvOf] at hrecv
    split at hrecv
    · rename_i havail
      have hdest := dest_of_avail h.input h.fixed havail
      obtain rfl : a = 4 * (e + 1) := Option.some.inj ((Option.some.inj hrecv).trans hdest)
      have hfree := (h.input.avail_iff h.fixed).mp havail
      have hmtu := h.fixed.mtu_eq
      rw [h.in_mtu] at hlen
      refine ⟨_, rfl, h.in_mtu, h.out_mtu, h.mtu_le, ?_, h.fixed.congr rfl rfl, h.small, h.input, h.output, h.recv, h.send, h.fifo⟩
      exact h.laid.write (by omega) (by omega)
    · cases hrecv
  · cases hstep

/-- The input is done with a packet: it is behind the others, and the next receive is asked for where it fits. -/
theorem inputHandlerDone_holds (h : Holds mtu outputMtu num p front back e) (hw : 32 ≤ w) (havail : mtu ≤ p.buf.inputAvail)
    {d : List UInt8} (hd : (d.length : Int) ≤ mtu) (hdata : p.buf.buffer.read (4 * (e + 1)) d.length = d) :
    ∃ p' front' back' e', { p with recv := none, submitted := p.submitted ++ [d] }.inputHandlerDone w d.length = .ok p' ∧
      Holds mtu outputMtu num p' front' back' e' := by
  obtain ⟨b', front', back', e', hsubmit, hlaid, hpackets, hfix, hin, hout, hstart⟩ :=
    submitPacket_spec h.laid h.fixed hw h.small h.input h.output havail hd hdata
  have hsmall : ∀ d' ∈ front' ++ back', (d'.length : Int) ≤ mtu := by
    rw [hpackets]
    intro d' hd'
    rcases List.mem_append.mp hd' with hd' | hd'
    · exact h.small d' hd'
    · rw [List.mem_singleton.mp hd']
      exact hd
  have hne : front' ++ back' ≠ [] := by
    rw [hpackets]
    exact List.append_ne_nil_of_right_ne_nil _ (List.cons_ne_nil _ _)
  -- A send is asked for where there was none; else the first packet is the one it was.
  have hsend : ∀ q : PacketBuffer, q.buf = b' → q.outputMtu = outputMtu → q.send = p.send →
      (if p.buf.outputAvail < 0 then q.senderSend else .ok q) = .ok { q with send := sendOf b' (front' ++ back') } := by
    intro q hq hqmtu hqsend
    unfold sendOf
    rw [if_neg hne]
    have hempty := outputAvail_neg_iff h.output
    have hold := h.send
    unfold sendOf at hold
    by_cases hc : front ++ back = []
    · rw [if_pos (hempty.mpr hc), ← hq]
      rw [if_pos hc] at hold
      refine senderSend_eq (hq ▸ hout) hne ?_ (hqsend.trans hold)
      rw [hqmtu]
      exact fun d' hd' => (hsmall d' hd').trans h.mtu_le
    · rw [if_neg (mt hempty.mp hc)]
      rw [if_neg hc] at hold
      have hhead : (front' ++ back').head? = (front ++ back).head? := by rw [hpackets, List.head?_append_of_ne_nil _ hc]
      have hdest : b'.outputDest = p.buf.outputDest := by rw [hout.1, h.output.1, hhead, hstart]
      have hlen : b'.outputAvail = p.buf.outputAvail := by rw [hout.2, h.output.2, hhead]
      rw [hdest, hlen, ← hold, ← hqsend]
  refine ⟨⟨p.inputMtu, p.outputMtu, b', recvOf mtu b', sendOf b' (front' ++ back'), p.submitted ++ [d], p.consumed⟩, front', back', e', ?_,
    h.in_mtu, h.out_mtu, h.mtu_le, hlaid, hfix, hsmall, hin, hout, rfl, rfl, ?_⟩
  · unfold inputHandlerDone
    rw [assertThat_pos (by omega), assertThat_pos (by rw [h.in_mtu]; exact hd), hsubmit]
    simp only [bind, Except.bind, pure, Except.pure]
    unfold recvOf
    by_cases hc : mtu ≤ b'.inputAvail
    · rw [if_pos (by rw [h.in_mtu]; exact hc), if_pos hc,
        @receiverRecv_eq mtu num e' { p with recv := none, submitted := p.submitted ++ [d], buf := b' } hin hfix hc rfl]
      exact hsend { p with recv := some b'.inputDest, submitted := p.submitted ++ [d], buf := b' } rfl h.out_mtu rfl
    · rw [if_neg (by rw [h.in_mtu]; exact hc), if_neg hc]
      exact hsend { p with recv := none, submitted := p.submitted ++ [d], buf := b' } rfl h.out_mtu rfl
  · rw [hpackets, ← List.append_assoc, ← h.fifo]

/-- The output is done with the first packet: it is gone, and a receive is asked for where the MTU fits again. -/
theorem outputHandlerDone_holds (h : Holds mtu outputMtu num p front back e) (hw : 32 ≤ w) {d : List UInt8} {rest : List (List UInt8)}
    (hfirst : front ++ back = d :: rest) :
    ∃ p' front' back', { p with send := none, consumed := p.consumed ++ [d] }.outputHandlerDone w = .ok p' ∧
      Holds mtu outputMtu num p' front' back' e := by
  obtain ⟨b', front', back', hconsume, hlaid, hrest, hfix, hin, hout, hfree, hbuffer⟩ :=
    consumePacket_spec h.laid h.fixed hw h.small h.input h.output hfirst
  subst hrest
  have hsmall : ∀ d' ∈ front' ++ back', (d'.length : Int) ≤ mtu := fun d' hd' => h.small d' (hfirst ▸ List.mem_cons_of_mem _ hd')
  have hmtu : b'.mtu = p.buf.mtu := hfix.mtu_eq.trans h.fixed.mtu_eq.symm
  -- Where the MTU fits, it fits afterwards, in the same place.
  have hkeep : mtu ≤ p.buf.inputAvail → mtu ≤ b'.inputAvail ∧ b'.inputDest = p.buf.inputDest := by
    intro hc
    have hle := (h.input.avail_iff h.fixed).mp hc
    have hc' := (hin.avail_iff hfix).mpr (by omega)
    exact ⟨hc', (dest_of_avail hin hfix hc').trans (dest_of_avail h.input h.fixed hc).symm⟩
  have hsend : ∀ q : PacketBuffer, q.buf = b' → q.outputMtu = outputMtu → q.send = none →
      (if q.buf.outputAvail ≥ 0 then q.senderSend else .ok q) = .ok { q with send := sendOf b' (front' ++ back') } := by
    intro q hq hqmtu hqsend
    have hempty := outputAvail_neg_iff hout
    unfold sendOf
    subst hq
    by_cases hc : front' ++ back' = []
    · rw [if_neg (by have := hempty.mpr hc; omega), if_pos hc, ← hqsend]
    · rw [if_pos (by have := mt hempty.mp hc; omega), if_neg hc]
      refine senderSend_eq hout hc ?_ hqsend
      rw [hqmtu]
      exact fun d' hd' => (hsmall d' hd').trans h.mtu_le
  refine ⟨⟨p.inputMtu, p.outputMtu, b', recvOf mtu b', sendOf b' (front' ++ back'), p.submitted, p.consumed ++ [d]⟩, front', back', ?_,
    h.in_mtu, h.out_mtu, h.mtu_le, hlaid, hfix, hsmall, hin, hout, rfl, rfl, ?_⟩
  · have hold := h.recv
    unfold outputHandlerDone
    rw [hconsume]
    simp only [bind, Except.bind, pure, Except.pure]
    have hmtu' := h.in_mtu
    unfold recvOf at hold ⊢
    by_cases hfull : mtu ≤ p.buf.inputAvail
    · obtain ⟨hc, hdest⟩ := hkeep hfull
      rw [if_pos hfull] at hold
      rw [if_neg (by omega), if_pos hc, hdest, ← hold]
      exact hsend { p with send := none, consumed := p.consumed ++ [d], buf := b' } rfl h.out_mtu rfl
    · rw [if_neg hfull] at hold
      by_cases hc : mtu ≤ b'.inputAvail
      · rw [if_pos (by omega), if_pos hc,
          @receiverRecv_eq mtu num e { p with send := none, consumed := p.consumed ++ [d], buf := b' } hin hfix hc hold]
        exact hsend { p with send := none, consumed := p.consumed ++ [d], buf := b', recv := some b'.inputDest } rfl h.out_mtu rfl
      · rw [if_neg (by omega), if_neg hc, ← hold]
        exact hsend { p with send := none, consumed := p.consumed ++ [d], buf := b' } rfl h.out_mtu rfl
  · rw [List.append_assoc, List.singleton_append, ← hfirst]
    exact h.fifo

/-- Every event keeps the buffer laid out. -/
theorem step_holds (h : Holds mtu outputMtu num p front back e) (hw : 32 ≤ w) {ev : PacketBufferEvent}
    {s : Except PacketBufferFault PacketBuffer} (hstep : p.step w ev = some s) :
    ∃ p' front' back' e', s = .ok p' ∧ Holds mtu outputMtu num p' front' back' e' := by
  cases ev with
  | fill offset data =>
    obtain ⟨p', hs, h'⟩ := h.fill hstep
    exact ⟨p', front, back, e, hs, h'⟩
  | recvDone len =>
    have hrecv := h.recv
    simp only [PacketBuffer.step] at hstep
    split at hstep
    · rename_i dest hdest
      obtain ⟨hlen, hs⟩ := Option.ite_none_right_eq_some.mp hstep
      obtain rfl := Option.some.inj hs
      rw [hdest, recvOf] at hrecv
      split at hrecv
      · rename_i havail
        obtain rfl : dest = some (4 * (e + 1)) := (Option.some.inj hrecv).trans (dest_of_avail h.input h.fixed havail)
        rw [h.in_mtu] at hlen
        have hlength : (p.buf.buffer.read (4 * (e + 1)) len).length = len := Memory.length_read _ _ _
        obtain ⟨p', front', back', e', hdone, h'⟩ := inputHandlerDone_holds h hw havail (d := p.buf.buffer.read (4 * (e + 1)) len)
          (by rw [hlength]; exact hlen) (by rw [hlength])
        rw [hlength] at hdone
        exact ⟨p', front', back', e', hdone, h'⟩
      · cases hrecv
    · cases hstep
  | sendDone =>
    have hsend := h.send
    simp only [PacketBuffer.step] at hstep
    split at hstep
    · rename_i dest len hsome
      obtain rfl := Option.some.inj hstep
      rw [hsome, sendOf] at hsend
      cases hpackets : front ++ back with
      | nil =>
        rw [if_pos hpackets] at hsend
        cases hsend
      | cons d rest =>
        rw [if_neg (by rw [hpackets]; exact List.cons_ne_nil _ _)] at hsend
        obtain ⟨rfl, rfl⟩ := Prod.mk.inj (Option.some.inj hsend)
        obtain ⟨-, -, -, hstored, -⟩ := h.laid.first h.fixed.mtu_ge hpackets
        have hbytes : p.bytesAt p.buf.outputDest p.buf.outputAvail.toNat = d := by
          rw [h.output.1, h.output.2, hpackets]
          exact hstored.2
        rw [hbytes]
        obtain ⟨p', front', back', hdone, h'⟩ := outputHandlerDone_holds h hw hpackets
        exact ⟨p', front', back', e, hdone, h'⟩
    · cases hstep

/-- `ChunkBuffer2_calc_blocks` where it does not fail. -/
theorem calcBlocks_eq (hw : 32 ≤ w) (h0 : 0 ≤ mtu) (hmax : mtu ≤ intMax32) (hnum : 0 < num) (h : 0 ≤ calcBlocks w mtu num) :
    calcBlocks w mtu num = (1 + (mtu + 3) / 4) * (num + 1) ∧ calcBlocks w mtu num ≤ intMax32 := by
  have hblocks := blockLen_eq hw h0 (by unfold intMax32 at hmax; omega)
  unfold calcBlocks at h ⊢
  rw [hblocks] at h ⊢
  dsimp only at h ⊢
  split at h
  · omega
  · rename_i h1
    split at h
    · omega
    · rename_i h2
      split at h
      · omega
      · rename_i h3
        rw [if_neg h1, if_neg h2, if_neg h3]
        refine ⟨rfl, ?_⟩
        exact Int.mul_le_of_le_ediv (by omega) (by omega)

/-- The buffer after `PacketBuffer_Init`. -/
theorem init_holds (hw : 32 ≤ w) (h0 : 0 ≤ mtu) (hmax : mtu ≤ intMax32) (hout : mtu ≤ outputMtu) (hnum : 0 < num)
    (hblocks : 0 ≤ calcBlocks w mtu num) (hle : calcBlocks w mtu num ≤ 2 ^ 29) {mem : Memory}
    {s : Except PacketBufferFault PacketBuffer} (hinit : PacketBuffer.init w mtu outputMtu num mem = some s) :
    ∃ p, s = .ok p ∧ Holds mtu outputMtu num p [] [] 0 := by
  obtain ⟨hsize, -⟩ := calcBlocks_eq hw h0 hmax hnum hblocks
  have hlt : mtu < 2 ^ 31 := by
    unfold intMax32 at hmax
    omega
  have hmtu := blockLen_eq hw h0 hlt
  obtain ⟨b, hbuf, hlaid, hfix, hin, hempty⟩ := @init_spec w mem mtu num hw (calcBlocks w mtu num)
    ⟨h0, hlt, hnum, hmtu, by dsimp only; rw [hmtu]; exact hsize, hle⟩
  have havail : mtu ≤ b.inputAvail := (hin.avail_iff hfix).mpr (hlaid.free_of_few hfix nofun hnum)
  unfold PacketBuffer.init at hinit
  rw [if_neg (by omega)] at hinit
  obtain rfl := Option.some.inj hinit
  refine ⟨⟨mtu, outputMtu, b, recvOf mtu b, none, [], []⟩, ?_, rfl, rfl, hout, hlaid, hfix, nofun, hin, hempty, rfl, rfl, rfl⟩
  rw [assertThat_pos hout, assertThat_pos hnum, hbuf]
  simp only [bind, Except.bind]
  rw [@receiverRecv_eq mtu num 0 ⟨mtu, outputMtu, b, none, none, [], []⟩ hin hfix havail rfl, recvOf, if_pos havail]

/-- Every run keeps the buffer laid out. -/
theorem run_holds (hw : 32 ≤ w) (h0 : 0 ≤ mtu) (hmax : mtu ≤ intMax32) (hout : mtu ≤ outputMtu) (hnum : 0 < num)
    (hblocks : 0 ≤ calcBlocks w mtu num) (hle : calcBlocks w mtu num ≤ 2 ^ 29) {es : List PacketBufferEvent}
    {s : Except PacketBufferFault PacketBuffer} (h : (packetBufferSystem w mtu outputMtu num).Run es s) :
    ∃ p front back e, s = .ok p ∧ Holds mtu outputMtu num p front back e := by
  refine h.invariant (fun _ s => ∃ p front back e, s = .ok p ∧ Holds mtu outputMtu num p front back e) ?_ ?_
  · rintro s ⟨mem, hinit⟩
    obtain ⟨p, hp, hholds⟩ := init_holds hw h0 hmax hout hnum hblocks hle hinit
    exact ⟨p, [], [], 0, hp, hholds⟩
  · rintro es s ev s' ⟨p, front, back, e, rfl, hholds⟩ hstep
    obtain ⟨p', front', back', e', hp', hholds'⟩ := step_holds hholds hw hstep
    exact ⟨p', front', back', e', hp', hholds'⟩

/-- A buffer that is laid out is a queue. -/
theorem Holds.queue (h : Holds mtu outputMtu num p front back e) (hw : 32 ≤ w) : p.Queue w mtu num (p.buf.packetsOf front back) := by
  have hmtu := h.fixed.mtu_ge
  have hlen : ((p.buf.packetsOf front back).length : Int) = (front ++ back).length := by
    rw [← map_packetsOf, List.length_map]
  have hmem := fun q (hq : q ∈ p.buf.packetsOf front back) => h.laid.mem_packetsOf hmtu hq
  refine ⟨⟨h.laid.assertBuffer hmtu, h.laid.assertIo h.fixed hw h.small h.input h.output⟩, ?_, ?_, h.laid.pairwise, ?_, ?_, ?_, ?_, ?_⟩
  · rw [map_packetsOf]
    exact h.fifo
  · exact fun q hq => ⟨(hmem q hq).1, (hmem q hq).2.1, (hmem q hq).2.2.1⟩
  · intro hfew
    rw [hlen] at hfew
    refine (h.input.avail_iff h.fixed).mpr (h.laid.free_of_few h.fixed ?_ hfew)
    exact fun d hd => h.fixed.packetBlocks_le (h.small d hd)
  · rw [h.recv, recvOf]
    split
    · rename_i hc
      exact iff_of_true rfl hc
    · rename_i hc
      exact iff_of_false nofun hc
  · intro dest hdest
    rw [h.recv, recvOf] at hdest
    split at hdest
    · rename_i hc
      have hfree := (h.input.avail_iff h.fixed).mp hc
      have hroom := h.laid.room
      have heq := h.fixed.mtu_eq
      refine ⟨Option.some.inj hdest, e, ?_, hroom.1, by omega, ?_⟩
      · exact (Option.some.inj hdest).symm.trans (dest_of_avail h.input h.fixed hc)
      · intro q hq
        rcases (hmem q hq).2.2.2 with hq | hq
        · exact Or.inl hq
        · exact Or.inr (by omega)
    · cases hdest
  · rw [h.laid.output hmtu h.output]
    exact h.send
  · intro dest len hsend
    rw [h.send, sendOf] at hsend
    split at hsend
    · cases hsend
    · exact Prod.mk.inj (Option.some.inj hsend)

/-- A `size_t` beyond the range of an `int` is not what it is as an `int`. -/
theorem toSize_toInt_ne {x : Int} (hw : 34 ≤ w) (hlow : 2 ^ 31 ≤ x) (hhigh : x < 2 ^ 33) : toSize w (toInt x) ≠ x := by
  have hpow : (2 : Int) ^ 34 ≤ 2 ^ w := pow_le_pow_right₀ (by decide) hw
  have hle : -2 ^ 31 ≤ toInt x := Int.le_bmod (by decide)
  have hlt : toInt x < 2 ^ 31 := Int.bmod_lt (by decide)
  unfold toSize
  by_cases hneg : toInt x < 0
  · rw [← Int.add_emod_right, Int.emod_eq_of_lt (by omega) (by omega)]
    omega
  · rw [Int.emod_eq_of_lt (by omega) (by omega)]
    omega

/-- Where the bytes of the blocks are no `int`, the last assertion of `ChunkBuffer2_Init` fails. -/
theorem chunkBuffer_faults (hw : 34 ≤ w) (h0 : 0 ≤ mtu) (hmax : mtu ≤ intMax32) {size : Int} (hroom : 1 + blockLen w mtu ≤ size)
    (hgt : 2 ^ 29 < size) (hint : size ≤ intMax32) (mem : Memory) : ChunkBuffer2.init w mem size mtu = .error .assertion := by
  have hblocks : blockLen w mtu = (mtu + 3) / 4 := blockLen_eq (by omega) h0 (by unfold intMax32 at hmax; omega)
  unfold intMax32 at hint
  generalize hb : (⟨mem, size, size, 0, 0, blockLen w mtu, none, 0, none, 0⟩ : ChunkBuffer2) = b
  obtain ⟨hsize, hwrap, hstart, hused, hmtu⟩ : b.size = size ∧ b.wrap = size ∧ b.start = 0 ∧ b.used = 0 ∧ b.mtu = blockLen w mtu := by
    rw [← hb]
    exact ⟨rfl, rfl, rfl, rfl, rfl⟩
  have hfree : b.end_ = 0 ∧ b.free = b.size - 0 := free_straight (by omega) (by omega)
  have hbuffer : b.AssertBuffer := by
    unfold AssertBuffer
    omega
  have hbytes : b.freeBytes w = 4 * (size - 1) := by
    have hpow : (2 : Int) ^ 34 ≤ 2 ^ w := pow_le_pow_right₀ (by decide) hw
    unfold freeBytes toSize
    rw [hfree.2, hsize, Int.emod_eq_of_lt (a := size - 0 - 1) (by omega) (by omega), Int.emod_eq_of_lt (by omega) (by omega)]
    omega
  have hinput : b.updateInput w = { b with inputDest := some (4 * (0 + 1)), inputAvail := toInt (b.freeBytes w) } := by
    unfold updateInput
    rw [hfree.1, if_neg (by omega), if_pos (by omega)]
  have hio : ¬({ b with inputDest := some (4 * (0 + 1)), inputAvail := toInt (b.freeBytes w), outputDest := none, outputAvail := -1 } :
      ChunkBuffer2).AssertIo w := by
    rintro ⟨hin, -⟩
    change if b.size - b.end_ - 1 < b.mtu then _ else if b.free > 0 then _ ∧ toSize w (toInt (b.freeBytes w)) = b.freeBytes w else _ at hin
    rw [hfree.1, if_neg (by omega), if_pos (by omega), hbytes] at hin
    exact toSize_toInt_ne hw (by omega) (by omega) hin.2
  unfold ChunkBuffer2.init
  rw [assertThat_pos (by omega), assertThat_pos h0]
  simp only [bind, Except.bind, pure, Except.pure]
  rw [hb, assertThat_pos hbuffer, hinput]
  unfold updateOutput
  dsimp only
  rw [if_neg (by omega)]
  dsimp only [pure, Except.pure]
  rw [assertThat, if_neg hio]

/-- So does `PacketBuffer_Init`. -/
theorem init_faults (hw : 34 ≤ w) (h0 : 0 ≤ mtu) (hmax : mtu ≤ intMax32) (hout : mtu ≤ outputMtu) (hnum : 0 < num)
    (hblocks : 0 ≤ calcBlocks w mtu num) (hgt : 2 ^ 29 < calcBlocks w mtu num) (mem : Memory) :
    PacketBuffer.init w mtu outputMtu num mem = some (.error .assertion) := by
  obtain ⟨hsize, hint⟩ := calcBlocks_eq (by omega) h0 hmax hnum hblocks
  have hmtu : blockLen w mtu = (mtu + 3) / 4 := blockLen_eq (by omega) h0 (by unfold intMax32 at hmax; omega)
  have hroom : 1 + blockLen w mtu ≤ calcBlocks w mtu num := by
    rw [hsize, hmtu]
    exact le_mul_of_one_le_right (by omega) (by omega)
  unfold PacketBuffer.init
  rw [if_neg (by omega), assertThat_pos hout, assertThat_pos hnum, chunkBuffer_faults hw h0 hmax hroom hgt hint mem]
  rfl

end PacketBufferAux

open PacketBufferAux

/-- The packet buffer for `num` packets of at most `mtu` bytes, where `ChunkBuffer2_calc_blocks` does not fail:

1. the number of blocks is as it should be, and in the range of an `int`;
2. if it is at most 2^29, then in every run no assertion fails and the buffer is a queue that does not stall;
3. with a `size_t` of 64 bits this is so only then: else an assertion fails at once. -/
theorem packet_buffer_queue_iff {w : Nat} {mtu outputMtu num : Int} (hw : 32 ≤ w) (h0 : 0 ≤ mtu) (hmax : mtu ≤ intMax32)
    (hout : mtu ≤ outputMtu) (hnum : 0 < num) (hblocks : 0 ≤ ChunkBuffer2.calcBlocks w mtu num) :
    (ChunkBuffer2.calcBlocks w mtu num = (1 + (mtu + 3) / 4) * (num + 1) ∧ ChunkBuffer2.calcBlocks w mtu num ≤ intMax32) ∧
    (ChunkBuffer2.calcBlocks w mtu num ≤ 2 ^ 29 → ∀ es s, (packetBufferSystem w mtu outputMtu num).Run es s →
      ∃ p packets, s = .ok p ∧ p.Queue w mtu num packets) ∧
    (34 ≤ w → (∀ es s, (packetBufferSystem w mtu outputMtu num).Run es s → ∃ p packets, s = .ok p ∧ p.Queue w mtu num packets) →
      ChunkBuffer2.calcBlocks w mtu num ≤ 2 ^ 29) := by
  refine ⟨calcBlocks_eq hw h0 hmax hnum hblocks, ?_, ?_⟩
  · intro hle es s h
    obtain ⟨p, front, back, e, rfl, hholds⟩ := run_holds hw h0 hmax hout hnum hblocks hle h
    exact ⟨p, _, rfl, hholds.queue hw⟩
  · intro hw' hall
    by_contra hgt
    have hinit := init_faults hw' h0 hmax hout hnum hblocks (not_le.mp hgt) fun _ => 0
    obtain ⟨p, packets, hp, -⟩ := hall [] _ (.init ⟨_, hinit⟩)
    cases hp

/-- Three packets are received into a buffer for two of eight bytes, and the first one is sent; the buffer wraps behind the third. -/
def threePackets : List PacketBufferEvent :=
  [.fill 0 [1, 2, 3, 4, 5], .recvDone 5, .fill 0 [6, 7, 8, 9], .fill 4 [10, 11, 12, 13], .recvDone 8, .sendDone, .fill 0 [14], .recvDone 1]

/-- The buffer before them. -/
def twoPacketBuffer : Except PacketBufferFault PacketBuffer :=
  (PacketBuffer.init 64 8 8 2 fun _ => 0).get (by decide +kernel)

theorem threePackets_run : ((packetBufferSystem 64 8 8 2).exec twoPacketBuffer threePackets).isSome = true := by decide +kernel

/-- Two of the packets are stored, in their order. -/
theorem packet_buffer_queue_wraps : ∃ p packets, (packetBufferSystem 64 8 8 2).Run threePackets (.ok p) ∧ p.Queue 64 8 2 packets ∧
    p.buf.wrap < p.buf.size ∧ packets.map Prod.snd = [[6, 7, 8, 9, 10, 11, 12, 13], [14]] := by
  have hinit : (packetBufferSystem 64 8 8 2).Run [] twoPacketBuffer := .init ⟨fun _ => 0, (Option.some_get _).symm⟩
  have h : (packetBufferSystem 64 8 8 2).Run threePackets (Option.get _ threePackets_run) := hinit.exec (Option.some_get _).symm
  obtain ⟨p, packets, hp, hqueue⟩ := (packet_buffer_queue_iff (by decide) (by decide) (by decide) (by decide) (by decide) (by decide)).2.1
    (by decide) threePackets _ h
  have hstate : ((Option.get _ threePackets_run).toOption.map fun p => decide (p.buf.wrap < p.buf.size ∧
      p.submitted = p.consumed ++ [[6, 7, 8, 9, 10, 11, 12, 13], [14]])) = some true := by decide +kernel
  rw [hp] at h hstate
  obtain ⟨hwrap, hsubmitted⟩ := of_decide_eq_true (Option.some.inj hstate)
  exact ⟨p, packets, h, hqueue, hwrap, List.append_cancel_left (hqueue.fifo.symm.trans hsubmitted)⟩

/-- A buffer for 1500000 packets of 1500 bytes has 564000376 blocks, and cannot be made. -/
theorem packet_buffer_overflows : ChunkBuffer2.calcBlocks 64 1500 1500000 = 564000376 ∧
    (packetBufferSystem 64 1500 1500 1500000).Run [] (.error .assertion) ∧
    ¬∃ p packets, (.error .assertion : Except PacketBufferFault PacketBuffer) = .ok p ∧ p.Queue 64 1500 1500000 packets := by
  refine ⟨by decide +kernel, .init ⟨fun _ => 0, by rfl⟩, ?_⟩
  rintro ⟨p, packets, hp, -⟩
  cases hp

end PsiphonAndroid
