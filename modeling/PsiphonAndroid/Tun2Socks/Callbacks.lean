import PsiphonAndroid.Tun2Socks.RelayInv

/-!
# The callbacks of a TCP client keep the invariant

Every callback that can come to a client in `Relay` ends without a fault and leaves it in `Relay`: first the data that goes to
lwIP, then what the SOCKS client reports, then the callbacks of lwIP, each of which may run reports of the SOCKS client inside.
-/

namespace PsiphonAndroid

open Lib

namespace TcpClient

variable {K : SocksEnd → Prop} {c : TcpClient}

/-- A callback ends without a fault and leaves a client between callbacks. -/
def Keeps (K : SocksEnd → Prop) (r : Except TcpFault TcpClient) : Prop := ∃ c', r = .ok c' ∧ Relay K c'

/-! ## Data for lwIP -/

/-- `n` bytes more of `socks_recv_buf` were taken by `tcp_write`. -/
def queue (c : TcpClient) (n : Nat) : TcpClient :=
  { c with
    written := c.written ++ slice c.socksRecvBuf c.socksRecvBufSent n
    socksRecvBufSent := c.socksRecvBufSent + n
    socksRecvTcpPending := c.socksRecvTcpPending + n }

/-- Queueing nothing. -/
theorem queue_zero (c : TcpClient) : c.queue 0 = c := by
  unfold queue
  rw [slice_zero_len, List.append_nil]
  rfl

/-- Queueing twice. -/
theorem queue_queue (c : TcpClient) (m n : Nat) : (c.queue m).queue n = c.queue (m + n) := by
  unfold queue
  dsimp only
  rw [List.append_assoc, slice_append, Nat.add_assoc, Nat.add_assoc]

/-- `used` bytes of `socks_recv_buf` came from SOCKS, and those from `socks_recv_buf_sent` on were not written yet. -/
structure Unsent (c : TcpClient) (used : Nat) : Prop where
  used_eq : c.socksRecvBufUsed = used
  used_le : used ≤ clientSocksRecvBufSize
  sent_le : c.socksRecvBufSent ≤ used
  pending : c.acked + c.socksRecvTcpPending = c.written.length
  stream : c.written ++ slice c.socksRecvBuf c.socksRecvBufSent (used - c.socksRecvBufSent) = c.fromSocks

/-- What is queued is no longer unsent. -/
theorem Unsent.queue {used : Nat} (h : Unsent c used) (hb : Base K c) {n : Nat} (hn : c.socksRecvBufSent + n ≤ used) :
    Unsent (c.queue n) used := by
  have hlen : (slice c.socksRecvBuf c.socksRecvBufSent n).length = n := by
    apply length_slice_of_le
    rw [hb.recvBufLen]
    exact hn.trans h.used_le
  refine ⟨h.used_eq, h.used_le, hn, ?_, ?_⟩
  · change c.acked + (c.socksRecvTcpPending + n) = (c.written ++ slice c.socksRecvBuf c.socksRecvBufSent n).length
    rw [List.length_append, hlen, ← Nat.add_assoc, h.pending]
  · change (c.written ++ slice c.socksRecvBuf c.socksRecvBufSent n) ++
      slice c.socksRecvBuf (c.socksRecvBufSent + n) (used - (c.socksRecvBufSent + n)) = c.fromSocks
    rw [List.append_assoc, slice_append, ← h.stream]
    congr 2
    omega

/-- Queueing what SOCKS sent keeps the basis. -/
theorem Base.queue (h : Base K c) (hc : c.clientClosed = false) (hup : c.socksUp = true) (n : Nat) : Base K (c.queue n) :=
  { h with
    notUp := fun hn => absurd (hup.symm.trans hn) Bool.noConfusion
    confirmed := fun hd => absurd ((h.confirmed hd).1.symm.trans hc) Bool.noConfusion }

/-- The loop writes some of the data in the buffer. -/
theorem sendOutLoop_queue {used : Nat} (answers : List WriteAnswer) (hu : c.socksRecvBufUsed = used) (hlt : c.socksRecvBufSent < used) :
    ∃ n b, sendOutLoop answers c = (c.queue n, b) ∧ c.socksRecvBufSent + n ≤ used := by
  induction answers generalizing c with
  | nil => exact ⟨0, true, by rw [queue_zero]; rfl, hlt.le⟩
  | cons a answers ih =>
    have hnone : ∀ b : Bool, ∃ n b', (c, b) = (c.queue n, b') ∧ c.socksRecvBufSent + n ≤ used :=
      fun b => ⟨0, b, by rw [queue_zero], hlt.le⟩
    unfold sendOutLoop
    dsimp only
    split
    · exact hnone true
    · have hfits : c.socksRecvBufSent + min (c.socksRecvBufUsed.toNat - c.socksRecvBufSent) a.sndbuf ≤ used := by
        rw [hu, Int.toNat_natCast]
        omega
      split
      · split
        · rename_i hmore
          have hlt' : c.socksRecvBufSent + min (c.socksRecvBufUsed.toNat - c.socksRecvBufSent) a.sndbuf < used :=
            Int.ofNat_lt.mp (lt_of_lt_of_eq hmore hu)
          obtain ⟨n, b, heq, hle⟩ := ih (c := c.queue _) hu hlt'
          rw [queue_queue] at heq
          exact ⟨_, b, heq, by rw [← Nat.add_assoc]; exact hle⟩
        · exact ⟨_, true, rfl, hfits⟩
      · exact hnone true
      · exact hnone false

/-- After its pcb is gone the client side is closed. -/
theorem afterPcb_clientClosed (c : TcpClient) : c.afterPcb.clientClosed = true := by
  unfold afterPcb
  split
  · rfl
  · split <;> rfl

/-- lwIP does not take data for the application: `tcp_write` or `tcp_output` fails, or some of the data is left and nothing is on its
way whose confirmation could be waited for. -/
def LwipRefuses (c : TcpClient) (lwip : LwipAnswers) : Prop :=
  (sendOutLoop lwip.writes c).2 = false ∨ lwip.outputOk = false ∨
    (((sendOutLoop lwip.writes c).1.socksRecvBufSent : Int) < (sendOutLoop lwip.writes c).1.socksRecvBufUsed ∧
      (sendOutLoop lwip.writes c).1.socksRecvTcpPending = 0)

/-- What `client_socks_recv_send_out` does: it aborts the client where lwIP refuses, or queues all it can, and then something is to
be confirmed. -/
theorem clientSocksRecvSendOut_spec (used : Nat) (h : Base K c) (hc : c.clientClosed = false) (hup : c.socksUp = true)
    (hu : Unsent c used) (hlt : c.socksRecvBufSent < used) (hw : c.socksRecvWaiting = false) (hr : c.receiving = false)
    (lwip : LwipAnswers) :
    ∃ c', (c.clientSocksRecvSendOut lwip = .ok (c', false) ∧ Relay K c' ∧ c'.clientClosed = true ∧ LwipRefuses c lwip) ∨
      (c.clientSocksRecvSendOut lwip = .ok (c', true) ∧ Base K c' ∧ c'.clientClosed = false ∧ c'.socksUp = true ∧
        c'.socksClosed = c.socksClosed ∧ c'.receiving = false ∧ Queued c' ∧ 0 < c'.socksRecvTcpPending ∧
        ¬LwipRefuses c lwip) := by
  obtain ⟨n, b, hloop, hle⟩ := sendOutLoop_queue lwip.writes hu.used_eq hlt
  have hb := h.queue hc hup n
  have hq := hu.queue h hle
  have habort : clientAbortClient (c.queue n) = .ok ((c.queue n).withoutPcb .aborted).afterPcb :=
    clientAbortClient_eq (hb.not_freed (Or.inl hc)) hc (hb.pcb_open hc) hb.socks_open
  have hrelay : Relay K ((c.queue n).withoutPcb .aborted).afterPcb := relay_afterPcb hb hc (fun hn => PcbEnd.noConfusion hn)
  have heq : c.clientSocksRecvSendOut lwip =
      if b = false ∨ lwip.outputOk = false then (clientAbortClient (c.queue n)).map fun c => (c, false)
      else if ((c.socksRecvBufSent + n : Nat) : Int) < c.socksRecvBufUsed then
        if c.socksRecvTcpPending + n = 0 then (clientAbortClient (c.queue n)).map fun c => (c, false)
        else .ok ({ c.queue n with socksRecvWaiting := true }, true)
      else .ok ({ c.queue n with socksRecvBufUsed := -1 }, true) := by
    unfold clientSocksRecvSendOut
    rw [check_pos (by rw [h.not_freed (Or.inl hc)]; rfl), check_pos (by rw [hc]; rfl), check_pos hup,
      check_pos (by rw [hu.used_eq, decide_eq_true_iff]; omega),
      check_pos (by rw [hu.used_eq, decide_eq_true_iff]; omega), check_pos (by rw [hw]; rfl), check_pos (h.pcb_open hc), hloop]
    rfl
  have hrefuses : LwipRefuses c lwip ↔ b = false ∨ lwip.outputOk = false ∨
      (((c.socksRecvBufSent + n : Nat) : Int) < used ∧ c.socksRecvTcpPending + n = 0) := by
    unfold LwipRefuses
    rw [hloop, ← hu.used_eq]
    rfl
  rw [heq, habort, hu.used_eq, hrefuses]
  have hpending : c.acked + (c.socksRecvTcpPending + n) = _ := hq.pending
  split
  · rename_i hfail
    exact ⟨_, Or.inl ⟨rfl, hrelay, afterPcb_clientClosed _, hfail.imp_right Or.inl⟩⟩
  · rename_i hfail
    split
    · rename_i hmore
      split
      · rename_i hnone
        exact ⟨_, Or.inl ⟨rfl, hrelay, afterPcb_clientClosed _, Or.inr (Or.inr ⟨hmore, hnone⟩)⟩⟩
      · rename_i hpos
        refine ⟨_, Or.inr ⟨rfl, { hb with }, hc, hup, rfl, hr,
          ⟨hq.pending, Or.inr ⟨used, hu.used_eq, ?_, hq.used_le, rfl, ?_, hq.stream⟩⟩, ?_, ?_⟩⟩
        · exact Int.ofNat_lt.mp hmore
        · exact Nat.pos_of_ne_zero hpos
        · exact Nat.pos_of_ne_zero hpos
        · rintro (hn | hn | ⟨-, hn⟩)
          · exact hfail (Or.inl hn)
          · exact hfail (Or.inr hn)
          · exact hpos hn
    · rename_i hmore
      have hall : c.socksRecvBufSent + n = used := by omega
      have hstream := hq.stream
      change _ ++ slice c.socksRecvBuf (c.socksRecvBufSent + n) (used - (c.socksRecvBufSent + n)) = _ at hstream
      rw [hall, Nat.sub_self, slice_zero_len, List.append_nil] at hstream
      refine ⟨_, Or.inr ⟨rfl, { hb with
        receiving := fun hn => absurd (hr.symm.trans hn) Bool.noConfusion }, hc, hup, rfl, hr,
          ⟨hq.pending, Or.inl ⟨rfl, hstream⟩⟩, ?_, ?_⟩⟩
      · change 0 < c.socksRecvTcpPending + n
        omega
      · rintro (hn | hn | ⟨hn, -⟩)
        · exact hfail (Or.inl hn)
        · exact hfail (Or.inr hn)
        · exact hmore hn

/-! ## Reports of the SOCKS client -/

/-- Receiving from SOCKS begins where nothing is buffered. -/
theorem clientSocksRecvInitiate_eq (hf : c.freed = false) (hc : c.clientClosed = false) (hs : c.socksClosed = false)
    (hup : c.socksUp = true) (hused : c.socksRecvBufUsed = -1) (hk : c.socksClient = true) (hr : c.receiving = false) :
    c.clientSocksRecvInitiate = .ok { c with receiving := true } := by
  unfold clientSocksRecvInitiate receiverRecv
  rw [check_pos (by rw [hf]; rfl), check_pos (by rw [hc]; rfl), check_pos (by rw [hs]; rfl), check_pos hup,
    check_pos (by rw [hused]; rfl), check_pos hk, check_pos (by rw [hr]; rfl)]
  rfl

/-- The buffer goes to the sender when it is idle. -/
theorem senderSend_eq (hk : c.socksClient = true) (hn : c.sending = none) (hpos : 0 < c.bufUsed) :
    c.senderSend = .ok { c with sending := some c.bufUsed } := by
  unfold senderSend
  rw [check_pos hk, check_pos (by rw [hn]; rfl), check_pos (decide_eq_true hpos)]
  rfl

/-- Sending to SOCKS begins where something is buffered. -/
theorem clientSendToSocks_eq (hf : c.freed = false) (hs : c.socksClosed = false) (hup : c.socksUp = true) (hk : c.socksClient = true)
    (hn : c.sending = none) (hpos : 0 < c.bufUsed) : c.clientSendToSocks = .ok { c with sending := some c.bufUsed } := by
  unfold clientSendToSocks
  rw [check_pos (by rw [hf]; rfl), check_pos (by rw [hs]; rfl), check_pos hup, check_pos (decide_eq_true hpos),
    senderSend_eq hk hn hpos]
  rfl

/-- With data queued and not yet confirmed, the client waits for lwIP, and for SOCKS where it can. -/
theorem relay_of_queued (h : Base K c) (hc : c.clientClosed = false) (hup : c.socksUp = true) (hq : Queued c)
    (hpos : 0 < c.socksRecvTcpPending) (hr : c.socksClosed = false → c.socksRecvBufUsed = -1 → c.receiving = true) : Relay K c where
  base := h
  waitsForSocks hn := absurd (hc.symm.trans hn) Bool.noConfusion
  waitsForClient _ _ := ⟨hup, Or.inr hpos⟩
  queued _ _ := hq
  receives _ _ := hr

/-- Data from SOCKS is in `socks_recv_buf`, and none of it was written yet. -/
def withReceived (c : TcpClient) (data : Bytes) : TcpClient :=
  { c with
    receiving := false
    socksRecvBuf := memcpy c.socksRecvBuf 0 data
    fromSocks := c.fromSocks ++ data
    socksRecvBufUsed := data.length
    socksRecvBufSent := 0
    socksRecvWaiting := false }

/-- A receive from SOCKS ended: the data goes to lwIP, or nowhere when the client side is closed. The client side closes where lwIP
refuses. -/
theorem clientSocksRecvHandlerDone_spec (h : Relay K c) (hr : c.receiving = true) {data : Bytes} (hpos : 0 < data.length)
    (hlen : data.length ≤ clientSocksRecvBufSize) (lwip : LwipAnswers) :
    ∃ c', clientSocksRecvHandlerDone { c with
      receiving := false
      socksRecvBuf := memcpy c.socksRecvBuf 0 data
      fromSocks := c.fromSocks ++ data } data.length lwip = .ok c' ∧ Relay K c' ∧
      (c'.clientClosed = true ↔ c.clientClosed = true ∨ LwipRefuses (c.withReceived data) lwip) := by
  obtain ⟨hup, hs, hused⟩ := h.base.receiving hr
  have hf := h.base.not_freed (Or.inr hs)
  have hbuf : (memcpy c.socksRecvBuf 0 data).length = clientSocksRecvBufSize := by
    rw [length_memcpy (by rw [Nat.zero_add, h.base.recvBufLen]; exact hlen), h.base.recvBufLen]
  unfold clientSocksRecvHandlerDone
  rw [check_pos (by rw [hf]; rfl), check_pos (decide_eq_true hpos), check_pos (decide_eq_true hlen), check_pos (by rw [hs]; rfl),
    check_pos hup, check_pos (by rw [hused]; rfl)]
  simp only [bind, Except.bind, pure, Except.pure]
  split
  · rename_i hc
    refine ⟨_, rfl, ⟨{ h.base with
      recvBufLen := hbuf
      receiving := fun hn => Bool.noConfusion hn
      notUp := fun hn => absurd (hup.symm.trans hn) Bool.noConfusion
      confirmed := fun hd => absurd ((h.base.confirmed hd).2.1.symm.trans hs) Bool.noConfusion }, h.waitsForSocks, ?_, ?_, ?_⟩,
      ⟨fun _ => Or.inl hc, fun _ => hc⟩⟩
    · exact fun hn => absurd (hn.symm.trans hc) Bool.noConfusion
    · exact fun _ hn => absurd (hn.symm.trans hc) Bool.noConfusion
    · exact fun _ hn => absurd (hn.symm.trans hc) Bool.noConfusion
  · rename_i hc
    have hc : c.clientClosed = false := Bool.not_eq_true _ ▸ hc
    have hq := h.queued hup hc
    have hwritten : c.written = c.fromSocks := by
      rcases hq.stream with ⟨-, hstream⟩ | ⟨used, hn, -⟩
      · exact hstream
      · omega
    have hbase : Base K (c.withReceived data) := { h.base with
      recvBufLen := hbuf
      receiving := fun hn => Bool.noConfusion hn
      notUp := fun hn => absurd (hup.symm.trans hn) Bool.noConfusion
      confirmed := fun hd => absurd ((h.base.confirmed hd).1.symm.trans hc) Bool.noConfusion }
    obtain ⟨c', ⟨hrun, hrelay, hc', hrefuses⟩ | ⟨hrun, hb, hc', hup', hs', hr', hq', hpos', hrefuses⟩⟩ :=
      clientSocksRecvSendOut_spec data.length hbase hc hup ⟨rfl, hlen, Nat.zero_le _, hq.pending, by
        change c.written ++ slice (memcpy c.socksRecvBuf 0 data) 0 (data.length - 0) = c.fromSocks ++ data
        rw [Nat.sub_zero, slice_memcpy_self (Nat.zero_le _), hwritten]⟩ hpos rfl rfl lwip
    · unfold withReceived at hrun
      rw [hrun]
      exact ⟨c', rfl, hrelay, ⟨fun _ => Or.inr hrefuses, fun _ => hc'⟩⟩
    · unfold withReceived at hrun
      rw [hrun]
      dsimp only
      rw [if_neg Bool.noConfusion]
      have hs' : c'.socksClosed = false := hs'.trans hs
      have hopen : c'.clientClosed = true ↔ c.clientClosed = true ∨ LwipRefuses (c.withReceived data) lwip := by
        rw [hc', hc]
        exact ⟨fun hn => Bool.noConfusion hn, fun hn => hn.elim Bool.noConfusion (fun hn => absurd hn hrefuses)⟩
      split
      · rename_i hused'
        refine ⟨_, clientSocksRecvInitiate_eq (hb.not_freed (Or.inl hc')) hc' hs' hup' hused' (hb.socks_open hs') hr', ?_, hopen⟩
        exact relay_of_queued { hb with receiving := fun _ => ⟨hup', hs', hused'⟩ } hc' hup'
          ⟨hq'.pending, hq'.stream⟩ hpos' (fun _ _ => rfl)
      · rename_i hused'
        exact ⟨c', rfl, relay_of_queued hb hc' hup' hq' hpos' (fun _ hn => absurd hn hused'), hopen⟩

/-- `len` bytes of `buf` went to SOCKS; the rest is sent next. -/
def drain (c : TcpClient) (len : Nat) : TcpClient :=
  { c with
    buf := memmove c.buf 0 len (c.bufUsed - len)
    bufUsed := c.bufUsed - len
    toSocks := c.toSocks ++ slice c.buf 0 len
    recved := if c.clientClosed = false then c.recved + len else c.recved
    sending := if 0 < c.bufUsed - len then some (c.bufUsed - len) else none }

/-- Taking sent bytes out of the buffer keeps the basis. -/
theorem Base.drain (h : Base K c) (hup : c.socksUp = true) (hs : c.socksClosed = false) {len : Nat} (hle : len ≤ c.bufUsed) :
    Base K (c.drain len) := by
  have hfits : len + (c.bufUsed - len) ≤ c.buf.length := by
    have := h.bufLen
    have := h.used_le
    omega
  exact { h with
    bufLen := (length_memmove (by omega)).trans h.bufLen
    used_le := (Nat.sub_le _ _).trans h.used_le
    stream := by
      change (c.toSocks ++ slice c.buf 0 len) ++ slice (memmove c.buf 0 len (c.bufUsed - len)) 0 (c.bufUsed - len) = c.delivered
      have hsplit := slice_append c.buf 0 len (c.bufUsed - len)
      rw [Nat.zero_add, Nat.add_sub_of_le hle] at hsplit
      rw [slice_memmove_front hfits, List.append_assoc, hsplit, h.stream]
    window := by
      intro (hc : c.clientClosed = false)
      change (if c.clientClosed = false then c.recved + len else c.recved) = (c.toSocks ++ slice c.buf 0 len).length
      rw [if_pos hc, List.length_append, length_slice_of_le (by omega), h.window hc]
    sending := by
      intro m hm
      change (if 0 < c.bufUsed - len then some (c.bufUsed - len) else none) = some m at hm
      rw [Option.ite_none_right_eq_some] at hm
      obtain ⟨hpos, hm⟩ := hm
      obtain rfl := Option.some.inj hm
      exact ⟨hpos, le_refl _, hup, hs⟩
    sends := by
      intro _ _ (hpos : 0 < c.bufUsed - len)
      change (if 0 < c.bufUsed - len then some (c.bufUsed - len) else none).isSome = true
      rw [if_pos hpos]
      rfl
    drained := fun hd => ⟨(h.drained hd).1, Nat.sub_eq_zero_of_le (by rw [(h.drained hd).2]; exact Nat.zero_le _)⟩ }

/-- A send to SOCKS ended: the rest is sent, or the SOCKS client is freed when the client side is closed. -/
theorem clientSocksSendHandlerDone_eq (h : Base K c) (hup : c.socksUp = true) (hs : c.socksClosed = false) {len : Nat}
    (hpos : 0 < len) (hle : len ≤ c.bufUsed) :
    clientSocksSendHandlerDone { c with
      sending := none
      toSocks := c.toSocks ++ slice c.buf 0 len } len =
      if 0 < c.bufUsed - len ∨ c.clientClosed = false then .ok (c.drain len)
      else clientFreeSocks closeDepth .drained (c.drain len) := by
  unfold clientSocksSendHandlerDone
  rw [check_pos (by rw [h.not_freed (Or.inr hs)]; rfl), check_pos (by rw [hs]; rfl), check_pos hup,
    check_pos (decide_eq_true (hpos.trans_le hle)), check_pos (decide_eq_true hpos), check_pos (decide_eq_true hle)]
  simp only [bind, Except.bind, pure, Except.pure]
  unfold TcpClient.drain
  cases hc : c.clientClosed with
  | false =>
    rw [if_pos rfl, check_pos (h.pcb_open hc), if_pos (Or.inr rfl)]
    dsimp only
    split
    · rename_i hmore
      rw [senderSend_eq (by exact h.socks_open hs) (by rfl) (by exact hmore)]
      rfl
    · rfl
  | true =>
    rw [if_neg Bool.noConfusion]
    split
    · rename_i hmore
      rw [senderSend_eq (by exact h.socks_open hs) (by rfl) (by exact hmore), if_pos (Or.inl hmore)]
      rfl
    · rename_i hmore
      rw [if_pos rfl, if_neg (show ¬(0 < c.bufUsed - len ∨ true = false) from fun hn => hn.elim hmore Bool.noConfusion)]
      rfl

/-- SOCKS has taken bytes. -/
theorem clientSocksSendHandlerDone_keeps (h : Relay K c) {len : Nat} (hpos : 0 < len) (hle : len ≤ c.sending.getD 0) :
    Keeps K (clientSocksSendHandlerDone { c with
      sending := none
      toSocks := c.toSocks ++ slice c.buf 0 len } len) := by
  cases hsend : c.sending with
  | none =>
    rw [hsend, Option.getD_none] at hle
    omega
  | some m =>
    rw [hsend, Option.getD_some] at hle
    obtain ⟨-, hm, hup, hs⟩ := h.base.sending m hsend
    have hb := h.base.drain hup hs (hle.trans hm)
    have hq : c.clientClosed = false → Queued (c.drain len) := fun hc => ⟨(h.queued hup hc).pending, (h.queued hup hc).stream⟩
    rw [clientSocksSendHandlerDone_eq h.base hup hs hpos (hle.trans hm)]
    split
    · rename_i hmore
      refine ⟨_, rfl, hb, ?_, ?_, fun _ => hq, h.receives⟩
      · exact fun hc _ => hmore.elim id (fun hn => absurd (hn.symm.trans hc) Bool.noConfusion)
      · exact fun _ hn => absurd (hs.symm.trans hn) Bool.noConfusion
    · rename_i hmore
      have hc : c.clientClosed = true := Bool.not_eq_false _ ▸ fun hn => hmore (Or.inr hn)
      refine ⟨_, clientFreeSocks_eq 0 .drained (hb.not_freed (Or.inr hs)) hs (hb.socks_open hs) hb.pcb_open, ?_⟩
      exact relay_afterSocks hb hs (fun _ => hq) (Or.inl rfl) (fun _ => ⟨hc, Nat.eq_zero_of_not_pos fun hn => hmore (Or.inl hn)⟩)

/-- SOCKS is up, with nothing received yet. -/
def withSocksUp (c : TcpClient) : TcpClient :=
  { c with
    socksRecvBufUsed := -1
    socksRecvTcpPending := 0
    sentFunc := if c.clientClosed = false then true else c.sentFunc
    socksUp := true }

/-- SOCKS is up: what is in `buf` is sent, and receiving starts where the client side is open. -/
def afterUp (c : TcpClient) : TcpClient :=
  { c.withSocksUp with
    sending := if 0 < c.bufUsed then some c.bufUsed else none
    receiving := !c.clientClosed }

/-- SOCKS comes up. -/
theorem clientSocksUp_eq (h : Base K c) (hs : c.socksClosed = false) (hup : c.socksUp = false) : c.clientSocksUp = .ok c.afterUp := by
  have hf := h.not_freed (Or.inr hs)
  have hk := h.socks_open hs
  have hsend : c.sending = none := Option.eq_none_iff_forall_ne_some.mpr fun m hm =>
    absurd ((h.sending m hm).2.2.1.symm.trans hup) Bool.noConfusion
  have hrecv : c.receiving = false := Bool.not_eq_true _ ▸ fun hn => absurd ((h.receiving hn).1.symm.trans hup) Bool.noConfusion
  have heq : c.clientSocksUp = Except.bind (if 0 < c.bufUsed then c.withSocksUp.clientSendToSocks else .ok c.withSocksUp)
      fun c => if c.clientClosed = false then clientSocksRecvInitiate c else .ok c := by
    unfold clientSocksUp withSocksUp
    rw [check_pos (by rw [hf]; rfl), check_pos (by rw [hs]; rfl), check_pos (by rw [hup]; rfl)]
    simp only [bind, Except.bind, pure, Except.pure]
    cases hc : c.clientClosed with
    | false =>
      rw [if_pos rfl, check_pos (h.pcb_open hc)]
      dsimp only
      split <;> rfl
    | true =>
      rw [if_neg Bool.noConfusion]
      split <;> rfl
  have hsent : (if 0 < c.bufUsed then c.withSocksUp.clientSendToSocks else .ok c.withSocksUp) = .ok { c.withSocksUp with
      sending := if 0 < c.bufUsed then some c.bufUsed else none } := by
    split
    · rename_i hpos
      exact clientSendToSocks_eq hf hs rfl hk hsend hpos
    · rw [← hsend]
      rfl
  rw [heq, hsent, Except.bind]
  unfold afterUp
  cases hc : c.clientClosed with
  | false =>
    refine (if_pos hc).trans ?_
    exact clientSocksRecvInitiate_eq (c := { c.withSocksUp with sending := _ }) hf hc hs rfl rfl hk hrecv
  | true =>
    refine (if_neg fun hn => absurd (hn.symm.trans hc) Bool.noConfusion).trans ?_
    rw [Bool.not_true, ← hrecv]
    rfl

/-- That keeps the basis. -/
theorem Base.afterUp (h : Base K c) (hs : c.socksClosed = false) : Base K c.afterUp := { h with
  callbacks := by
    intro hc
    obtain ⟨he, hr, hsent⟩ := h.callbacks hc
    refine ⟨he, hr, ?_⟩
    change (if c.clientClosed = false then true else c.sentFunc) = false
    rw [if_neg (fun hn => absurd (hn.symm.trans hc) Bool.noConfusion), hsent]
  sentFunc := fun _ => rfl
  sending := by
    intro m hm
    change (if 0 < c.bufUsed then some c.bufUsed else none) = some m at hm
    rw [Option.ite_none_right_eq_some] at hm
    obtain ⟨hpos, hm⟩ := hm
    obtain rfl := Option.some.inj hm
    exact ⟨hpos, le_refl _, rfl, hs⟩
  sends := by
    intro _ _ (hpos : 0 < c.bufUsed)
    change (if 0 < c.bufUsed then some c.bufUsed else none).isSome = true
    rw [if_pos hpos]
    rfl
  receiving := fun _ => ⟨rfl, hs, rfl⟩
  notUp := fun hn => Bool.noConfusion hn }

/-- That keeps the relay. -/
theorem clientSocksUp_keeps (h : Relay K c) (hs : c.socksClosed = false) (hup : c.socksUp = false) : Keeps K c.clientSocksUp := by
  obtain ⟨hw, hfrom, ha⟩ := h.base.notUp hup
  refine ⟨_, clientSocksUp_eq h.base hs hup, h.base.afterUp hs, h.waitsForSocks, ?_, ?_, ?_⟩
  · exact fun _ hn => absurd (hs.symm.trans hn) Bool.noConfusion
  · refine fun _ _ => ⟨?_, Or.inl ⟨rfl, hw.trans hfrom.symm⟩⟩
    change c.acked + 0 = c.written.length
    rw [ha, hw]
    rfl
  · intro _ (hc : c.clientClosed = false) _ _
    change (!c.clientClosed) = true
    rw [hc]
    rfl

/-- SOCKS goes down. -/
theorem clientSocksDown_keeps (h : Relay K c) (hK : K .failed) (hs : c.socksClosed = false) {closed : Bool}
    (hup : closed = true → c.socksUp = true) :
    Keeps K (c.clientSocksDown closed) := by
  have hf := h.base.not_freed (Or.inr hs)
  have hcheck : (!closed || c.socksUp) = true := by
    cases closed with
    | false => rfl
    | true => exact hup rfl
  refine ⟨c.afterSocks .failed, ?_, relay_afterSocks h.base hs h.queued (Or.inr hK) (fun hn => SocksEnd.noConfusion hn)⟩
  unfold clientSocksDown
  rw [check_pos (by rw [hf]; rfl), check_pos (by rw [hs]; rfl), check_pos hcheck]
  exact clientFreeSocks_eq 0 .failed hf hs (h.base.socks_open hs) h.base.pcb_open

/-- One report of the SOCKS client. -/
theorem socksStep_keeps (h : Relay K c) {e : SocksReport} (hK : e.Down → K .failed) {r : Except TcpFault TcpClient}
    (hr : c.socksStep e = some r) : Keeps K r := by
  cases e with
  | up =>
    rw [socksStep, Option.ite_none_right_eq_some] at hr
    obtain ⟨⟨hk, hup⟩, hr⟩ := hr
    obtain rfl := Option.some.inj hr
    exact clientSocksUp_keeps h (h.base.open_of_socks hk) hup
  | error =>
    rw [socksStep, Option.ite_none_right_eq_some] at hr
    obtain ⟨hk, hr⟩ := hr
    obtain rfl := Option.some.inj hr
    exact clientSocksDown_keeps h (hK trivial) (h.base.open_of_socks hk) (fun hn => Bool.noConfusion hn)
  | closed =>
    rw [socksStep, Option.ite_none_right_eq_some] at hr
    obtain ⟨⟨hk, hup⟩, hr⟩ := hr
    obtain rfl := Option.some.inj hr
    exact clientSocksDown_keeps h (hK trivial) (h.base.open_of_socks hk) (fun _ => hup)
  | sendDone len =>
    rw [socksStep, Option.ite_none_right_eq_some] at hr
    obtain ⟨⟨hpos, hle⟩, hr⟩ := hr
    obtain rfl := Option.some.inj hr
    exact clientSocksSendHandlerDone_keeps h hpos hle
  | recvDone data lwip =>
    rw [socksStep, Option.ite_none_right_eq_some] at hr
    obtain ⟨⟨hrecv, hpos, hle⟩, hr⟩ := hr
    obtain rfl := Option.some.inj hr
    obtain ⟨c', hrun, hrelay, -⟩ := clientSocksRecvHandlerDone_spec h hrecv hpos hle lwip
    exact ⟨c', hrun, hrelay⟩

/-- The reports of a `SYNC_COMMIT`. -/
theorem syncCommit_keeps {sync : List SocksReport} (hK : ∀ e ∈ sync, e.Down → K .failed) (h : Relay K c) :
    Keeps K (syncCommit sync c) := by
  induction sync generalizing c with
  | nil => exact ⟨c, rfl, h⟩
  | cons e sync ih =>
    unfold syncCommit
    cases hstep : c.socksStep e with
    | none => exact ⟨c, rfl, h⟩
    | some r =>
      obtain ⟨c', rfl, h'⟩ := socksStep_keeps h (hK e (List.mem_cons_self ..)) hstep
      exact ih (fun e' he' => hK e' (List.mem_cons_of_mem _ he')) h'

/-! ## Callbacks of lwIP -/

/-- A callback of lwIP ends without a fault, leaves a client between callbacks, and tells lwIP that the pcb is gone exactly when it
is. -/
def Returns (K : SocksEnd → Prop) (r : Except TcpFault (TcpClient × ErrT)) : Prop :=
  ∃ c', r = .ok (c', if c'.clientClosed = true then .abrt else .ok) ∧ Relay K c'

/-- What a callback returns does not matter for the relay. -/
theorem Returns.keeps {r : Except TcpFault (TcpClient × ErrT)} (h : Returns K r) : Keeps K (r.map Prod.fst) := by
  obtain ⟨c', rfl, hr⟩ := h
  exact ⟨c', rfl, hr⟩

/-- A callback that does nothing else returns `ERR_OK`. -/
theorem returns_ok (h : Relay K c) (hc : c.clientClosed = false) : Returns K (.ok (c, .ok)) :=
  ⟨c, by rw [hc, if_neg Bool.noConfusion], h⟩

/-- A callback in which SOCKS reports at once. -/
theorem syncWatched_returns {sync : List SocksReport} (hK : ∀ e ∈ sync, e.Down → K .failed) (h : Relay K c)
    (hc : c.clientClosed = false) : Returns K (c.syncWatched sync) := by
  have hdead : { c with deadClient := false } = c := by rw [← (h.base.dead.trans hc)]
  obtain ⟨c', hrun, h'⟩ := syncCommit_keeps hK h
  refine ⟨c', ?_, h'⟩
  unfold syncWatched
  rw [hdead, hrun]
  simp only [bind, Except.bind, pure, Except.pure]
  rw [h'.base.dead]
  cases hc' : c'.clientClosed with
  | true => rfl
  | false =>
    rw [if_neg Bool.noConfusion, check_pos (by rw [h'.base.not_freed (Or.inl hc')]; rfl)]
    rfl

/-- `client_free_client` from a callback. -/
theorem clientFreeClient_keeps (h : Base K c) (hc : c.clientClosed = false)
    (he : c.socksClosed = true → c.written = c.fromSocks ∧ c.acked = c.written.length) :
    ∃ c', clientFreeClient closeDepth c = .ok c' ∧ Relay K c' ∧ c'.clientClosed = true := by
  refine ⟨_, clientFreeClient_eq 1 (h.not_freed (Or.inl hc)) hc (h.pcb_open hc) h.socks_open, ?_, afterPcb_clientClosed _⟩
  apply relay_afterPcb h hc
  intro heq
  have hs : c.socksClosed = true := PcbEnd.closed.inj heq
  exact ⟨hs, he hs⟩

/-- What lwIP delivers within the window fits into `buf`. -/
theorem Base.fits (h : Base K c) (hc : c.clientClosed = false) {n : Nat} (hwin : c.delivered.length + n ≤ tcpWnd + c.recved) :
    c.bufUsed + n ≤ tcpWnd := by
  have hlen : c.delivered.length = c.toSocks.length + c.bufUsed := by
    rw [← h.stream, List.length_append, length_slice_of_le]
    rw [h.bufLen, Nat.zero_add]
    exact h.used_le
  have := h.window hc
  omega

/-- The data of a pbuf is put behind what is in `buf`, and sent where SOCKS is up and idle. -/
def take (c : TcpClient) (data : Bytes) : TcpClient :=
  { c with
    buf := memcpy c.buf c.bufUsed data
    bufUsed := c.bufUsed + data.length
    delivered := c.delivered ++ data
    sending := if c.bufUsed = 0 ∧ c.socksUp = true then some (c.bufUsed + data.length) else c.sending }

/-- Taking bytes of the application keeps the basis. -/
theorem Base.take (h : Base K c) (hc : c.clientClosed = false) (hs : c.socksClosed = false) {data : Bytes} (hpos : 0 < data.length)
    (hfits : c.bufUsed + data.length ≤ tcpWnd) : Base K (c.take data) := { h with
  bufLen := (length_memcpy (by rw [h.bufLen]; exact hfits)).trans h.bufLen
  used_le := hfits
  stream := by
    change c.toSocks ++ slice (memcpy c.buf c.bufUsed data) 0 (c.bufUsed + data.length) = c.delivered ++ data
    rw [slice_memcpy_extend (Nat.zero_add _).symm (by rw [h.bufLen]; exact h.used_le), ← List.append_assoc, h.stream]
  sending := by
    intro m hm
    change (if c.bufUsed = 0 ∧ c.socksUp = true then some (c.bufUsed + data.length) else c.sending) = some m at hm
    split at hm
    · rename_i hidle
      obtain rfl := Option.some.inj hm
      exact ⟨Nat.add_pos_right _ hpos, le_refl _, hidle.2, hs⟩
    · obtain ⟨hm0, hle, hup, -⟩ := h.sending m hm
      exact ⟨hm0, hle.trans (Nat.le_add_right _ _), hup, hs⟩
  sends := by
    intro hup _ _
    change (if c.bufUsed = 0 ∧ c.socksUp = true then some (c.bufUsed + data.length) else c.sending).isSome = true
    split
    · rfl
    · rename_i hbusy
      exact h.sends hup hs (Nat.pos_of_ne_zero fun hn => hbusy ⟨hn, hup⟩)
  drained := fun hd => absurd ((h.drained hd).1.symm.trans hc) Bool.noConfusion }

/-- Taking bytes of the application keeps the relay. -/
theorem Relay.take (h : Relay K c) (hc : c.clientClosed = false) (hs : c.socksClosed = false) {data : Bytes}
    (hpos : 0 < data.length) (hfits : c.bufUsed + data.length ≤ tcpWnd) : Relay K (c.take data) := by
  refine ⟨h.base.take hc hs hpos hfits, ?_, ?_, ?_, h.receives⟩
  · exact fun hn => absurd (hc.symm.trans hn) Bool.noConfusion
  · exact fun _ hn => absurd (hs.symm.trans hn) Bool.noConfusion
  · exact fun hup _ => ⟨(h.queued hup hc).pending, (h.queued hup hc).stream⟩

/-- The callback for received data. -/
theorem clientRecvFunc_returns (h : Relay K c) (hp : c.pcb = true) (hr : c.recvFunc = true) {p : Option Bytes}
    (hwin : ∀ data ∈ p, 0 < data.length ∧ c.delivered.length + data.length ≤ tcpWnd + c.recved) {sync : List SocksReport}
    (hK : ∀ e ∈ sync, e.Down → K .failed) : Returns K (c.clientRecvFunc p sync) := by
  have hc := h.base.open_of_pcb hp
  have hs := h.base.recvFunc hr
  have hf := h.base.not_freed (Or.inl hc)
  unfold clientRecvFunc
  rw [check_pos (by rw [hf]; rfl), check_pos (by rw [hc]; rfl)]
  simp only [bind, Except.bind, pure, Except.pure]
  cases p with
  | none =>
    obtain ⟨c', hrun, hr', hc'⟩ := clientFreeClient_keeps h.base hc (fun hn => absurd (hs.symm.trans hn) Bool.noConfusion)
    exact ⟨c', by dsimp only; rw [hrun, if_pos hc'], hr'⟩
  | some data =>
    obtain ⟨hpos, hwin⟩ := hwin data rfl
    have hfits := h.base.fits hc hwin
    have hrelay := h.take hc hs hpos hfits
    dsimp only
    rw [check_pos (decide_eq_true hpos)]
    dsimp only
    rw [if_neg (by omega)]
    split
    · rename_i hidle
      have hzero : c.bufUsed = 0 := by omega
      have hsend : c.sending = none := Option.eq_none_iff_forall_ne_some.mpr fun m hm => by
        have := h.base.sending m hm
        omega
      rw [check_pos (by rw [hs]; rfl), clientSendToSocks_eq (by exact hf) (by exact hs) (by exact hidle.2)
        (by exact h.base.socks_open hs) (by exact hsend) (by change 0 < c.bufUsed + data.length; omega)]
      have htake := syncWatched_returns hK hrelay hc
      unfold TcpClient.take at htake
      rw [if_pos ⟨hzero, hidle.2⟩] at htake
      exact htake
    · rename_i hbusy
      have htake := returns_ok hrelay hc
      unfold TcpClient.take at htake
      rw [if_neg (fun hn => hbusy ⟨by omega, hn.2⟩)] at htake
      exact htake

/-- The callback for acknowledged data. -/
theorem clientSentFunc_returns (h : Relay K c) (hp : c.pcb = true) (hsent : c.sentFunc = true) {len : Nat} (hpos : 0 < len)
    (hack : c.acked + len ≤ c.written.length) (lwip : LwipAnswers) {sync : List SocksReport}
    (hK : ∀ e ∈ sync, e.Down → K .failed) : Returns K (c.clientSentFunc len lwip sync) := by
  have hc := h.base.open_of_pcb hp
  have hup := h.base.sentFunc hsent
  have hf := h.base.not_freed (Or.inl hc)
  have hq := h.queued hup hc
  have hpending := hq.pending
  have hbase : Base K { c with
      socksRecvTcpPending := c.socksRecvTcpPending - len
      acked := c.acked + len } := { h.base with
    notUp := fun hn => absurd (hup.symm.trans hn) Bool.noConfusion
    confirmed := fun hd => absurd ((h.base.confirmed hd).1.symm.trans hc) Bool.noConfusion }
  have hpending' : c.acked + len + (c.socksRecvTcpPending - len) = c.written.length := by omega
  unfold clientSentFunc
  rw [check_pos (by rw [hf]; rfl), check_pos (by rw [hc]; rfl), check_pos hup, check_pos (decide_eq_true hpos),
    check_pos (decide_eq_true (by omega))]
  simp only [bind, Except.bind, pure, Except.pure]
  rcases hq.stream with ⟨hnone, hstream⟩ | ⟨used, hused, hlt, hle, hwaiting, -, hstream⟩
  · rw [if_neg (by omega)]
    split
    · rename_i hdone
      obtain ⟨c', hrun, hr', hc'⟩ := clientFreeClient_keeps hbase hc (fun _ => ⟨hstream, by
        change c.acked + len = c.written.length
        omega⟩)
      exact ⟨c', by rw [hrun, if_pos hc'], hr'⟩
    · rename_i hdone
      refine returns_ok ⟨hbase, h.waitsForSocks, ?_, ?_, h.receives⟩ hc
      · exact fun _ hs => ⟨hup, Or.inr (Nat.pos_of_ne_zero fun hn => hdone ⟨hs, hn⟩)⟩
      · exact fun _ _ => ⟨hpending', Or.inl ⟨hnone, hstream⟩⟩
  · have hr : c.receiving = false := Bool.not_eq_true _ ▸ fun hn => by
      have := (h.base.receiving hn).2.2
      omega
    rw [if_pos (by omega), check_pos hwaiting, check_pos (decide_eq_true (by omega))]
    dsimp only
    obtain ⟨c', ⟨hrun, hrelay, hc', -⟩ | ⟨hrun, hb, hc', hup', hs', hr', hq', hpos', -⟩⟩ :=
      clientSocksRecvSendOut_spec (c := { c with
        socksRecvTcpPending := c.socksRecvTcpPending - len
        acked := c.acked + len
        socksRecvWaiting := false }) _ { hbase with } hc hup ⟨hused, hle, hlt.le, hpending', hstream⟩ hlt rfl hr lwip
    · exact ⟨c', by rw [hrun, if_pos hc']; rfl, hrelay⟩
    · rw [hrun]
      dsimp only
      rw [if_neg Bool.noConfusion, check_pos (decide_eq_true hpos')]
      dsimp only
      split
      · rename_i hagain
        rw [clientSocksRecvInitiate_eq (hb.not_freed (Or.inl hc')) hc' hagain.2 hup' hagain.1 (hb.socks_open hagain.2) hr']
        refine syncWatched_returns hK ?_ hc'
        exact relay_of_queued { hb with receiving := fun _ => ⟨hup', hagain.2, hagain.1⟩ } hc' hup' ⟨hq'.pending, hq'.stream⟩ hpos'
          (fun _ _ => rfl)
      · rename_i hagain
        exact returns_ok (relay_of_queued hb hc' hup' hq' hpos' (fun hs hn => absurd ⟨hn, hs⟩ hagain)) hc'

/-- The callback for a pcb that is lost. -/
theorem clientErrFunc_keeps (h : Relay K c) (hc : c.clientClosed = false) : Keeps K (clientErrFunc (c.withoutPcb .lost)) := by
  have hf := h.base.not_freed (Or.inl hc)
  refine ⟨_, ?_, relay_afterPcb (e := .lost) h.base hc (fun hn => PcbEnd.noConfusion hn)⟩
  unfold clientErrFunc
  rw [check_pos (by exact (Bool.not_eq_true' _).mpr hf), check_pos (by exact (Bool.not_eq_true' _).mpr hc)]
  exact clientHandleFreedClient_eq (c := c.withoutPcb .lost) 2 hf hc h.base.socks_open

/-- Every event that can come to a client between callbacks. -/
theorem step_keeps (h : Relay K c) {e : TcpEvent} (hK : ∀ r ∈ e.reports, r.Down → K .failed) {r : Except TcpFault TcpClient}
    (hr : c.step e = some r) : Keeps K r := by
  cases e with
  | recv p sync =>
    rw [step, Option.ite_none_right_eq_some] at hr
    obtain ⟨⟨hp, hf, hwin⟩, hr⟩ := hr
    obtain rfl := Option.some.inj hr
    exact (clientRecvFunc_returns h hp hf hwin hK).keeps
  | sent len lwip sync =>
    rw [step, Option.ite_none_right_eq_some] at hr
    obtain ⟨⟨hp, hf, hpos, hack⟩, hr⟩ := hr
    obtain rfl := Option.some.inj hr
    exact (clientSentFunc_returns h hp hf hpos hack lwip hK).keeps
  | err =>
    rw [step, Option.ite_none_right_eq_some] at hr
    obtain ⟨⟨hp, -⟩, hr⟩ := hr
    obtain rfl := Option.some.inj hr
    exact clientErrFunc_keeps h (h.base.open_of_pcb hp)
  | socks e => exact socksStep_keeps h (hK e (List.mem_singleton_self e)) hr

/-- The client of `listener_accept_func`. -/
theorem relay_accepted {buf socksRecvBuf : Bytes} (hb : buf.length = tcpWnd) (hr : socksRecvBuf.length = clientSocksRecvBufSize)
    (used : Int) (sent : Nat) (waiting : Bool) (pending : Nat) : Relay K (accepted buf socksRecvBuf used sent waiting pending) where
  base := {
    freed := rfl
    pcb := rfl
    socks := rfl
    dead := rfl
    callbacks := fun hn => Bool.noConfusion hn
    recvFunc := fun _ => rfl
    sentFunc := fun hn => Bool.noConfusion hn
    bufLen := hb
    used_le := Nat.zero_le _
    stream := slice_zero_len buf 0
    window := fun _ => rfl
    sending := fun _ hn => nomatch hn
    sends := fun hn => Bool.noConfusion hn
    recvBufLen := hr
    receiving := fun hn => Bool.noConfusion hn
    notUp := fun _ => ⟨rfl, rfl, rfl⟩
    pcbEnded := rfl
    socksEnded := rfl
    ends := fun _ hn => nomatch hn
    drained := fun hn => nomatch hn
    confirmed := fun hn => nomatch hn }
  waitsForSocks hn := Bool.noConfusion hn
  waitsForClient _ hn := Bool.noConfusion hn
  queued hn := Bool.noConfusion hn
  receives hn := Bool.noConfusion hn

/-- `client_murder` closes the sides that are open, and frees the client. -/
theorem clientMurder_keeps (h : Relay K c) (hK : K .murdered) (hf : c.freed = false) :
    ∃ c', c.clientMurder = .ok c' ∧ Relay K c' ∧ c'.freed = true := by
  have hb := h.base
  unfold clientMurder
  rw [check_pos (by rw [hf]; rfl)]
  simp only [bind, Except.bind, pure, Except.pure]
  by_cases hc : c.clientClosed = false
  · have hgone := hb.withoutPcb hc (e := .murdered) (fun hn => PcbEnd.noConfusion hn)
    rw [if_pos hc, removeCallbacks_eq (hb.pcb_open hc)]
    dsimp only
    split
    · rename_i hs
      rw [socksClientFree_eq (by exact hb.socks_open hs)]
      refine ⟨_, clientDealloc_eq hf rfl rfl, ?_, rfl⟩
      exact (hgone.withoutSocks .murdered hs (Or.inr hK) (fun hn => SocksEnd.noConfusion hn)).relay_of_closed rfl rfl
    · rename_i hs
      have hs : c.socksClosed = true := Bool.not_eq_false _ ▸ hs
      refine ⟨_, clientDealloc_eq hf rfl hs, ?_, rfl⟩
      rw [hs] at hgone
      exact hgone.relay_of_closed rfl hs
  · have hc' : c.clientClosed = true := Bool.not_eq_false _ ▸ hc
    have hs : c.socksClosed = false := by
      have := hb.freed
      rw [hf, hc', Bool.true_and] at this
      exact this.symm
    have hgone := hb.withoutSocks .murdered hs (Or.inr hK) (fun hn => SocksEnd.noConfusion hn)
    rw [if_neg hc, if_pos hs, socksClientFree_eq (hb.socks_open hs)]
    refine ⟨_, clientDealloc_eq hf hc' rfl, ?_, rfl⟩
    exact Base.relay_of_closed { hgone with
      freed := by change true = (c.clientClosed && true); rw [hc']; rfl
      callbacks := hb.callbacks
      recvFunc := fun hn => absurd ((hb.callbacks hc').2.1.symm.trans hn) Bool.noConfusion } hc' rfl

end TcpClient

end PsiphonAndroid
