import PsiphonAndroid.Socks.Handshake

/-!
# The SOCKS5 client performs the handshake

The invariant of `BSocksClient`: in each state it is either sending one message, of which the connection has taken a part, or
receiving one message of the server, of which a part is in the buffer; what it sent and received before that is what
`handshake` says. The verdict follows from the bytes consumed alone, so no chunking of either stream can change it.
-/

namespace PsiphonAndroid

open Lib

namespace SocksAux

/-- A write at the end of what has been written so far. -/
theorem slice_write {buf data : Bytes} {off n : Nat} (hn : n = off + data.length) (h : off ≤ buf.length) :
    slice (memcpy buf off data) 0 n = slice buf 0 off ++ data := by
  subst hn
  exact slice_memcpy_extend (Nat.zero_add _).symm h

theorem writeMethods_spec (auths : List AuthInfo) {buf : Bytes} {off : Nat} (h : off + auths.length ≤ buf.length) :
    slice (BSocksClient.writeMethods buf off auths) 0 (off + auths.length) = slice buf 0 off ++ auths.map AuthInfo.authType := by
  induction auths generalizing buf off with
  | nil => simp [BSocksClient.writeMethods]
  | cons ai rest ih =>
    rw [List.length_cons] at h
    have hl : (memcpy buf off [ai.authType]).length = buf.length := length_memcpy (by rw [List.length_singleton]; omega)
    rw [BSocksClient.writeMethods, List.length_cons, ← Nat.add_assoc, Nat.add_right_comm, ih (by omega),
      slice_write (by rw [List.length_singleton]) (by omega), List.map_cons, List.append_assoc, List.singleton_append]

/-- The bytes of the hello in the buffer. -/
theorem hello_written {auths : List AuthInfo} {buf : Bytes} (h : buf.length = 2 + auths.length) :
    slice (BSocksClient.writeMethods (memcpy buf 0 [socksVersion, UInt8.ofNat auths.length]) 2 auths) 0 (2 + auths.length) =
      helloMessage auths := by
  have hl : (memcpy buf 0 [socksVersion, UInt8.ofNat auths.length]).length = buf.length :=
    length_memcpy (by simp only [List.length_cons, List.length_nil]; omega)
  rw [writeMethods_spec auths (by omega), slice_write (by simp) (Nat.zero_le _), slice_zero_len, List.nil_append, helloMessage]

/-- The bytes of the password packet in the buffer. -/
theorem password_written {buf username password : Bytes} (h : buf.length = 1 + 1 + username.length + 1 + password.length) :
    slice (BSocksClient.writePassword buf username password) 0 (1 + 1 + username.length + 1 + password.length) =
      passwordMessage username password := by
  have h1 : (memcpy buf 0 [1]).length = buf.length := length_memcpy (by rw [List.length_singleton]; omega)
  have h2 : (memcpy (memcpy buf 0 [1]) 1 [UInt8.ofNat username.length]).length = buf.length :=
    (length_memcpy (by rw [List.length_singleton]; omega)).trans h1
  have h3 : (memcpy (memcpy (memcpy buf 0 [1]) 1 [UInt8.ofNat username.length]) 2 username).length = buf.length :=
    (length_memcpy (by omega)).trans h2
  have h4 : (memcpy (memcpy (memcpy (memcpy buf 0 [1]) 1 [UInt8.ofNat username.length]) 2 username) (2 + username.length)
      [UInt8.ofNat password.length]).length = buf.length := (length_memcpy (by rw [List.length_singleton]; omega)).trans h3
  simp only [BSocksClient.writePassword]
  rw [slice_write (by omega) (by omega), slice_write (by simp) (by omega), slice_write (by simp) (by omega),
    slice_write (by simp) (by omega),
    slice_write (by simp) (by omega), slice_zero_len, List.nil_append, passwordMessage]
  simp only [List.append_assoc, List.cons_append, List.nil_append]

/-- The bytes of the request in the buffer. -/
theorem request_written {dest : BAddr} (hd : dest.IsIp) {buf : Bytes}
    (h : buf.length = 4 + (BSocksClient.requestAddr dest).2.length) :
    slice (memcpy (memcpy buf 4 (BSocksClient.requestAddr dest).2) 0
        [socksVersion, socksCmdConnect, 0, (BSocksClient.requestAddr dest).1]) 0
      (4 + (BSocksClient.requestAddr dest).2.length) = requestMessage dest := by
  have hl : (memcpy buf 4 (BSocksClient.requestAddr dest).2).length = buf.length := length_memcpy (by omega)
  have h1 : slice (memcpy (memcpy buf 4 (BSocksClient.requestAddr dest).2) 0
      [socksVersion, socksCmdConnect, 0, (BSocksClient.requestAddr dest).1]) 0 4 = _ :=
    @slice_memcpy_self (memcpy buf 4 (BSocksClient.requestAddr dest).2) 0
    [socksVersion, socksCmdConnect, 0, (BSocksClient.requestAddr dest).1] (Nat.zero_le _)
  rw [← slice_append, h1, Nat.zero_add, slice_memcpy_after (by simp) (by simp; omega), slice_memcpy_self (by omega)]
  match dest, hd with
  | .ipv4 _ _, _ => simp [BSocksClient.requestAddr, requestMessage]
  | .ipv6 _ _, _ => simp [BSocksClient.requestAddr, requestMessage]

/-- A successful allocation changes the buffer, which then has the size asked for. -/
theorem reserveBuffer_ok {o : BSocksClient} (hok : ∀ k, o.heap.ok k = true) (size : Nat) :
    ∃ buf k, o.reserveBuffer size = some { o with buffer := buf, allocs := k } ∧ buf.length = size := by
  refine ⟨_, _, if_pos (hok _), ?_⟩
  simp only [List.length_append, List.length_take, List.length_map, List.length_range]
  omega

end SocksAux

open SocksAux HandshakeAux

variable {auths : List AuthInfo} {dest : BAddr}

/-- The states in which the client sends: the bytes sent and consumed before, and the message. -/
inductive SendsAt (auths : List AuthInfo) (dest : BAddr) : SocksState → Bytes → Bytes → Bytes → Prop where
  | hello : SendsAt auths dest .sendingHello [] [] (helloMessage auths)
  | password {username password : Bytes} (h : auths.find? (fun ai => ai.authType = 2) = some (.password username password))
      (hv : ValidPassword username password) :
      SendsAt auths dest .sendingPassword (helloMessage auths) [5, 2] (passwordMessage username password)
  | request {sent auth : Bytes} (h : Authenticated auths sent auth) :
      SendsAt auths dest .sendingRequest sent auth (requestMessage dest)

/-- The states in which the client receives: the bytes sent and consumed before, where in the buffer the message goes, its
length and the room in the buffer. -/
inductive AwaitsAt (auths : List AuthInfo) (dest : BAddr) : SocksState → Bytes → Bytes → Nat → Nat → Nat → Prop where
  | hello : AwaitsAt auths dest .sentHello (helloMessage auths) [] 0 2 2
  | password {username password : Bytes} (h : auths.find? (fun ai => ai.authType = 2) = some (.password username password))
      (hv : ValidPassword username password) :
      AwaitsAt auths dest .sentPassword (helloMessage auths ++ passwordMessage username password) [5, 2] 0 2 2
  | reply {sent auth : Bytes} (h : Authenticated auths sent auth) :
      AwaitsAt auths dest .sentRequest (sent ++ requestMessage dest) auth 0 4 22
  | address {sent auth : Bytes} {rsv atyp : UInt8} {len : Nat} (h : Authenticated auths sent auth)
      (hl : addressLength atyp = some len) :
      AwaitsAt auths dest .receivedReplyHeader (sent ++ requestMessage dest) (auth ++ [5, 0, rsv, atyp]) 4 len (4 + len)

/-- Where a client that has reported no error stands. -/
inductive SocksPhase (auths : List AuthInfo) (dest : BAddr) (o : BSocksClient) : Prop where
  | connecting (hs : o.state = .connecting) (hp : o.recvPending = false) (hr : o.reported = []) (ht : o.sent = [])
      (hc : o.consumed = [])
  | sending {st : SocksState} {sent c msg part : Bytes} (ha : SendsAt auths dest st sent c msg) (hst : o.state = st)
      (hp : o.recvPending = false) (hr : o.reported = []) (hs : o.sendSender.Carries msg part) (ht : o.sent = sent ++ part)
      (hc : o.consumed = c)
  | awaiting {st : SocksState} {sent c : Bytes} {off total room : Nat} (ha : AwaitsAt auths dest st sent c off total room)
      (hst : o.state = st) (hd : o.recvDest = off) (htl : o.recvTotal = total) (hp : o.recvPending = true)
      (hr : o.reported = []) (hs : o.sendSender.Idle) (ht : o.sent = sent) (hl : o.recvLen < total)
      (hroom : room ≤ o.buffer.length) (hc : o.consumed = c ++ slice o.buffer off o.recvLen)
  | up (hs : o.state = .up) (hp : o.recvPending = false) (hr : o.reported = [.up])
      (hh : handshake auths dest o.consumed = ⟨o.sent, [.up], o.consumed.length⟩)

/-- What stays as it is: every allocation succeeds, the methods are between 1 and 255, the destination is an IP address. -/
structure SocksBase (auths : List AuthInfo) (dest : BAddr) (o : BSocksClient) : Prop where
  heapOk : ∀ k, o.heap.ok k = true
  authEq : o.authInfo = auths
  destEq : o.destAddr = dest
  methods : 1 ≤ auths.length ∧ auths.length ≤ 255
  isIp : dest.IsIp

theorem SocksBase.of_eq {o o' : BSocksClient} (h : SocksBase auths dest o) (h1 : o'.heap = o.heap)
    (h2 : o'.authInfo = o.authInfo) (h3 : o'.destAddr = o.destAddr) : SocksBase auths dest o' :=
  ⟨h1 ▸ h.heapOk, h2.trans h.authEq, h3.trans h.destEq, h.methods, h.isIp⟩

/-- The invariant of the client. -/
structure SocksInv (auths : List AuthInfo) (dest : BAddr) (o : BSocksClient) : Prop where
  base : SocksBase auths dest o
  phase : o.ended = false → SocksPhase auths dest o
  failed : o.ended = true → o.reported = [.error] ∧
    handshake auths dest o.consumed = ⟨o.sent, [.error], o.consumed.length⟩

/-- The connection is established and does not fail. -/
def BSocksClient.Event.Undisturbed : BSocksClient.Event → Prop
  | .connected isError initOk => isError = false ∧ initOk = true
  | .connection _ => False
  | _ => True

/-- With the server sending `stream`, nothing more can happen. -/
def Quiet (stream : Bytes) (o : BSocksClient) : Prop :=
  ∀ e : BSocksClient.Event, e.Undisturbed → (∀ data, e = .received data → o.consumed ++ data <+: stream) → o.step e = none

namespace SocksAux

/-- What `handshake` says while a message is being sent. -/
theorem SendsAt.handshake_eq {st : SocksState} {sent c msg : Bytes} (h : SendsAt auths dest st sent c msg) :
    handshake auths dest c = ⟨sent ++ msg, [], c.length⟩ := by
  cases h with
  | hello => rfl
  | password h hv =>
    rw [← List.append_nil [5, 2], handshake_password dest h hv]
    rfl
  | request h =>
    have := handshake_authenticated dest h []
    rw [List.append_nil] at this
    rw [this]
    rfl

/-- What `handshake` says while a message is being received. -/
theorem AwaitsAt.handshake_eq {st : SocksState} {sent c : Bytes} {off total room : Nat}
    (h : AwaitsAt auths dest st sent c off total room) {m : Bytes} (hm : m.length < total) :
    handshake auths dest (c ++ m) = ⟨sent, [], (c ++ m).length⟩ := by
  cases h with
  | hello => rw [List.nil_append, handshake, if_pos hm]
  | password h hv =>
    rw [handshake_password dest h hv, passwordPhase, if_pos hm, List.length_append]
    rfl
  | reply h => rw [handshake_authenticated dest h, requestPhase, if_pos hm, List.length_append]
  | @address sent auth rsv atyp len h hl =>
    have hlen : ([5, 0, rsv, atyp] ++ m).length = 4 + m.length := by simp; omega
    have e0 : byteAt ([5, 0, rsv, atyp] ++ m) 0 = 5 := rfl
    have e1 : byteAt ([5, 0, rsv, atyp] ++ m) 1 = 0 := rfl
    have e3 : byteAt ([5, 0, rsv, atyp] ++ m) 3 = atyp := rfl
    rw [List.append_assoc, handshake_authenticated dest h, requestPhase, e0, e1, e3, hl, hlen, if_neg (by omega),
      if_neg (by simp)]
    simp only
    rw [if_pos (by omega), List.length_append, hlen]

/-- A client that reports an error. -/
theorem failed_inv {o : BSocksClient} (hb : SocksBase auths dest o) (hr : o.reported = [])
    (hh : handshake auths dest o.consumed = ⟨o.sent, [.error], o.consumed.length⟩) :
    SocksInv auths dest (o.reportError .error) := by
  refine ⟨(hb.of_eq rfl rfl rfl), fun h => (by cases h), fun _ => ⟨?_, hh⟩⟩
  simp only [BSocksClient.reportError, hr, List.nil_append]

/-- A client that goes on. -/
theorem running_inv {o : BSocksClient} (hb : SocksBase auths dest o) (he : o.ended = false) (hp : SocksPhase auths dest o) :
    SocksInv auths dest o :=
  ⟨hb, fun _ => hp, fun h => by rw [he] at h; cases h⟩

/-- After a finished authentication the request is sent. -/
theorem authFinished_inv {o : BSocksClient} (hb : SocksBase auths dest o) (he : o.ended = false) (hp : o.recvPending = false)
    (hr : o.reported = []) (hs : o.sendSender.Idle) (hauth : Authenticated auths o.sent o.consumed) :
    SocksInv auths dest o.authFinished := by
  obtain ⟨buf, k, hres, hlen⟩ :=
    reserveBuffer_ok hb.heapOk (sizeofSocksReplyHeader + (BSocksClient.requestAddr o.destAddr).2.length)
  have hmsg := request_written (hb.destEq ▸ hb.isIp) hlen
  rw [hb.destEq] at hres hmsg
  rw [BSocksClient.authFinished, hb.destEq]
  simp only [hres, BSocksClient.sendBuffer, hmsg]
  refine running_inv (hb.of_eq rfl rfl hb.destEq.symm) he ?_
  exact .sending (.request hauth) rfl hp hr (hs.submit _) (List.append_nil _).symm rfl

/-- The server's hello is complete. -/
theorem receivedHello_inv {o : BSocksClient} (hb : SocksBase auths dest o) (he : o.ended = false) (hp : o.recvPending = false)
    (hr : o.reported = []) (hs : o.sendSender.Idle) (ht : o.sent = helloMessage auths) {m : Bytes} (hm : m.length = 2)
    (hbuf : slice o.buffer 0 2 = m) (hc : o.consumed = m) : SocksInv auths dest o.receivedHello := by
  have e0 : byteAt o.buffer 0 = byteAt m 0 := by rw [← hbuf, byteAt_slice (by omega)]
  have e1 : byteAt o.buffer 1 = byteAt m 1 := by rw [← hbuf, byteAt_slice (by omega)]
  have h2 : ¬m.length < 2 := by omega
  have hsplit := two_bytes (Nat.le_of_not_lt h2)
  rw [List.drop_of_length_le (by omega)] at hsplit
  rw [BSocksClient.receivedHello, e0, e1, hb.authEq]
  by_cases hv : byteAt m 0 ≠ 5
  · rw [if_pos hv]
    refine failed_inv hb hr ?_
    rw [hc, handshake, if_neg h2, if_pos hv, ht, hm]
  rw [if_neg hv]
  rw [not_not.mp hv] at hsplit
  cases hf : auths.find? (fun ai => ai.authType = byteAt m 1) with
  | none =>
    refine failed_inv hb hr ?_
    rw [hc, handshake, if_neg h2, if_neg hv, hf, ht, hm]
  | some ai =>
    have hty := find_authType hf
    cases ai with
    | none =>
      rw [← hty] at hf hsplit
      exact authFinished_inv hb he hp hr hs (by rw [ht, hc, hsplit]; exact .none hf)
    | password username password =>
      simp only
      by_cases hbad : ValidPassword username password
      · obtain ⟨buf, k, hres, hlen⟩ := reserveBuffer_ok hb.heapOk (1 + 1 + username.length + 1 + password.length)
        have hmsg := password_written hlen
        rw [if_neg (by unfold ValidPassword at hbad; omega)]
        simp only [hres, BSocksClient.sendBuffer, hmsg]
        refine running_inv (hb.of_eq rfl rfl rfl) he ?_
        rw [← hty] at hf hsplit
        refine .sending (.password hf hbad) rfl hp hr (hs.submit _) ?_ (hc.trans hsplit)
        rw [List.append_nil]
        exact ht
      · rw [if_pos (by unfold ValidPassword at hbad; omega)]
        refine failed_inv hb hr ?_
        rw [hc, handshake, if_neg h2, if_neg hv, hf, ht, hm]
        simp only
        rw [if_pos hbad]

/-- The server's password reply is complete. -/
theorem receivedPasswordReply_inv {o : BSocksClient} (hb : SocksBase auths dest o) (he : o.ended = false)
    (hp : o.recvPending = false) (hr : o.reported = []) (hs : o.sendSender.Idle) {username password : Bytes}
    (hf : auths.find? (fun ai => ai.authType = 2) = some (.password username password)) (hv : ValidPassword username password)
    (ht : o.sent = helloMessage auths ++ passwordMessage username password) {m : Bytes} (hm : m.length = 2)
    (hbuf : slice o.buffer 0 2 = m) (hc : o.consumed = [5, 2] ++ m) : SocksInv auths dest o.receivedPasswordReply := by
  have e0 : byteAt o.buffer 0 = byteAt m 0 := by rw [← hbuf, byteAt_slice (by omega)]
  have e1 : byteAt o.buffer 1 = byteAt m 1 := by rw [← hbuf, byteAt_slice (by omega)]
  have h2 : ¬m.length < 2 := by omega
  have hbad : byteAt m 0 ≠ 1 ∨ byteAt m 1 ≠ 0 → SocksInv auths dest (o.reportError .error) := by
    intro hx
    refine failed_inv hb hr ?_
    rw [hc, handshake_password dest hf hv, passwordPhase, if_neg h2, if_pos hx, ht, List.length_append, hm]
    rfl
  rw [BSocksClient.receivedPasswordReply, e0, e1]
  by_cases h0 : byteAt m 0 ≠ 1
  · rw [if_pos h0]
    exact hbad (Or.inl h0)
  by_cases h1 : byteAt m 1 ≠ 0
  · rw [if_neg h0, if_pos h1]
    exact hbad (Or.inr h1)
  rw [if_neg h0, if_neg h1]
  have hsplit := two_bytes (Nat.le_of_not_lt h2)
  rw [List.drop_of_length_le (by omega), not_not.mp h0, not_not.mp h1] at hsplit
  refine authFinished_inv hb he hp hr hs ?_
  rw [ht, hc, hsplit]
  exact .password hf hv

/-- The header of the server's reply is complete. -/
theorem receivedReplyHeader_inv {o : BSocksClient} (hb : SocksBase auths dest o) (he : o.ended = false)
    (hr : o.reported = []) (hs : o.sendSender.Idle) {sent auth : Bytes} (hauth : Authenticated auths sent auth)
    (ht : o.sent = sent ++ requestMessage dest) (hroom : 22 ≤ o.buffer.length) {m : Bytes} (hm : m.length = 4)
    (hbuf : slice o.buffer 0 4 = m) (hc : o.consumed = auth ++ m) : SocksInv auths dest o.receivedReplyHeader := by
  have e0 : byteAt o.buffer 0 = byteAt m 0 := by rw [← hbuf, byteAt_slice (by omega)]
  have e1 : byteAt o.buffer 1 = byteAt m 1 := by rw [← hbuf, byteAt_slice (by omega)]
  have e3 : byteAt o.buffer 3 = byteAt m 3 := by rw [← hbuf, byteAt_slice (by omega)]
  have h4 : ¬m.length < 4 := by omega
  have hbad : byteAt m 0 ≠ 5 ∨ byteAt m 1 ≠ 0 → SocksInv auths dest (o.reportError .error) := by
    intro hx
    refine failed_inv hb hr ?_
    rw [hc, handshake_authenticated dest hauth, requestPhase, if_neg h4, if_pos hx, ht, List.length_append, hm]
  rw [BSocksClient.receivedReplyHeader, e0, e1, e3]
  by_cases h0 : byteAt m 0 ≠ 5
  · rw [if_pos h0]
    exact hbad (Or.inl h0)
  by_cases h1 : byteAt m 1 ≠ 0
  · rw [if_neg h0, if_pos h1]
    exact hbad (Or.inr h1)
  rw [if_neg h0, if_neg h1]
  have hsplit := four_bytes (Nat.le_of_not_lt h4)
  rw [List.drop_of_length_le (by omega), not_not.mp h0, not_not.mp h1] at hsplit
  have hal : BSocksClient.replyAddrLen (byteAt m 3) = addressLength (byteAt m 3) := rfl
  rw [hal]
  cases hl : addressLength (byteAt m 3) with
  | none =>
    refine failed_inv hb hr ?_
    rw [hc, handshake_authenticated dest hauth, requestPhase, if_neg h4, if_neg (by simp only [not_not.mp h0, not_not.mp h1]; simp),
      hl, ht, List.length_append, hm]
  | some len =>
    have hle : 0 < len ∧ len ≤ 18 := by
      unfold addressLength at hl
      split_ifs at hl <;> (obtain rfl := Option.some.inj hl; decide)
    refine running_inv (hb.of_eq rfl rfl rfl) he ?_
    have hat : AwaitsAt auths dest .receivedReplyHeader _ (auth ++ [5, 0, byteAt m 2, byteAt m 3]) 4 len (4 + len) :=
      .address hauth hl
    refine .awaiting hat rfl rfl rfl rfl hr hs ht hle.1 ?_ ?_
    · exact Nat.le_trans (by omega) hroom
    · simp only [BSocksClient.startReceive, BSocksClient.doReceive, slice_zero_len, List.append_nil]
      exact hc.trans (congrArg _ hsplit)

/-- The rest of the server's reply is complete. -/
theorem receivedReply_inv {o : BSocksClient} (hb : SocksBase auths dest o) (he : o.ended = false) (hp : o.recvPending = false)
    (hr : o.reported = []) {sent auth addr : Bytes} {rsv atyp : UInt8} (hauth : Authenticated auths sent auth)
    (ht : o.sent = sent ++ requestMessage dest) (hl : addressLength atyp = some addr.length)
    (hc : o.consumed = auth ++ [5, 0, rsv, atyp] ++ addr) : SocksInv auths dest o.receivedReply := by
  refine running_inv (hb.of_eq rfl rfl rfl) he ?_
  refine .up rfl hp (by simp only [BSocksClient.receivedReply, hr, List.nil_append]) ?_
  simp only [BSocksClient.receivedReply]
  rw [hc, handshake_up dest hauth hl, ht]

/-- A receive fits the room in the buffer. -/
theorem AwaitsAt.fits {st : SocksState} {sent c : Bytes} {off total room : Nat}
    (h : AwaitsAt auths dest st sent c off total room) : off + total ≤ room := by
  cases h <;> omega

/-- A piece of the awaited message arrives. -/
theorem received_inv {o : BSocksClient} (hb : SocksBase auths dest o) (he : o.ended = false) {st : SocksState}
    {sent c : Bytes} {off total room : Nat} (ha : AwaitsAt auths dest st sent c off total room) (hst : o.state = st)
    (hd : o.recvDest = off) (htl : o.recvTotal = total) (hr : o.reported = []) (hs : o.sendSender.Idle) (ht : o.sent = sent)
    (hl : o.recvLen < total) (hroom : room ≤ o.buffer.length) (hc : o.consumed = c ++ slice o.buffer off o.recvLen)
    {data : Bytes} (hlen : data.length ≤ total - o.recvLen) :
    SocksInv auths dest (BSocksClient.recvHandlerDone
      { o with
        buffer := memcpy o.buffer (o.recvDest + o.recvLen) data
        recvPending := false
        consumed := o.consumed ++ data } data.length) := by
  have hfit := AwaitsAt.fits ha
  have hblen : (memcpy o.buffer (o.recvDest + o.recvLen) data).length = o.buffer.length := length_memcpy (by omega)
  have hslice : c ++ slice (memcpy o.buffer (o.recvDest + o.recvLen) data) off (o.recvLen + data.length) =
      o.consumed ++ data := by
    rw [hc, hd, slice_memcpy_extend rfl (by omega), List.append_assoc]
  by_cases hmore : o.recvLen + data.length < total
  · have hstep : BSocksClient.recvHandlerDone
        { o with
          buffer := memcpy o.buffer (o.recvDest + o.recvLen) data
          recvPending := false
          consumed := o.consumed ++ data } data.length =
        { o with
          buffer := memcpy o.buffer (o.recvDest + o.recvLen) data
          recvLen := o.recvLen + data.length
          recvPending := true
          consumed := o.consumed ++ data } := by
      simp only [BSocksClient.recvHandlerDone, BSocksClient.doReceive, htl, if_pos hmore]
    rw [hstep]
    refine running_inv (hb.of_eq rfl rfl rfl) he ?_
    exact .awaiting ha hst hd htl rfl hr hs ht hmore (by rw [hblen]; exact hroom) hslice.symm
  · have hall : o.recvLen + data.length = total := by omega
    rw [hall] at hslice
    have hmlen : (slice (memcpy o.buffer (o.recvDest + o.recvLen) data) off total).length = total :=
      length_slice_of_le (by omega)
    rw [BSocksClient.recvHandlerDone]
    simp only [htl, if_neg hmore, hst]
    cases ha with
    | hello => exact receivedHello_inv (hb.of_eq rfl rfl rfl) he rfl hr hs ht hmlen rfl hslice.symm
    | password hf hv => exact receivedPasswordReply_inv (hb.of_eq rfl rfl rfl) he rfl hr hs hf hv ht hmlen rfl hslice.symm
    | reply hauth => 
      exact receivedReplyHeader_inv (hb.of_eq rfl rfl rfl) he hr hs hauth ht (by simp only [hblen]; omega) hmlen rfl
        hslice.symm
    | address hauth hal =>
      refine receivedReply_inv (hb.of_eq rfl rfl rfl) he rfl hr hauth ht ?_ hslice.symm
      rw [hmlen]
      exact hal

/-- A message has been sent: its answer is awaited. -/
theorem sendHandlerDone_inv {o : BSocksClient} (hb : SocksBase auths dest o) (he : o.ended = false) {st : SocksState}
    {sent c msg : Bytes} (ha : SendsAt auths dest st sent c msg) (hst : o.state = st) (hr : o.reported = [])
    (hs : o.sendSender.Idle) (ht : o.sent = sent ++ msg) (hc : o.consumed = c) :
    SocksInv auths dest o.sendHandlerDone ∧ o.sendHandlerDone.recvPending = true ∧
      o.sendHandlerDone.state ≠ .connecting ∧ o.sendHandlerDone.consumed = o.consumed := by
  cases ha with
  | hello =>
    obtain ⟨buf, k, hres, hlen⟩ := reserveBuffer_ok hb.heapOk 2
    simp only [BSocksClient.sendHandlerDone, hst, hres]
    refine ⟨running_inv (hb.of_eq rfl rfl rfl) he ?_, rfl, by simp, rfl⟩
    exact .awaiting .hello rfl rfl rfl rfl hr hs ht (Nat.zero_lt_succ 1) (Nat.le_of_eq hlen.symm)
      (by rw [List.nil_append]; exact hc)
  | password hf hv =>
    obtain ⟨buf, k, hres, hlen⟩ := reserveBuffer_ok hb.heapOk 2
    simp only [BSocksClient.sendHandlerDone, hst, hres]
    refine ⟨running_inv (hb.of_eq rfl rfl rfl) he ?_, rfl, by simp, rfl⟩
    exact .awaiting (.password hf hv) rfl rfl rfl rfl hr hs ht (Nat.zero_lt_succ 1) (Nat.le_of_eq hlen.symm) hc
  | request hauth =>
    obtain ⟨buf, k, hres, hlen⟩ :=
      reserveBuffer_ok hb.heapOk (sizeofSocksReplyHeader + max sizeofSocksAddrIpv4 sizeofSocksAddrIpv6)
    simp only [BSocksClient.sendHandlerDone, hst, hres]
    refine ⟨running_inv (hb.of_eq rfl rfl rfl) he ?_, rfl, by simp, rfl⟩
    exact .awaiting (.reply hauth) rfl rfl rfl rfl hr hs ht (Nat.zero_lt_succ 3) (Nat.le_of_eq hlen.symm)
      (hc.trans (List.append_nil _).symm)

/-- The connection is there: the hello is sent. -/
theorem connectorHandler_inv {o : BSocksClient} (hb : SocksBase auths dest o) (he : o.ended = false)
    (hp : o.recvPending = false) (hr : o.reported = []) (ht : o.sent = []) (hc : o.consumed = []) :
    SocksInv auths dest (o.connectorHandler false true) ∧ (o.connectorHandler false true).state = .sendingHello ∧
      (o.connectorHandler false true).recvPending = false ∧ (o.connectorHandler false true).consumed = o.consumed := by
  obtain ⟨buf, k, hres, hlen⟩ := @reserveBuffer_ok { o with sendSender := .init } hb.heapOk (2 + auths.length)
  have hmsg := hello_written hlen
  have hm := hb.methods
  simp only [BSocksClient.connectorHandler, Bool.false_eq_true, if_false, not_true_eq_false, hb.authEq]
  rw [if_neg (by omega)]
  simp only [hb.authEq] at hres
  simp only [hres, BSocksClient.sendBuffer, hmsg]
  refine ⟨running_inv (hb.of_eq rfl hb.authEq.symm rfl) he ?_, trivial, hp, trivial⟩
  exact .sending .hello rfl hp hr (PacketStreamSender.idle_init.submit _) ht hc

theorem SendsAt.controlIo {st : SocksState} {sent c msg : Bytes} (h : SendsAt auths dest st sent c msg) {o : BSocksClient}
    (hst : o.state = st) : o.controlIo = true ∧ o.state ≠ .connecting := by
  cases h <;> simp [BSocksClient.controlIo, hst]

theorem AwaitsAt.controlIo {st : SocksState} {sent c : Bytes} {off total room : Nat}
    (h : AwaitsAt auths dest st sent c off total room) {o : BSocksClient} (hst : o.state = st) :
    o.controlIo = true ∧ o.state ≠ .connecting := by
  cases h <;> simp [BSocksClient.controlIo, hst]

/-- Every event of an undisturbed client keeps the invariant. -/
theorem step_inv {o o' : BSocksClient} {e : BSocksClient.Event} (hi : SocksInv auths dest o) (hu : e.Undisturbed)
    (h : o.step e = some o') : SocksInv auths dest o' := by
  cases he : o.ended with
  | true => simp [BSocksClient.step, he] at h
  | false =>
    have hphase := hi.phase he
    unfold BSocksClient.step at h
    rw [if_neg (by rw [he]; exact Bool.false_ne_true)] at h
    cases e with
    | connection => exact hu.elim
    | connected isError initOk =>
      obtain ⟨rfl, rfl⟩ := hu
      simp only [Option.ite_none_right_eq_some, Option.some.injEq] at h
      obtain ⟨hst, rfl⟩ := h
      cases hphase with
      | connecting _ hp hr ht hc => exact (connectorHandler_inv hi.base he hp hr ht hc).1
      | sending ha hst' => exact absurd hst (SendsAt.controlIo ha hst').2
      | awaiting ha hst' => exact absurd hst (AwaitsAt.controlIo ha hst').2
      | up hs => rw [hs] at hst; cases hst
    | sender e =>
      simp only [Option.ite_none_right_eq_some, Option.map_eq_some_iff] at h
      obtain ⟨hctl, ⟨s', wire⟩, hs', rfl⟩ := h
      cases hphase with
      | connecting hs => simp [BSocksClient.controlIo, hs] at hctl
      | up hs => simp [BSocksClient.controlIo, hs] at hctl
      | awaiting _ _ _ _ _ _ hs =>
        rw [hs.step_eq_none] at hs'
        cases hs'
      | sending ha hst hp hr hs ht hc =>
        refine running_inv (hi.base.of_eq rfl rfl rfl) he ?_
        exact .sending ha hst hp hr (PacketStreamSender.step_carries hs hs') (by simp only [ht, List.append_assoc]) hc
    | runSendDone =>
      simp only [Option.ite_none_right_eq_some, Option.map_eq_some_iff] at h
      obtain ⟨hctl, s', hs', rfl⟩ := h
      cases hphase with
      | connecting hs => simp [BSocksClient.controlIo, hs] at hctl
      | up hs => simp [BSocksClient.controlIo, hs] at hctl
      | awaiting _ _ _ _ _ _ hs =>
        rw [hs.runDone_eq_none] at hs'
        cases hs'
      | sending ha hst hp hr hs ht hc =>
        obtain ⟨rfl, hidle⟩ := PacketStreamSender.runDone_carries hs hs'
        exact (sendHandlerDone_inv (o := { o with sendSender := s' }) (hi.base.of_eq rfl rfl rfl) he ha hst hr hidle ht hc).1
    | received data =>
      simp only [Option.ite_none_right_eq_some, Option.some.injEq] at h
      obtain ⟨⟨hpend, -, hlen⟩, rfl⟩ := h
      cases hphase with
      | connecting _ hp => rw [hp] at hpend; cases hpend
      | sending _ _ hp => rw [hp] at hpend; cases hpend
      | up _ hp => rw [hp] at hpend; cases hpend
      | awaiting ha hst hd htl _ hr hs ht hl hroom hc =>
        exact received_inv hi.base he ha hst hd htl hr hs ht hl hroom hc (htl ▸ hlen)

/-- What the invariant says of the outside. -/
theorem SocksInv.outside {o : BSocksClient} (hi : SocksInv auths dest o) :
    o.sent <+: (handshake auths dest o.consumed).sent ∧ o.reported = (handshake auths dest o.consumed).reported ∧
      o.consumed.length = (handshake auths dest o.consumed).consumed := by
  cases he : o.ended with
  | true =>
    obtain ⟨hr, hh⟩ := hi.failed he
    rw [hh]
    exact ⟨List.prefix_refl _, hr, rfl⟩
  | false =>
    cases hi.phase he with
    | connecting _ _ hr ht hc =>
      rw [ht, hr, hc]
      exact ⟨List.nil_prefix, rfl, rfl⟩
    | sending ha _ _ hr hs ht hc =>
      rw [hc, SendsAt.handshake_eq ha, ht, hr]
      exact ⟨(List.prefix_append_right_inj _).mpr hs.part_of, rfl, rfl⟩
    | @awaiting st sent c off total room ha hst hd htl hp hr hs ht hl hroom hc =>
      have hfit := AwaitsAt.fits ha
      have hlen : (slice o.buffer off o.recvLen).length < total := by
        rw [length_slice_of_le (by omega)]
        exact hl
      rw [hc, AwaitsAt.handshake_eq ha hlen, ht, hr]
      exact ⟨List.prefix_refl _, rfl, rfl⟩
    | up _ _ hr hh =>
      rw [hh, hr]
      exact ⟨List.prefix_refl _, rfl, rfl⟩

/-- A client for which nothing more can happen is up, has failed, or has taken all the server sent. -/
theorem SocksInv.quiet_cases {o : BSocksClient} (hi : SocksInv auths dest o) {stream : Bytes} (hq : Quiet stream o)
    (hpre : o.consumed <+: stream) :
    o.sent = (handshake auths dest o.consumed).sent ∧ (o.reported ≠ [] ∨ o.consumed = stream) := by
  cases he : o.ended with
  | true =>
    obtain ⟨hr, hh⟩ := hi.failed he
    rw [hh, hr]
    exact ⟨rfl, Or.inl (by simp)⟩
  | false =>
    have hstep : ∀ e : BSocksClient.Event, e.Undisturbed → (∀ data, e = .received data → o.consumed ++ data <+: stream) →
        o.step e = none := hq
    cases hi.phase he with
    | up _ _ hr hh =>
      rw [hh, hr]
      exact ⟨rfl, Or.inl (by simp)⟩
    | connecting hs =>
      have := hstep (.connected false true) ⟨rfl, rfl⟩ (by simp)
      simp [BSocksClient.step, he, hs] at this
    | sending ha hst _ _ hs =>
      have hctl := (SendsAt.controlIo ha hst).1
      exfalso
      rcases hs.enabled with hd | ⟨e, hd⟩
      · have := hstep .runSendDone trivial (by simp)
        simp [BSocksClient.step, he, hctl] at this
        exact hd this
      · have := hstep (.sender e) trivial (by simp)
        simp [BSocksClient.step, he, hctl] at this
        exact hd this
    | awaiting ha hst hd htl hp hr hs ht hl hroom hc =>
      obtain ⟨rest, rfl⟩ := hpre
      cases rest with
      | nil =>
        refine ⟨?_, Or.inr (List.append_nil _).symm⟩
        have hfit := AwaitsAt.fits ha
        rw [hc, AwaitsAt.handshake_eq ha (by rw [length_slice_of_le (by omega)]; exact hl), ht]
      | cons b rest =>
        have := hstep (.received [b]) trivial (by
          intro data hdata
          obtain rfl := BSocksClient.Event.received.inj hdata
          exact ⟨rest, by simp⟩)
        simp [BSocksClient.step, he, hp] at this
        omega

/-- Steps of the sender are steps of the client. -/
theorem exec_sender {heap : Heap} {es : List PacketStreamSender.Event} {o : BSocksClient} {s' : PacketStreamSender}
    {wire : Bytes} (he : o.ended = false) (hctl : o.controlIo = true) (hr : o.sendSender.run es = some (s', wire)) :
    (socksSystem heap auths dest).exec o (es.map .sender) = some { o with sendSender := s', sent := o.sent ++ wire } := by
  induction es generalizing o wire with
  | nil =>
    obtain ⟨rfl, rfl⟩ := Prod.mk.inj (Option.some.inj hr)
    rw [List.map_nil, System.exec, List.append_nil]
  | cons e es ih =>
    rw [PacketStreamSender.run, Option.bind_eq_some_iff] at hr
    obtain ⟨⟨s1, w1⟩, h1, h2⟩ := hr
    rw [Option.map_eq_some_iff] at h2
    obtain ⟨⟨s2, w2⟩, h2, h3⟩ := h2
    obtain ⟨rfl, rfl⟩ := Prod.mk.inj h3
    have hstep : (socksSystem heap auths dest).step o (.sender e) =
        some { o with sendSender := s1, sent := o.sent ++ w1 } := by
      simp only [socksSystem, BSocksClient.step]
      rw [if_neg (by rw [he]; exact Bool.false_ne_true), if_pos hctl, h1, Option.map_some]
    rw [List.map_cons, System.exec, hstep, Option.bind_some, ih (o := { o with sendSender := s1, sent := o.sent ++ w1 }) he hctl h2]
    simp only [List.append_assoc]

theorem reserveBuffer_consumed {o o' : BSocksClient} {size : Nat} (h : o.reserveBuffer size = some o') :
    o'.consumed = o.consumed := by
  simp only [BSocksClient.reserveBuffer, Option.ite_none_right_eq_some, Option.some.injEq] at h
  rw [← h.2]

theorem authFinished_consumed (o : BSocksClient) : o.authFinished.consumed = o.consumed := by
  unfold BSocksClient.authFinished
  simp only
  split
  · rfl
  · rename_i hres
    have hkeep := reserveBuffer_consumed hres
    exact hkeep

/-- The handlers take no byte themselves. -/
theorem recvHandlerDone_consumed (o : BSocksClient) (n : Nat) : (o.recvHandlerDone n).consumed = o.consumed := by
  have hhello : ∀ o : BSocksClient, o.receivedHello.consumed = o.consumed := by
    intro o
    unfold BSocksClient.receivedHello
    split
    · rfl
    split
    · rfl
    · exact authFinished_consumed o
    split
    · rfl
    simp only
    split
    · rfl
    · rename_i hres
      have hkeep := reserveBuffer_consumed hres
      exact hkeep
  have hpass : ∀ o : BSocksClient, o.receivedPasswordReply.consumed = o.consumed := by
    intro o
    unfold BSocksClient.receivedPasswordReply
    split
    · rfl
    split
    · rfl
    · exact authFinished_consumed o
  have hhead : ∀ o : BSocksClient, o.receivedReplyHeader.consumed = o.consumed := by
    intro o
    unfold BSocksClient.receivedReplyHeader
    split
    · rfl
    split
    · rfl
    split <;> rfl
  unfold BSocksClient.recvHandlerDone
  simp only
  split
  · rfl
  split
  · exact hhello _
  · exact hhead _
  · exact hpass _
  · rfl
  · rfl

/-- How far the client is from having nothing more to do with `stream`. -/
def distance (stream : Bytes) (o : BSocksClient) : Nat :=
  3 * (stream.length - o.consumed.length) + if o.state = .connecting then 2 else if o.recvPending then 0 else 1

/-- The client can be brought nearer to having nothing more to do with `stream`. -/
def Advances (heap : Heap) (auths : List AuthInfo) (dest : BAddr) (stream : Bytes) (o : BSocksClient) : Prop :=
  ∃ es o', (∀ e ∈ es, BSocksClient.Event.Undisturbed e) ∧ (socksSystem heap auths dest).exec o es = some o' ∧
    o'.consumed <+: stream ∧ distance stream o' < distance stream o

/-- The connection is established. -/
theorem advances_connecting (heap : Heap) {o : BSocksClient} (hb : SocksBase auths dest o) (he : o.ended = false)
    {stream : Bytes} (hpre : o.consumed <+: stream) (hs : o.state = .connecting) (hp : o.recvPending = false) (hr : o.reported = [])
    (ht : o.sent = []) (hc : o.consumed = []) : Advances heap auths dest stream o := by
  obtain ⟨-, hst, hpend, hcons⟩ := connectorHandler_inv hb he hp hr ht hc
  refine ⟨[.connected false true], o.connectorHandler false true, by simp [BSocksClient.Event.Undisturbed], ?_, ?_, ?_⟩
  · simp only [System.exec, socksSystem, BSocksClient.step]
    rw [if_neg (by simp [he]), if_pos hs]
    rfl
  · rw [hcons]
    exact hpre
  · simp [distance, hcons, hst, hpend, hs]

/-- The message is sent to its end. -/
theorem advances_sending (heap : Heap) {o : BSocksClient} (hb : SocksBase auths dest o) (he : o.ended = false)
    {stream : Bytes} (hpre : o.consumed <+: stream) {st : SocksState} {sent c msg part : Bytes}
    (ha : SendsAt auths dest st sent c msg) (hst : o.state = st) (hp : o.recvPending = false) (hr : o.reported = [])
    (hs : o.sendSender.Carries msg part) (ht : o.sent = sent ++ part) (hc : o.consumed = c) : Advances heap auths dest stream o := by
  obtain ⟨hctl, hstc⟩ := SendsAt.controlIo ha hst
  obtain ⟨es, s', wire, hrun, hdone⟩ := hs.finishes
  have hcar := PacketStreamSender.run_carries hs hrun
  obtain ⟨s'', hs''⟩ : ∃ s'', s'.runDone = some s'' := ⟨_, if_pos hdone⟩
  obtain ⟨hwhole, hidle⟩ := PacketStreamSender.runDone_carries hcar hs''
  obtain ⟨-, hpend, hst'', hcons⟩ := sendHandlerDone_inv (o := { o with sendSender := s'', sent := o.sent ++ wire })
    (hb.of_eq rfl rfl rfl) he ha hst hr hidle (by simp only [ht, List.append_assoc, hwhole]) hc
  refine ⟨es.map .sender ++ [.runSendDone],
    BSocksClient.sendHandlerDone { o with sendSender := s'', sent := o.sent ++ wire }, ?_, ?_, ?_, ?_⟩
  · intro e hmem
    rcases List.mem_append.mp hmem with hmem | hmem
    · obtain ⟨e', -, rfl⟩ := List.mem_map.mp hmem
      trivial
    · rw [List.mem_singleton.mp hmem]
      trivial
  · rw [System.exec_append, exec_sender he hctl hrun, Option.bind_some]
    simp only [System.exec, socksSystem, BSocksClient.step]
    rw [if_neg (by simp [he]), if_pos (show BSocksClient.controlIo { o with sendSender := s', sent := o.sent ++ wire } = true from hctl),
      hs'', Option.map_some]
    rfl
  · rw [hcons]
    exact hpre
  · rw [distance, distance, hcons, if_neg hst'', if_pos hpend, if_neg hstc, if_neg (by simp [hp])]
    exact Nat.lt_succ_self _

/-- The next byte of the server is received. -/
theorem advances_receiving (heap : Heap) {o : BSocksClient} (he : o.ended = false) (hstc : o.state ≠ .connecting)
    (hp : o.recvPending = true) (hl : o.recvLen < o.recvTotal) (b : UInt8) (rest : Bytes) :
    Advances heap auths dest (o.consumed ++ b :: rest) o := by
  obtain ⟨o1, ho1⟩ : ∃ o1, o1 = BSocksClient.recvHandlerDone { o with
    buffer := memcpy o.buffer (o.recvDest + o.recvLen) [b]
    recvPending := false
    consumed := o.consumed ++ [b] } 1 := ⟨_, rfl⟩
  have hcons : o1.consumed = o.consumed ++ [b] := by rw [ho1, recvHandlerDone_consumed]
  refine ⟨[.received [b]], o1, by simp [BSocksClient.Event.Undisturbed], ?_, ?_, ?_⟩
  · simp only [System.exec, socksSystem, BSocksClient.step]
    rw [if_neg (by simp [he]), if_pos ⟨hp, by simp, by simp only [List.length_singleton]; omega⟩, ho1]
    rfl
  · rw [hcons]
    exact ⟨rest, by simp⟩
  · rw [distance, distance, hcons, if_neg hstc, if_pos hp]
    simp only [List.length_append, List.length_cons, List.length_nil]
    split_ifs <;> omega

/-- A client that waits for more than the server sent has nothing more to do. -/
theorem quiet_starved {o : BSocksClient} (he : o.ended = false) (hstc : o.state ≠ .connecting) (hs : o.sendSender.Idle) :
    Quiet (o.consumed ++ []) o := by
  intro e hu hdata
  cases e with
  | connection => exact hu.elim
  | connected => simp [BSocksClient.step, hstc]
  | sender e => simp [BSocksClient.step, hs.step_eq_none]
  | runSendDone => simp [BSocksClient.step, hs.runDone_eq_none]
  | received data =>
    have hlen := (hdata data rfl).length_le
    simp only [List.length_append, List.length_nil] at hlen
    simp only [BSocksClient.step]
    rw [if_neg (by simp [he]), if_neg (by omega)]

/-- A client that is not done with `stream` can be brought nearer to that. -/
theorem SocksInv.progress (heap : Heap) {o : BSocksClient} (hi : SocksInv auths dest o) {stream : Bytes}
    (hpre : o.consumed <+: stream) (hq : ¬Quiet stream o) : Advances heap auths dest stream o := by
  cases he : o.ended with
  | true => exact absurd (fun e _ _ => by simp [BSocksClient.step, he]) hq
  | false =>
    cases hi.phase he with
    | up hs hp =>
      refine absurd ?_ hq
      intro e hu _
      cases e with
      | connection => exact hu.elim
      | _ => simp [BSocksClient.step, BSocksClient.controlIo, hs, hp]
    | connecting hs hp hr ht hc => exact advances_connecting heap hi.base he hpre hs hp hr ht hc
    | sending ha hst hp hr hs ht hc => exact advances_sending heap hi.base he hpre ha hst hp hr hs ht hc
    | awaiting ha hst hd htl hp hr hs ht hl hroom hc =>
      obtain ⟨-, hstc⟩ := AwaitsAt.controlIo ha hst
      obtain ⟨rest, rfl⟩ := hpre
      cases rest with
      | nil => exact absurd (quiet_starved he hstc hs) hq
      | cons b rest => exact advances_receiving heap he hstc hp (htl ▸ hl) b rest

/-- The invariant at the start. -/
theorem init_inv {heap : Heap} (hheap : ∀ k, heap.ok k = true) (hm : 1 ≤ auths.length ∧ auths.length ≤ 255)
    (hip : dest.IsIp) : SocksInv auths dest (.init heap auths dest) :=
  running_inv ⟨hheap, rfl, rfl, hm, hip⟩ rfl (.connecting rfl rfl rfl rfl rfl)

/-- Running on undisturbed keeps the invariant. -/
theorem exec_inv {heap : Heap} {o o' : BSocksClient} {es : List BSocksClient.Event} (hi : SocksInv auths dest o)
    (hu : ∀ e ∈ es, BSocksClient.Event.Undisturbed e) (h : (socksSystem heap auths dest).exec o es = some o') :
    SocksInv auths dest o' := by
  induction es generalizing o with
  | nil =>
    obtain rfl := Option.some.inj h
    exact hi
  | cons e es ih =>
    rw [System.exec, Option.bind_eq_some_iff] at h
    obtain ⟨o1, h1, h2⟩ := h
    exact ih (step_inv hi (hu e (by simp)) h1) (fun e' he' => hu e' (by simp [he'])) h2

/-- Every undisturbed client comes to an end with what the server sent. -/
theorem SocksInv.settles (heap : Heap) {o : BSocksClient} (hi : SocksInv auths dest o) {stream : Bytes}
    (hpre : o.consumed <+: stream) :
    ∃ es o', (∀ e ∈ es, BSocksClient.Event.Undisturbed e) ∧ (socksSystem heap auths dest).exec o es = some o' ∧
      o'.consumed <+: stream ∧ Quiet stream o' := by
  obtain ⟨k, hk⟩ : ∃ k, distance stream o = k := ⟨_, rfl⟩
  induction k using Nat.strong_induction_on generalizing o with
  | _ k ih =>
    by_cases hq : Quiet stream o
    · exact ⟨[], o, by simp, rfl, hpre, hq⟩
    · obtain ⟨es, o1, hu, hex, hpre1, hlt⟩ := SocksInv.progress heap hi hpre hq
      obtain ⟨es', o', hu', hex', hpre', hq'⟩ := ih _ (hk ▸ hlt) (exec_inv hi hu hex) hpre1 rfl
      refine ⟨es ++ es', o', ?_, by rw [System.exec_append, hex]; exact hex', hpre', hq'⟩
      intro e he
      rcases List.mem_append.mp he with he | he
      · exact hu e he
      · exact hu' e he

end SocksAux

/-- `BSocksClient` with between 1 and 255 methods, an IP destination and succeeding allocations, over every run on an established
connection that does not fail, for every chunking of both streams:
1. in every state, what it has sent is a beginning of what `handshake` has it send on the bytes it has consumed; it has reported
   what `handshake` reports on them, at once; and it has consumed no byte beyond the handshake;
2. whenever nothing more can happen with the server sending `stream`, bytes sent, events reported and bytes consumed are those of
   `handshake` on `stream`;
3. that point is reached from every state;
4. the client is up exactly when the stream starts with a whole successful handshake, and has then consumed just that. -/
theorem socks_handshake {heap : Heap} {auths : List AuthInfo} {dest : BAddr} (hheap : ∀ k, heap.ok k = true)
    (hm : 1 ≤ auths.length ∧ auths.length ≤ 255) (hip : dest.IsIp) {es : List BSocksClient.Event} {o : BSocksClient}
    (h : (socksSystem heap auths dest).RunWhere (fun _ e => e.Undisturbed) es o) :
    (o.sent <+: (handshake auths dest o.consumed).sent ∧ o.reported = (handshake auths dest o.consumed).reported ∧
      o.consumed.length = (handshake auths dest o.consumed).consumed) ∧
    (∀ stream, o.consumed <+: stream → Quiet stream o → o.sent = (handshake auths dest stream).sent ∧
      o.reported = (handshake auths dest stream).reported ∧ o.consumed = stream.take (handshake auths dest stream).consumed) ∧
    (∀ stream, o.consumed <+: stream → ∃ es' o', (∀ e ∈ es', BSocksClient.Event.Undisturbed e) ∧
      (socksSystem heap auths dest).exec o es' = some o' ∧ o'.consumed <+: stream ∧ Quiet stream o') ∧
    (∀ stream, (handshake auths dest stream).reported = [.up] ↔
      ∃ c, UpStream auths c ∧ c <+: stream ∧ (handshake auths dest stream).consumed = c.length) := by
  have hi : SocksInv auths dest o := by
    refine h.invariant (fun _ o => SocksInv auths dest o) ?_ ?_
    · rintro o rfl
      exact init_inv hheap hm hip
    · exact fun _ o e o' hi hu hstep => step_inv hi hu hstep
  refine ⟨SocksInv.outside hi, ?_, fun stream hpre => SocksInv.settles heap hi hpre, reported_up_iff auths dest⟩
  intro stream hpre hq
  obtain ⟨-, hrep, hcons⟩ := SocksInv.outside hi
  obtain ⟨hsent, hne | hall⟩ := SocksInv.quiet_cases hi hq hpre
  · obtain ⟨r, rfl⟩ := hpre
    rw [handshake_stable (by rwa [← hrep])]
    exact ⟨hsent, hrep, by rw [← hcons, List.take_left']; rfl⟩
  · subst hall
    exact ⟨hsent, hrep, by rw [← hcons, List.take_length]⟩

/-- An allocator that never fails. -/
def plentifulHeap : Heap := { ok := fun _ => true, fresh := fun _ _ => 0 }

/-- The events of a client without authentication up to the point where it waits for the server's selection. -/
def helloEvents : List BSocksClient.Event :=
  [.connected false true, .sender .runInput, .sender .runOutput, .sender (.transfer 3), .sender .runOutputDone, .runSendDone]

/-- A client that has sent its hello and got the first byte of the selection: the handshake can still come to its end. -/
theorem socks_handshake_first_byte :
    ∃ o, (socksSystem plentifulHeap [.none] (.ipv4 0x08080808 53)).RunWhere (fun _ e => e.Undisturbed)
        (helloEvents ++ [.received [5]]) o ∧ o.consumed = [5] ∧ o.reported = [] ∧
      ∃ es o', (∀ e ∈ es, BSocksClient.Event.Undisturbed e) ∧
        (socksSystem plentifulHeap [.none] (.ipv4 0x08080808 53)).exec o es = some o' ∧
        o'.consumed <+: [5, 0, 5, 0, 0, 1, 0, 0, 0, 0, 0, 0, 9] ∧ Quiet [5, 0, 5, 0, 0, 1, 0, 0, 0, 0, 0, 0, 9] o' := by
  obtain ⟨o, ho, hc, hr⟩ : ∃ o, (socksSystem plentifulHeap [.none] (.ipv4 0x08080808 53)).exec
      (.init plentifulHeap [.none] (.ipv4 0x08080808 53)) (helloEvents ++ [.received [5]]) = some o ∧ o.consumed = [5] ∧
      o.reported = [] := ⟨_, rfl, rfl, rfl⟩
  have hrun : (socksSystem plentifulHeap [.none] (.ipv4 0x08080808 53)).RunWhere (fun _ e => e.Undisturbed)
      (helloEvents ++ [.received [5]]) o :=
    (System.RunWhere.init rfl).exec (by simp [BSocksClient.Event.Undisturbed]) ho
  refine ⟨o, hrun, hc, hr, ?_⟩
  exact (socks_handshake (fun _ => rfl) (by decide) (by decide) hrun).2.2.1 _ (by rw [hc]; decide)

/-- The version is the first field of the server's selection, and no error is reported when it alone is there and wrong. -/
theorem wrong_version_is_not_reported_at_once :
    ¬∀ (heap : Heap) (auths : List AuthInfo) (dest : BAddr) (es : List BSocksClient.Event) (o : BSocksClient),
      (∀ k, heap.ok k = true) → 1 ≤ auths.length ∧ auths.length ≤ 255 → dest.IsIp →
      (socksSystem heap auths dest).RunWhere (fun _ e => e.Undisturbed) es o →
      1 ≤ o.consumed.length → byteAt o.consumed 0 ≠ 5 → o.reported = [.error] := by
  intro h
  obtain ⟨o, ho, hc, hr⟩ : ∃ o, (socksSystem plentifulHeap [.none] (.ipv4 0x08080808 53)).exec
      (.init plentifulHeap [.none] (.ipv4 0x08080808 53)) (helloEvents ++ [.received [4]]) = some o ∧ o.consumed = [4] ∧
      o.reported = [] := ⟨_, rfl, rfl, rfl⟩
  have hrun : (socksSystem plentifulHeap [.none] (.ipv4 0x08080808 53)).RunWhere (fun _ e => e.Undisturbed)
      (helloEvents ++ [.received [4]]) o :=
    (System.RunWhere.init rfl).exec (by simp [BSocksClient.Event.Undisturbed]) ho
  have := h _ _ _ _ o (fun _ => rfl) (by decide) (by decide) hrun (by rw [hc]; decide) (by rw [hc]; decide)
  rw [hr] at this
  cases this

end PsiphonAndroid
