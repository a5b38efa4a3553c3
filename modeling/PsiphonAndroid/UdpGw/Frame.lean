import PsiphonAndroid.Net.Proto
import PsiphonAndroid.UdpGw.Gateway

/-!
# Frames at the level of memory

`misc/bsize.h` and `udpgw_compute_mtu` with the widths of `int` and `size_t`, and the two readers of a frame with every `memcpy`
out of the packet checked against its end. The checked readers never leave the packet and do what the models of
`recv_interface_handler_send` and `client_recv_if_handler_send` do (`recvInterfaceHandlerSendChecked_eq`,
`clientRecvIfHandlerSendChecked_eq`).
-/

namespace PsiphonAndroid

open Lib

/-! ## Sizes -/

/-- `INT_MAX`. -/
abbrev intMax : Nat := 2 ^ 31 - 1

/-- `SIZE_MAX`, where a `size_t` has `w` bits. -/
def sizeMax (w : Nat) : Nat := 2 ^ w - 1

/-- The conversion of an `int` to a `size_t`. -/
def intToSize (w : Nat) (v : Int) : Nat := (v % 2 ^ w).toNat

/-- `bsize_t`: a size and whether it has overflowed. -/
structure BSize where
  isOverflow : Bool
  value : Nat
  deriving DecidableEq

/-- `bsize_fromsize`. -/
def bsizeFromsize (v : Nat) : BSize := ⟨false, v⟩

/-- `bsize_fromint`. -/
def bsizeFromint (w : Nat) (v : Int) : BSize := ⟨decide (v < 0) || decide (sizeMax w < intToSize w v), intToSize w v⟩

/-- `bsize_toint`. -/
def bsizeToint (s : BSize) : Option Int := if s.isOverflow || decide (intMax < s.value) then none else some s.value

/-- `bsize_add`. -/
def bsizeAdd (w : Nat) (s1 s2 : BSize) : BSize :=
  ⟨s1.isOverflow || s2.isOverflow || decide (sizeMax w - s1.value < s2.value), (s1.value + s2.value) % 2 ^ w⟩

/-- `bsize_max`. -/
def bsizeMax (w : Nat) (s1 s2 : BSize) : BSize :=
  ⟨s1.isOverflow || s2.isOverflow,
    ((if s2.value < s1.value then 1 else 0) * s1.value + (if s1.value ≤ s2.value then 1 else 0) * s2.value) % 2 ^ w⟩

/-- `udpgw_compute_mtu`, where a `size_t` has `w` bits. -/
def udpgwComputeMtuInt (w : Nat) (dgramMtu : Int) : Int :=
  let bs := bsizeAdd w (bsizeFromsize sizeofUdpgwHeader)
    (bsizeAdd w (bsizeMax w (bsizeFromsize sizeofUdpgwAddrIpv4) (bsizeFromsize sizeofUdpgwAddrIpv6)) (bsizeFromint w dgramMtu))
  match bsizeToint bs with
  | none => -1
  | some s => s

namespace FrameAux

/-- Where a `size_t` has at least 32 bits. -/
theorem two_pow_le {w : Nat} (hw : 32 ≤ w) : 4294967296 ≤ 2 ^ w := by
  have := Nat.pow_le_pow_right (show 0 < 2 by decide) hw
  simpa using this

/-- The larger of the two addresses is the one of IPv6. -/
theorem bsizeMax_addrs {w : Nat} (hw : 32 ≤ w) :
    bsizeMax w (bsizeFromsize sizeofUdpgwAddrIpv4) (bsizeFromsize sizeofUdpgwAddrIpv6) = ⟨false, 18⟩ := by
  have hpow := two_pow_le hw
  have hmod : 18 % 2 ^ w = 18 := Nat.mod_eq_of_lt (by omega)
  simp [bsizeMax, bsizeFromsize, sizeofUdpgwAddrIpv4, sizeofUdpgwAddrIpv6, hmod]

/-- An overflow stays one. -/
theorem bsizeAdd_overflow (w : Nat) (s : BSize) {s2 : BSize} (h : s2.isOverflow = true) : (bsizeAdd w s s2).isOverflow = true := by
  simp [bsizeAdd, h]

/-- Sizes far from the end of the range are added as numbers. -/
theorem bsizeAdd_eq {w a b : Nat} (hw : 32 ≤ w) (h : a + b < 4294967296) : bsizeAdd w ⟨false, a⟩ ⟨false, b⟩ = ⟨false, a + b⟩ := by
  have hpow := two_pow_le hw
  have hfit : ¬ 2 ^ w - 1 - a < b := by omega
  simp [bsizeAdd, sizeMax, hfit, Nat.mod_eq_of_lt (show a + b < 2 ^ w by omega)]

/-- An `int` that is no negative number is its own size. -/
theorem bsizeFromint_of_nonneg {w : Nat} (hw : 32 ≤ w) {v : Int} (h0 : 0 ≤ v) (hv : v ≤ 2147483647) :
    bsizeFromint w v = ⟨false, v.toNat⟩ := by
  have hpow := two_pow_le hw
  have hmod : intToSize w v = v.toNat := by
    have hlt : v < 2 ^ w := by
      have : (4294967296 : Int) ≤ 2 ^ w := by exact_mod_cast hpow
      omega
    rw [intToSize, Int.emod_eq_of_lt h0 hlt]
  have hneg : ¬ v < 0 := by omega
  have hfit : ¬ 2 ^ w - 1 < v.toNat := by omega
  simp only [bsizeFromint, hmod, sizeMax, hneg, hfit, decide_false, Bool.or_self]

end FrameAux

open FrameAux

/-- `udpgw_compute_mtu` gives the exact sum, or `-1` for a negative argument and for a sum that is no `int`. -/
theorem udpgwComputeMtuInt_eq {w : Nat} (hw : 32 ≤ w) {dgramMtu : Int} (h : dgramMtu ≤ intMax) :
    udpgwComputeMtuInt w dgramMtu = if dgramMtu < 0 ∨ (intMax : Int) < 21 + dgramMtu then -1 else 21 + dgramMtu := by
  have hmax : (intMax : Int) = 2147483647 := rfl
  rw [hmax] at h ⊢
  unfold udpgwComputeMtuInt
  rw [bsizeMax_addrs hw]
  by_cases h0 : dgramMtu < 0
  · have hov : (bsizeFromint w dgramMtu).isOverflow = true := by simp [bsizeFromint, h0]
    have hsum := bsizeAdd_overflow w (bsizeFromsize sizeofUdpgwHeader) (bsizeAdd_overflow w ⟨false, 18⟩ hov)
    simp [bsizeToint, hsum, h0]
  · have hheader : bsizeFromsize sizeofUdpgwHeader = ⟨false, 3⟩ := rfl
    rw [bsizeFromint_of_nonneg hw (by omega) h, bsizeAdd_eq hw (by omega), hheader, bsizeAdd_eq hw (by omega)]
    by_cases hfit : 2147483647 < 3 + (18 + dgramMtu.toNat)
    · have hnone : bsizeToint ⟨false, 3 + (18 + dgramMtu.toNat)⟩ = none := by
        simp [bsizeToint, intMax, hfit]
      rw [if_pos (by omega)]
      simp only [hnone]
    · have hsome : bsizeToint ⟨false, 3 + (18 + dgramMtu.toNat)⟩ = some ((3 + (18 + dgramMtu.toNat) : Nat) : Int) := by
        simp only [bsizeToint, intMax, Nat.reducePow, Nat.reduceSub, hfit, decide_false, Bool.or_self, Bool.false_eq_true, if_false]
      rw [if_neg (by omega)]
      simp only [hsome]
      omega

/-! ## Reading a frame -/

/-- A read that leaves the packet. -/
inductive ReadFault where
  | outOfBounds
  deriving DecidableEq

/-- `memcpy` of `n` bytes out of a packet, from `data` on. -/
def readPacket (packet : Bytes) (data n : Nat) : Except ReadFault Bytes :=
  if data + n ≤ packet.length then .ok (slice packet data n) else .error .outOfBounds

/-- What a reader has not read yet: `data`, as a place in the packet, and `data_len`. -/
structure Unread where
  data : Nat
  dataLen : Nat
  deriving DecidableEq

/-- `data += n; data_len -= n`. -/
def Unread.advance (u : Unread) (n : Nat) : Unread := ⟨u.data + n, u.dataLen - n⟩

/-- The header of a packet. -/
def readHeader (packet : Bytes) (u : Unread) : Except ReadFault (Option (UInt8 × UInt16 × Unread)) :=
  if u.dataLen < sizeofUdpgwHeader then .ok none else do
    let header ← readPacket packet u.data sizeofUdpgwHeader
    .ok (some (byteAt header 0, readLe16 header 1, u.advance sizeofUdpgwHeader))

/-- The address of a packet, of the family the flags name. -/
def readAddr (packet : Bytes) (flags : UInt8) (u : Unread) : Except ReadFault (Option (BAddr × Unread)) :=
  if hasFlag flags udpgwClientFlagIpv6 then
    if u.dataLen < sizeofUdpgwAddrIpv6 then .ok none else do
      let addrIpv6 ← readPacket packet u.data sizeofUdpgwAddrIpv6
      .ok (some (.ipv6 (Ipv6Addr.ofBytes addrIpv6 0) (readBe16 addrIpv6 16), u.advance sizeofUdpgwAddrIpv6))
  else
    if u.dataLen < sizeofUdpgwAddrIpv4 then .ok none else do
      let addrIpv4 ← readPacket packet u.data sizeofUdpgwAddrIpv4
      .ok (some (.ipv4 (readBe32 addrIpv4 0) (readBe16 addrIpv4 4), u.advance sizeofUdpgwAddrIpv4))

/-- The reading of a packet up to its payload; the server, not the client, leaves a keepalive at its header. -/
def readFrame (atServer : Bool) (packet : Bytes) : Except ReadFault (Option (UInt8 × UInt16 × BAddr × Unread)) := do
  match ← readHeader packet ⟨0, packet.length⟩ with
  | none => .ok none
  | some (flags, conid, u) =>
    if atServer && hasFlag flags udpgwClientFlagKeepalive then .ok none else
    match ← readAddr packet flags u with
    | none => .ok none
    | some (addr, u) => .ok (some (flags, conid, addr, u))

/-- `client_recv_if_handler_send`, with its reads checked; the payload is read where it is sent. -/
def GatewayServer.clientRecvIfHandlerSendChecked (s : GatewayServer) (packet : Bytes) (owner : ConAddr) (initOk : Bool) :
    Except ReadFault ((GatewayServer × Option ConAddr) × Bytes) := do
  match ← readFrame true packet with
  | none => .ok ((s, none), [])
  | some (flags, conid, origAddr, u) =>
    if s.udpMtu < u.dataLen then .ok ((s, none), []) else do
      let data ← readPacket packet u.data u.dataLen
      match s.closeOld flags conid origAddr with
      | (s, some con) => .ok ((s.moveToFront con, some con.owner), data)
      | (s, none) => .ok ((s.makeRoom.connectionInit conid origAddr owner initOk, if initOk then some owner else none), data)

/-- `recv_interface_handler_send`, with its reads checked; the payload is read by `handler_received`. -/
def UdpGwClient.recvInterfaceHandlerSendChecked (o : UdpGwClient) (packet : Bytes) : Except ReadFault UdpGwClient.Outcome :=
  if !o.haveServer then .ok (.error .assertion) else
  if o.udpgwMtu < packet.length then .ok (.error .assertion) else do
    match ← readFrame false packet with
    | none => .ok (.ok (o, []))
    | some (_, conid, remoteAddr, u) =>
      if o.udpMtu < u.dataLen then .ok (.ok (o, [])) else
      match o.findConnectionByConid conid with
      | none => .ok (.ok (o, []))
      | some con =>
        if (o.mem con).conaddr.remoteAddr.compareOrder remoteAddr ≠ 0 then .ok (.ok (o, [])) else do
          let data ← readPacket packet u.data u.dataLen
          .ok (.ok (o.moveToFront con, [.received (o.mem con).conaddr.localAddr (o.mem con).conaddr.remoteAddr data]))

namespace FrameAux

/-- The reader's place when `rest` is what it has not read of the packet. -/
def unreadOf (packet rest : Bytes) : Unread := ⟨packet.length - rest.length, rest.length⟩

theorem readPacket_eq {packet : Bytes} {data n : Nat} (h : data + n ≤ packet.length) :
    readPacket packet data n = .ok (slice packet data n) := if_pos h

/-- A whole address is the sixteen bytes it is read from. -/
theorem ofBytes_eq {d : Bytes} {h : (slice d 0 16).length = 16} : Ipv6Addr.ofBytes d 0 = ⟨slice d 0 16, h⟩ := by
  simp only [Ipv6Addr.ofBytes, Ipv6Addr.mk.injEq]
  apply List.ext_getElem
  · simpa using h.symm
  · intro i h1 h2
    have hi : i < d.length := by
      simp only [length_slice] at h h2
      omega
    simp [slice, byteAt, hi]

/-- A read at the reader's place gives the first bytes of what it has not read. -/
theorem readPacket_rest (pre : Bytes) {rest : Bytes} {n : Nat} (h : n ≤ rest.length) :
    readPacket (pre ++ rest) (unreadOf (pre ++ rest) rest).data n = .ok (rest.take n) := by
  have hl : (unreadOf (pre ++ rest) rest).data = pre.length := by simp [unreadOf]
  rw [hl, readPacket_eq (by simp only [List.length_append]; omega)]
  simp [slice]

theorem advance_rest (pre : Bytes) {rest : Bytes} {n : Nat} (h : n ≤ rest.length) :
    (unreadOf (pre ++ rest) rest).advance n = unreadOf (pre ++ rest) (rest.drop n) := by
  simp only [unreadOf, Unread.advance, List.length_drop, Unread.mk.injEq, and_true, List.length_append]
  omega

theorem byteAt_take (l : Bytes) {n i : Nat} (h : i < n) : byteAt (l.take n) i = byteAt l i := by
  have := @byteAt_slice l 0 n i h
  simpa [slice] using this

/-- The checked reading of a header is the parsing of it. -/
theorem readHeader_eq (packet : Bytes) :
    readHeader packet ⟨0, packet.length⟩ =
      .ok ((parseHeader packet).map fun h => (h.1, h.2.1, unreadOf packet h.2.2)) := by
  have hu : (⟨0, packet.length⟩ : Unread) = unreadOf ([] ++ packet) packet := by simp [unreadOf]
  have hd : (unreadOf ([] ++ packet) packet).dataLen = packet.length := rfl
  unfold readHeader parseHeader
  rw [hu, hd]
  by_cases h : packet.length < sizeofUdpgwHeader
  · simp only [h, if_true, Option.map_none]
  · have hr := readPacket_rest [] (Nat.not_lt.mp h)
    have ha := advance_rest [] (Nat.not_lt.mp h)
    rw [List.nil_append] at hr ha
    simp only [h, if_false, List.nil_append, hr, ha, bind, Except.bind, Option.map_some, readLe16]
    rw [byteAt_take _ (by decide), byteAt_take _ (by decide), byteAt_take _ (by decide)]

/-- The checked reading of an address is the parsing of it. -/
theorem readAddr_eq {packet : Bytes} (flags : UInt8) {rest : Bytes} (hs : rest <:+ packet) :
    readAddr packet flags (unreadOf packet rest) =
      .ok ((parseAddr flags rest).map fun a => (a.1, unreadOf packet a.2)) := by
  obtain ⟨pre, rfl⟩ := hs
  have hd : (unreadOf (pre ++ rest) rest).dataLen = rest.length := rfl
  unfold readAddr parseAddr
  rw [hd]
  by_cases hf : hasFlag flags udpgwClientFlagIpv6 = true
  · rw [if_pos hf, if_pos hf]
    by_cases h : rest.length < sizeofUdpgwAddrIpv6
    · simp only [h, if_true, dif_pos, Option.map_none]
    · have h18 : slice (rest.take 18) 0 16 = slice rest 0 16 := by simp [slice, List.take_take]
      have hl : (slice (rest.take 18) 0 16).length = 16 := by
        rw [h18]
        exact length_slice_of_le (Nat.le_trans (by decide) (Nat.not_lt.mp h))
      simp only [h, if_false, dif_neg, not_false_iff, readPacket_rest pre (Nat.not_lt.mp h), advance_rest pre (Nat.not_lt.mp h),
        bind, Except.bind, Option.map_some, readBe16]
      rw [byteAt_take _ (by decide), byteAt_take _ (by decide), ofBytes_eq (h := hl)]
      simp only [h18]
  · rw [if_neg hf, if_neg hf]
    by_cases h : rest.length < sizeofUdpgwAddrIpv4
    · simp only [h, if_true, Option.map_none]
    · simp only [h, if_false, readPacket_rest pre (Nat.not_lt.mp h), advance_rest pre (Nat.not_lt.mp h), bind, Except.bind,
        Option.map_some, readBe32, readBe16]
      rw [byteAt_take _ (by decide), byteAt_take _ (by decide), byteAt_take _ (by decide), byteAt_take _ (by decide),
        byteAt_take _ (by decide), byteAt_take _ (by decide)]

/-- What follows the header is a suffix of the packet. -/
theorem suffix_of_parseHeader {packet rest : Bytes} {flags : UInt8} {conid : UInt16}
    (h : parseHeader packet = some (flags, conid, rest)) : rest <:+ packet := by
  unfold parseHeader at h
  split at h
  · nomatch h
  · simp only [Option.some.injEq, Prod.mk.injEq] at h
    obtain ⟨-, -, rfl⟩ := h
    exact List.drop_suffix _ _

/-- What follows the address is a suffix of what follows the header. -/
theorem suffix_of_parseAddr {flags : UInt8} {rest data : Bytes} {addr : BAddr} (h : parseAddr flags rest = some (addr, data)) :
    data <:+ rest := by
  unfold parseAddr at h
  split at h <;> split at h <;> simp only [Option.some.injEq, Prod.mk.injEq, reduceCtorEq] at h
  all_goals
    obtain ⟨-, rfl⟩ := h
    exact List.drop_suffix _ _

/-- The whole reader stays inside the packet. -/
theorem readFrame_eq (atServer : Bool) (packet : Bytes) :
    readFrame atServer packet = .ok ((parseHeader packet).bind fun h =>
      if atServer && hasFlag h.1 udpgwClientFlagKeepalive then none
      else (parseAddr h.1 h.2.2).map fun a => (h.1, h.2.1, a.1, unreadOf packet a.2)) := by
  unfold readFrame
  rw [readHeader_eq]
  cases hp : parseHeader packet with
  | none => rfl
  | some h =>
    obtain ⟨flags, conid, rest⟩ := h
    simp only [bind, Except.bind, Option.map_some, Option.bind_some]
    split
    · rfl
    · rw [readAddr_eq flags (suffix_of_parseHeader hp)]
      cases parseAddr flags rest <;> rfl

end FrameAux

/-- The checked reader of the client never leaves the packet, and does what the model of `recv_interface_handler_send` does. -/
theorem recvInterfaceHandlerSendChecked_eq (o : UdpGwClient) (packet : Bytes) :
    o.recvInterfaceHandlerSendChecked packet = .ok (o.recvInterfaceHandlerSend packet) := by
  unfold UdpGwClient.recvInterfaceHandlerSendChecked UdpGwClient.recvInterfaceHandlerSend
  split
  · rfl
  split
  · rfl
  rw [readFrame_eq]
  cases hp : parseHeader packet with
  | none => rfl
  | some h =>
    obtain ⟨flags, conid, rest⟩ := h
    cases ha : parseAddr flags rest with
    | none => simp [bind, Except.bind, ha]
    | some a =>
      obtain ⟨addr, data⟩ := a
      obtain ⟨pre, rfl⟩ := (suffix_of_parseAddr ha).trans (suffix_of_parseHeader hp)
      have hr := readPacket_rest pre (Nat.le_refl data.length)
      have hd : (unreadOf (pre ++ data) data).dataLen = data.length := rfl
      simp only [bind, Except.bind, Option.bind_some, Bool.false_and, Bool.false_eq_true, if_false, ha, Option.map_some, hd, hr,
        List.take_length]
      split
      · rfl
      · cases o.findConnectionByConid conid with
        | none => rfl
        | some con =>
          dsimp only
          split <;> rfl

/-- The checked reader of the server never leaves the packet, and does what the model of `client_recv_if_handler_send` does. -/
theorem clientRecvIfHandlerSendChecked_eq (s : GatewayServer) (packet : Bytes) (owner : ConAddr) (initOk : Bool) :
    ∃ data, s.clientRecvIfHandlerSendChecked packet owner initOk =
      .ok (s.clientRecvIfHandlerSend packet owner initOk, data) := by
  unfold GatewayServer.clientRecvIfHandlerSendChecked GatewayServer.clientRecvIfHandlerSend
  rw [readFrame_eq]
  cases hp : parseHeader packet with
  | none => exact ⟨[], rfl⟩
  | some h =>
    obtain ⟨flags, conid, rest⟩ := h
    simp only [bind, Except.bind, Option.bind_some, Bool.true_and]
    by_cases hk : hasFlag flags udpgwClientFlagKeepalive = true
    · rw [if_pos hk, if_pos hk]
      exact ⟨[], rfl⟩
    · rw [if_neg hk, if_neg hk]
      cases ha : parseAddr flags rest with
      | none => exact ⟨[], rfl⟩
      | some a =>
        obtain ⟨addr, data⟩ := a
        obtain ⟨pre, rfl⟩ := (suffix_of_parseAddr ha).trans (suffix_of_parseHeader hp)
        have hr := readPacket_rest pre (Nat.le_refl data.length)
        have hd : (unreadOf (pre ++ data) data).dataLen = data.length := rfl
        simp only [Option.map_some, hd, hr, List.take_length]
        by_cases hlen : s.udpMtu < data.length
        · rw [if_pos hlen, if_pos hlen]
          exact ⟨[], rfl⟩
        · rw [if_neg hlen, if_neg hlen]
          refine ⟨data, ?_⟩
          rcases s.closeOld flags conid addr with ⟨s', _ | con⟩ <;> rfl

end PsiphonAndroid
