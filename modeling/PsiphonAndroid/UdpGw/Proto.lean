import PsiphonAndroid.Addr

/-!
# The UDP gateway protocol

`protocol/udpgw_proto.h`: a packet of the gateway protocol is a header (flags and a connection id), the address of the remote
peer and the datagram. The client and the server write a packet in the same way (`connection_send` and
`connection_send_to_client`) and take it apart in the same way (`recv_interface_handler_send` and
`client_recv_if_handler_send`), so the two are here once.
-/

namespace PsiphonAndroid

open Lib

/-- `UDPGW_CLIENT_FLAG_KEEPALIVE`. -/
abbrev udpgwClientFlagKeepalive : UInt8 := 1

/-- `UDPGW_CLIENT_FLAG_REBIND`. -/
abbrev udpgwClientFlagRebind : UInt8 := 2

/-- `UDPGW_CLIENT_FLAG_DNS`. -/
abbrev udpgwClientFlagDns : UInt8 := 4

/-- `UDPGW_CLIENT_FLAG_IPV6`. -/
abbrev udpgwClientFlagIpv6 : UInt8 := 8

/-- `flags & flag`. -/
def hasFlag (flags flag : UInt8) : Bool := flags &&& flag != 0

/-- `sizeof(struct udpgw_header)`. -/
abbrev sizeofUdpgwHeader : Nat := 3

/-- `sizeof(struct udpgw_addr_ipv4)`. -/
abbrev sizeofUdpgwAddrIpv4 : Nat := 6

/-- `sizeof(struct udpgw_addr_ipv6)`. -/
abbrev sizeofUdpgwAddrIpv6 : Nat := 18

/-- `udpgw_compute_mtu`, on the sizes for which it does not overflow. -/
def udpgwComputeMtu (dgramMtu : Nat) : Nat := sizeofUdpgwHeader + (max sizeofUdpgwAddrIpv4 sizeofUdpgwAddrIpv6 + dgramMtu)

/-! ## Writing -/

/-- `struct udpgw_header`. -/
def udpgwHeader (flags : UInt8) (conid : UInt16) : Bytes := flags :: le16 conid

/-- `struct udpgw_addr_ipv4` or `struct udpgw_addr_ipv6`, by the type of the address. -/
def udpgwAddr : BAddr → Bytes
  | .none => []
  | .ipv4 ip port => be32 ip ++ be16 port
  | .ipv6 ip port => ip.bytes ++ be16 port

/-- The flags of a packet: `UDPGW_CLIENT_FLAG_IPV6` is added for an IPv6 address. -/
def udpgwFlags (flags : UInt8) (addr : BAddr) : UInt8 := if addr.type = 2 then flags ||| udpgwClientFlagIpv6 else flags

/-- A packet as it is written to a buffer. -/
def udpgwPacket (flags : UInt8) (conid : UInt16) (addr : BAddr) (data : Bytes) : Bytes :=
  udpgwHeader (udpgwFlags flags addr) conid ++ (udpgwAddr addr ++ data)

/-! ## Parsing -/

/-- The header: flags, connection id and the rest. -/
def parseHeader (data : Bytes) : Option (UInt8 × UInt16 × Bytes) :=
  if data.length < sizeofUdpgwHeader then none else some (byteAt data 0, readLe16 data 1, data.drop sizeofUdpgwHeader)

/-- The address, of the family the flags name, and the rest. -/
def parseAddr (flags : UInt8) (data : Bytes) : Option (BAddr × Bytes) :=
  if hasFlag flags udpgwClientFlagIpv6 then
    if h : data.length < sizeofUdpgwAddrIpv6 then none
    else
      let addrIp : Ipv6Addr := ⟨slice data 0 16, length_slice_of_le (Nat.le_trans (by decide) (Nat.le_of_not_lt h))⟩
      some (.ipv6 addrIp (readBe16 data 16), data.drop sizeofUdpgwAddrIpv6)
  else if data.length < sizeofUdpgwAddrIpv4 then none
  else some (.ipv4 (readBe32 data 0) (readBe16 data 4), data.drop sizeofUdpgwAddrIpv4)

/-! ## Parsing undoes writing -/

theorem length_udpgwAddr_le (addr : BAddr) : (udpgwAddr addr).length ≤ 18 := by
  cases addr with
  | none => decide
  | ipv4 ip port => simp [udpgwAddr, be32, be16]
  | ipv6 ip port => simp [udpgwAddr, be16, ip.length_eq]

theorem length_udpgwPacket (flags : UInt8) (conid : UInt16) (addr : BAddr) (data : Bytes) :
    (udpgwPacket flags conid addr data).length = 3 + ((udpgwAddr addr).length + data.length) := by
  simp [udpgwPacket, udpgwHeader, le16]
  omega

/-- A datagram that fits the datagram size makes a packet that fits the gateway's. -/
theorem length_udpgwPacket_le {mtu : Nat} {data : Bytes} (flags : UInt8) (conid : UInt16) (addr : BAddr) (h : data.length ≤ mtu) :
    (udpgwPacket flags conid addr data).length ≤ udpgwComputeMtu mtu := by
  have ha := length_udpgwAddr_le addr
  have hm : udpgwComputeMtu mtu = 3 + (18 + mtu) := rfl
  rw [length_udpgwPacket, hm]
  omega

/-- A flag is in the union of two sets of flags when it is in one of them. -/
theorem hasFlag_or (a b flag : UInt8) : hasFlag (a ||| b) flag = (hasFlag a flag || hasFlag b flag) := by
  unfold hasFlag
  have hd : (a ||| b) &&& flag = a &&& flag ||| b &&& flag := by
    rw [← UInt8.toBitVec_inj]
    simp only [UInt8.toBitVec_and, UInt8.toBitVec_or, BitVec.and_or_distrib_right]
  rw [Bool.eq_iff_iff, Bool.or_eq_true, bne_iff_ne, bne_iff_ne, bne_iff_ne, hd, ne_eq, UInt8.or_eq_zero_iff, not_and_or]

/-- The flags but `UDPGW_CLIENT_FLAG_IPV6` are the ones asked for. -/
theorem hasFlag_udpgwFlags {flag : UInt8} (flags : UInt8) (addr : BAddr) (h : hasFlag udpgwClientFlagIpv6 flag = false) :
    hasFlag (udpgwFlags flags addr) flag = hasFlag flags flag := by
  unfold udpgwFlags
  split
  · rw [hasFlag_or, h, Bool.or_false]
  · rfl

theorem parseHeader_packet (flags : UInt8) (conid : UInt16) (addr : BAddr) (data : Bytes) :
    parseHeader (udpgwPacket flags conid addr data) = some (udpgwFlags flags addr, conid, udpgwAddr addr ++ data) := by
  have hl : ¬(udpgwPacket flags conid addr data).length < sizeofUdpgwHeader := by
    rw [length_udpgwPacket]
    exact Nat.not_lt.mpr (Nat.le_add_right _ _)
  have hc : readLe16 (udpgwPacket flags conid addr data) 1 = conid := readLe16_le16 conid (udpgwAddr addr ++ data)
  unfold parseHeader
  rw [if_neg hl, hc]
  rfl

/-- The address a packet is written with is read back from it, when the flags do not name IPv6 for an IPv4 address. -/
theorem parseAddr_packet {flags : UInt8} {addr : BAddr} (hip : addr.IsIp)
    (hf : addr.type = 2 ∨ hasFlag flags udpgwClientFlagIpv6 = false)
    (data : Bytes) : parseAddr (udpgwFlags flags addr) (udpgwAddr addr ++ data) = some (addr, data) := by
  cases addr with
  | none => exact absurd hip (by decide)
  | ipv4 ip port =>
    have hl : ¬(udpgwAddr (.ipv4 ip port) ++ data).length < sizeofUdpgwAddrIpv4 := by
      simp [udpgwAddr, be32, be16]
      exact Nat.le_add_left 6 _
    have hip : readBe32 (udpgwAddr (.ipv4 ip port) ++ data) 0 = ip := by
      rw [udpgwAddr, List.append_assoc, readBe32_be32]
    have hport : readBe16 (udpgwAddr (.ipv4 ip port) ++ data) 4 = port := by
      rw [udpgwAddr, List.append_assoc]
      exact (readBe16_append_right (be32 ip) (be16 port ++ data) 0).trans (readBe16_be16 port data)
    have hflags : udpgwFlags flags (.ipv4 ip port) = flags := rfl
    have hf : hasFlag flags udpgwClientFlagIpv6 = false := hf.resolve_left (by simp [BAddr.type])
    unfold parseAddr
    rw [hflags, if_neg (by rw [hf]; exact Bool.false_ne_true), if_neg hl, hip, hport]
    rfl
  | ipv6 ip port =>
    have hl : ¬(udpgwAddr (.ipv6 ip port) ++ data).length < sizeofUdpgwAddrIpv6 := by
      simp [udpgwAddr, be16, ip.length_eq]
      exact Nat.add_le_add_left (Nat.le_add_left 2 _) 16
    have hbytes : slice (udpgwAddr (.ipv6 ip port) ++ data) 0 16 = ip.bytes := by
      unfold slice
      rw [List.drop_zero, udpgwAddr, List.append_assoc, List.take_left' ip.length_eq]
    have hport : readBe16 (udpgwAddr (.ipv6 ip port) ++ data) 16 = port := by
      have := readBe16_append_right ip.bytes (be16 port ++ data) 0
      rw [ip.length_eq, readBe16_be16] at this
      rw [udpgwAddr, List.append_assoc]
      exact this
    have hdrop : (udpgwAddr (.ipv6 ip port) ++ data).drop sizeofUdpgwAddrIpv6 = data := by
      exact List.drop_left' (by simp [udpgwAddr, be16, ip.length_eq])
    have hflags : hasFlag (udpgwFlags flags (.ipv6 ip port)) udpgwClientFlagIpv6 = true := by
      rw [udpgwFlags, if_pos (by rfl), hasFlag_or, show hasFlag udpgwClientFlagIpv6 udpgwClientFlagIpv6 = true from rfl, Bool.or_true]
    unfold parseAddr
    rw [if_pos hflags, dif_neg hl]
    simp only [hbytes, hport, hdrop]

end PsiphonAndroid
