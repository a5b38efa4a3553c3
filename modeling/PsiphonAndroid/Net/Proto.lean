import PsiphonAndroid.Addr
import PsiphonAndroid.Lib.OnesComplement

/-!
# IPv4, IPv6 and UDP headers

`misc/ipv4_proto.h`, `misc/ipv6_proto.h` and `misc/udp_proto.h`: the packed header structs, the two checksum routines and
the checks that parse a header off the front of a buffer. A 16- or 32-bit field holds the number it stands for on the wire
(`ntoh16` of the source's field); `toBytes` is the struct as it lies in memory and `ofBytes` the `memcpy` out of a buffer, so
the two together are the struct layout. The accumulators of the checksums are 32-bit: every addition is taken modulo `2^32`.
-/

namespace PsiphonAndroid

open Lib

/-! ## Header layouts -/

/-- `struct ipv4_header`. -/
structure Ipv4Header where
  version4Ihl4 : UInt8
  ds : UInt8
  totalLength : UInt16
  identification : UInt16
  flags3Fragmentoffset13 : UInt16
  ttl : UInt8
  protocol : UInt8
  checksum : UInt16
  sourceAddress : UInt32
  destinationAddress : UInt32
  deriving DecidableEq

/-- `struct ipv6_header`. -/
structure Ipv6Header where
  version4Tc4 : UInt8
  tc4Fl4 : UInt8
  fl : UInt16
  payloadLength : UInt16
  nextHeader : UInt8
  hopLimit : UInt8
  sourceAddress : Ipv6Addr
  destinationAddress : Ipv6Addr
  deriving DecidableEq

/-- `struct udp_header`. -/
structure UdpHeader where
  sourcePort : UInt16
  destPort : UInt16
  length : UInt16
  checksum : UInt16
  deriving DecidableEq

/-- The header as it lies in memory. -/
def Ipv4Header.toBytes (h : Ipv4Header) : Bytes :=
  [h.version4Ihl4] ++ [h.ds] ++ be16 h.totalLength ++ be16 h.identification ++ be16 h.flags3Fragmentoffset13 ++ [h.ttl] ++
    [h.protocol] ++ be16 h.checksum ++ be32 h.sourceAddress ++ be32 h.destinationAddress

/-- The header read from the first twenty bytes of a buffer. -/
def Ipv4Header.ofBytes (d : Bytes) : Ipv4Header where
  version4Ihl4 := byteAt d 0
  ds := byteAt d 1
  totalLength := readBe16 d 2
  identification := readBe16 d 4
  flags3Fragmentoffset13 := readBe16 d 6
  ttl := byteAt d 8
  protocol := byteAt d 9
  checksum := readBe16 d 10
  sourceAddress := readBe32 d 12
  destinationAddress := readBe32 d 16

/-- The sixteen bytes of an address read from a buffer, zeros past its end. -/
def Ipv6Addr.ofBytes (d : Bytes) (off : Nat) : Ipv6Addr where
  bytes := (List.range 16).map (fun i => byteAt d (off + i))
  length_eq := by simp

/-- The header as it lies in memory. -/
def Ipv6Header.toBytes (h : Ipv6Header) : Bytes :=
  [h.version4Tc4] ++ [h.tc4Fl4] ++ be16 h.fl ++ be16 h.payloadLength ++ [h.nextHeader] ++ [h.hopLimit] ++
    h.sourceAddress.bytes ++ h.destinationAddress.bytes

/-- The header read from the first forty bytes of a buffer. -/
def Ipv6Header.ofBytes (d : Bytes) : Ipv6Header where
  version4Tc4 := byteAt d 0
  tc4Fl4 := byteAt d 1
  fl := readBe16 d 2
  payloadLength := readBe16 d 4
  nextHeader := byteAt d 6
  hopLimit := byteAt d 7
  sourceAddress := Ipv6Addr.ofBytes d 8
  destinationAddress := Ipv6Addr.ofBytes d 24

/-- The header as it lies in memory. -/
def UdpHeader.toBytes (h : UdpHeader) : Bytes :=
  be16 h.sourcePort ++ be16 h.destPort ++ be16 h.length ++ be16 h.checksum

/-- The header read from the first eight bytes of a buffer. -/
def UdpHeader.ofBytes (d : Bytes) : UdpHeader where
  sourcePort := readBe16 d 0
  destPort := readBe16 d 2
  length := readBe16 d 4
  checksum := readBe16 d 6

/-- `sizeof(struct ipv4_header)`. -/
abbrev sizeofIpv4Header : Nat := 20

/-- `sizeof(struct ipv6_header)`. -/
abbrev sizeofIpv6Header : Nat := 40

/-- `sizeof(struct udp_header)`. -/
abbrev sizeofUdpHeader : Nat := 8

/-- `IPV4_PROTOCOL_UDP` and `IPV6_NEXT_UDP`. -/
def protocolUdp : UInt8 := 17

/-- `IPV4_GET_VERSION`. -/
def ipv4GetVersion (h : Ipv4Header) : Nat := h.version4Ihl4.toNat / 16

/-- `IPV4_GET_IHL`. -/
def ipv4GetIhl (h : Ipv4Header) : Nat := h.version4Ihl4.toNat % 16

/-- `IPV4_MAKE_VERSION_IHL`. -/
def ipv4MakeVersionIhl (size : Nat) : UInt8 := UInt8.ofNat (size / 4 + 64)

/-! ## Checksums -/

/-- The loop `for (i = 0; i < n; i++) t += badvpn_read_be16(data + 2 * i)` on a 32-bit accumulator. -/
def addWords (data : Bytes) (n t : Nat) : Nat :=
  (List.range n).foldl (fun t i => (t + (readBe16 data (2 * i)).toNat) % 2 ^ 32) t

/-- The loop `while (t >> 16) t = (t & 0xFFFF) + (t >> 16)`; three turns are more than a 32-bit accumulator takes
(`Lib.foldCarries_lt`). -/
def foldChecksum (t : Nat) : Nat := foldCarries 3 t

/-- `~t`, cut to 16 bits. -/
def complement16 (t : Nat) : UInt16 := UInt16.ofNat (2 ^ 32 - 1 - t)

/-- `ipv4_checksum`. -/
def ipv4Checksum (header : Ipv4Header) (extra : Bytes) (extraLen : Nat) : UInt16 :=
  let t := addWords header.toBytes (sizeofIpv4Header / 2) 0
  let t := addWords extra (extraLen / 2) t
  complement16 (foldChecksum t)

/-- `udp_checksum_summer`. -/
def udpChecksumSummer (data : Bytes) (len : Nat) : Nat := addWords data (len / 2) 0

/-- The tail both UDP checksums share: the header, the payload (a last odd byte is the high byte of a word), the folding and
the complement, from the accumulator `t` of the pseudo-header. -/
def udpChecksumFinish (t : Nat) (header : UdpHeader) (payload : Bytes) : UInt16 :=
  let t := (t + udpChecksumSummer header.toBytes sizeofUdpHeader) % 2 ^ 32
  let t :=
    if payload.length % 2 = 0 then
      (t + udpChecksumSummer payload payload.length) % 2 ^ 32
    else
      let t := (t + udpChecksumSummer payload (payload.length - 1)) % 2 ^ 32
      (t + udpChecksumSummer [byteAt payload (payload.length - 1), 0] 2) % 2 ^ 32
  let t := foldChecksum t
  let t := if t = 0 then 65535 else t
  complement16 t

/-- `udp_checksum`. -/
def udpChecksum (header : UdpHeader) (payload : Bytes) (sourceAddr destAddr : UInt32) : UInt16 :=
  let t := udpChecksumSummer (be32 sourceAddr) 4
  let t := (t + udpChecksumSummer (be32 destAddr) 4) % 2 ^ 32
  let t := (t + udpChecksumSummer (be16 protocolUdp.toUInt16) 2) % 2 ^ 32
  let t := (t + udpChecksumSummer (be16 (UInt16.ofNat (sizeofUdpHeader + payload.length))) 2) % 2 ^ 32
  udpChecksumFinish t header payload

/-- `udp_ip6_checksum`. -/
def udpIp6Checksum (header : UdpHeader) (payload : Bytes) (sourceAddr destAddr : Ipv6Addr) : UInt16 :=
  let t := udpChecksumSummer sourceAddr.bytes 16
  let t := (t + udpChecksumSummer destAddr.bytes 16) % 2 ^ 32
  let t := (t + udpChecksumSummer (be32 (UInt32.ofNat (sizeofUdpHeader + payload.length))) 4) % 2 ^ 32
  let t := (t + udpChecksumSummer (be32 protocolUdp.toUInt32) 4) % 2 ^ 32
  udpChecksumFinish t header payload

/-! ## Checks -/

/-- `ipv4_check`: the header and the payload, when the buffer starts with a whole IPv4 packet. -/
def ipv4Check (data : Bytes) : Option (Ipv4Header × Bytes) :=
  if data.length < sizeofIpv4Header then none else
  let outHeader := Ipv4Header.ofBytes data
  if ipv4GetVersion outHeader ≠ 4 then none else
  let headerLen := ipv4GetIhl outHeader * 4
  if headerLen < sizeofIpv4Header then none else
  if data.length < headerLen then none else
  let totalLength := outHeader.totalLength.toNat
  if totalLength < headerLen then none else
  if data.length < totalLength then none else
  let checksumInPacket := outHeader.checksum
  let checksumComputed :=
    ipv4Checksum { outHeader with checksum := 0 } (data.drop sizeofIpv4Header) (headerLen - sizeofIpv4Header)
  if checksumInPacket ≠ checksumComputed then none else
  some (outHeader, slice data headerLen (totalLength - headerLen))

/-- `ipv6_check`: the header and the payload, when the buffer starts with a whole IPv6 packet. -/
def ipv6Check (data : Bytes) : Option (Ipv6Header × Bytes) :=
  if data.length < sizeofIpv6Header then none else
  let outHeader := Ipv6Header.ofBytes data
  if outHeader.version4Tc4.toNat / 16 ≠ 6 then none else
  let payloadLength := outHeader.payloadLength.toNat
  if data.length - sizeofIpv6Header < payloadLength then none else
  some (outHeader, slice data sizeofIpv6Header payloadLength)

/-- `udp_check`: the header and the payload, when the buffer starts with a whole UDP datagram; stray data is ignored. -/
def udpCheck (data : Bytes) : Option (UdpHeader × Bytes) :=
  if data.length < sizeofUdpHeader then none else
  let outHeader := UdpHeader.ofBytes data
  let dataLen := data.length - sizeofUdpHeader
  let udpLength := outHeader.length.toNat
  if udpLength < sizeofUdpHeader then none else
  if sizeofUdpHeader + dataLen < udpLength then none else
  some (outHeader, slice data sizeofUdpHeader (udpLength - sizeofUdpHeader))

/-! ## The layouts are read back -/

@[simp] theorem Ipv4Header.length_toBytes (h : Ipv4Header) : h.toBytes.length = 20 := by
  simp [Ipv4Header.toBytes]

@[simp] theorem Ipv6Header.length_toBytes (h : Ipv6Header) : h.toBytes.length = 40 := by
  simp [Ipv6Header.toBytes, h.sourceAddress.length_eq, h.destinationAddress.length_eq]

@[simp] theorem UdpHeader.length_toBytes (h : UdpHeader) : h.toBytes.length = 8 := by
  simp [UdpHeader.toBytes]

theorem Ipv4Header.ofBytes_version4Ihl4 (d : Bytes) : (Ipv4Header.ofBytes d).version4Ihl4 = byteAt d 0 := rfl

theorem Ipv4Header.ofBytes_totalLength (d : Bytes) : (Ipv4Header.ofBytes d).totalLength = readBe16 d 2 := rfl

theorem Ipv4Header.ofBytes_protocol (d : Bytes) : (Ipv4Header.ofBytes d).protocol = byteAt d 9 := rfl

theorem Ipv6Header.ofBytes_version4Tc4 (d : Bytes) : (Ipv6Header.ofBytes d).version4Tc4 = byteAt d 0 := rfl

theorem Ipv6Header.ofBytes_payloadLength (d : Bytes) : (Ipv6Header.ofBytes d).payloadLength = readBe16 d 4 := rfl

theorem Ipv6Header.ofBytes_nextHeader (d : Bytes) : (Ipv6Header.ofBytes d).nextHeader = byteAt d 6 := rfl

theorem UdpHeader.ofBytes_length (d : Bytes) : (UdpHeader.ofBytes d).length = readBe16 d 4 := rfl

/-- A 16-bit integer split into bytes and put together again. -/
theorem join_be16 (x : UInt16) : UInt16.ofNat ((UInt8.ofNat (x.toNat / 256)).toNat * 256 + (UInt8.ofNat x.toNat).toNat) = x := by
  have := readBe16_be16 x []
  simpa [readBe16, be16] using this

/-- A 32-bit integer split into 16-bit halves and put together again. -/
theorem join_be32 (x : UInt32) :
    UInt32.ofNat ((UInt16.ofNat (x.toNat / 65536)).toNat * 65536 + (UInt16.ofNat x.toNat).toNat) = x := by
  have := x.toNat_lt
  rw [← UInt32.toNat_inj]
  simp only [UInt16.toNat_ofNat', UInt32.toNat_ofNat']
  omega

/-- A header copied out of a buffer that starts with it. -/
theorem Ipv4Header.ofBytes_toBytes (h : Ipv4Header) (rest : Bytes) : Ipv4Header.ofBytes (h.toBytes ++ rest) = h := by
  simp only [Ipv4Header.toBytes, Ipv4Header.ofBytes, be32, be16, readBe32, readBe16, List.cons_append,
    List.nil_append, byteAt_cons_zero, byteAt_cons_succ, join_be16, join_be32, Nat.reduceAdd]

/-- A header copied out of a buffer that starts with it. -/
theorem UdpHeader.ofBytes_toBytes (h : UdpHeader) (rest : Bytes) : UdpHeader.ofBytes (h.toBytes ++ rest) = h := by
  simp only [UdpHeader.toBytes, UdpHeader.ofBytes, be16, readBe16, List.cons_append,
    List.nil_append, byteAt_cons_zero, byteAt_cons_succ, join_be16, Nat.reduceAdd]

/-- An address read where it lies. -/
theorem Ipv6Addr.ofBytes_append (a : Bytes) (addr : Ipv6Addr) (rest : Bytes) :
    Ipv6Addr.ofBytes (a ++ (addr.bytes ++ rest)) a.length = addr := by
  obtain ⟨l, hl⟩ := addr
  simp only [Ipv6Addr.ofBytes, Ipv6Addr.mk.injEq]
  apply List.ext_getElem
  · simp [hl]
  · intro i h1 h2
    rw [List.getElem_map, List.getElem_range, byteAt_append_right, byteAt_append_left h2]
    simp [byteAt, h2]

/-- A header copied out of a buffer that starts with it. -/
theorem Ipv6Header.ofBytes_toBytes (h : Ipv6Header) (rest : Bytes) : Ipv6Header.ofBytes (h.toBytes ++ rest) = h := by
  have hs : Ipv6Addr.ofBytes (h.toBytes ++ rest) 8 = h.sourceAddress := by
    have := Ipv6Addr.ofBytes_append (h.toBytes.take 8) h.sourceAddress (h.destinationAddress.bytes ++ rest)
    simpa [Ipv6Header.toBytes, be16] using this
  have hd : Ipv6Addr.ofBytes (h.toBytes ++ rest) 24 = h.destinationAddress := by
    have := Ipv6Addr.ofBytes_append (h.toBytes.take 8 ++ h.sourceAddress.bytes) h.destinationAddress rest
    simpa [Ipv6Header.toBytes, be16, h.sourceAddress.length_eq] using this
  rw [Ipv6Header.ofBytes, hs, hd]
  simp only [Ipv6Header.toBytes, be16, readBe16, List.append_assoc, List.cons_append,
    List.nil_append, byteAt_cons_zero, byteAt_cons_succ, join_be16, Nat.reduceAdd]

/-- Copying a header out of a buffer and laying it out again gives the bytes it was read from. -/
theorem Ipv4Header.toBytes_ofBytes {d : Bytes} (h : 20 ≤ d.length) : (Ipv4Header.ofBytes d).toBytes = slice d 0 20 := by
  simp only [Ipv4Header.toBytes, Ipv4Header.ofBytes]
  rw [← slice_one (by omega), ← slice_one (by omega), ← slice_one (by omega), ← slice_one (by omega),
    be16_readBe16 (by omega), be16_readBe16 (by omega), be16_readBe16 (by omega), be16_readBe16 (by omega),
    be32_readBe32 (by omega), be32_readBe32 (by omega)]
  simp only [slice_append d 0 1 1, slice_append d 0 2 2, slice_append d 0 4 2, slice_append d 0 6 2, slice_append d 0 8 1,
    slice_append d 0 9 1, slice_append d 0 10 2, slice_append d 0 12 4, slice_append d 0 16 4, Nat.reduceAdd]

end PsiphonAndroid
