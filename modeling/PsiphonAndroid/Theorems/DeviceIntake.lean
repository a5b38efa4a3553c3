import PsiphonAndroid.Net.Device

/-!
# What the device intake accepts

`process_device_udp_packet` read against the bytes of the packet: `ValidIpv4`, `ValidUdpLength` and `udpWordSum` are stated on the
raw bytes with the offsets of RFC 791 and RFC 768, without the header structs. The intake looks at no fragmentation field and
takes a zero checksum field for a checksum, and `udp_checksum` does not replace a computed zero, so what it accepts is
`CheckedDatagram` and not `RfcDatagram`. The two agree on a packet unless it is of one of the three kinds `Misjudged` names.
-/

namespace PsiphonAndroid

open Lib

/-! ## The packet, read from its bytes -/

/-- The header length the IHL field names, in bytes. -/
def headerLength (d : Bytes) : Nat := (byteAt d 0).toNat % 16 * 4

/-- The total length field. -/
def totalLength (d : Bytes) : Nat := (readBe16 d 2).toNat

/-- The header and its options, with the checksum field taken as zero. -/
def zeroedHeader (d : Bytes) : Bytes := memcpy (slice d 0 (headerLength d)) 10 [0, 0]

/-- The bytes start with an IPv4 packet: version 4, `20 ≤ IHL*4 ≤ total length ≤ bytes read`, and a header checksum equal to the
one's complement of the one's-complement sum of the header. -/
structure ValidIpv4 (d : Bytes) : Prop where
  read : 20 ≤ d.length
  version : (byteAt d 0).toNat / 16 = 4
  ihl : 20 ≤ headerLength d
  total : headerLength d ≤ totalLength d
  whole : totalLength d ≤ d.length
  checksum : (readBe16 d 10).toNat = 65535 - ocSum (words (zeroedHeader d))

/-- The more-fragments flag and the fragment offset are zero. -/
def Unfragmented (d : Bytes) : Prop := (readBe16 d 6).toNat % 2 ^ 14 = 0

/-- The UDP length field. -/
def udpLength (d : Bytes) : Nat := (readBe16 d (headerLength d + 4)).toNat

/-- The UDP length is between 8 and the length of the IP payload. -/
def ValidUdpLength (d : Bytes) : Prop := 8 ≤ udpLength d ∧ udpLength d ≤ totalLength d - headerLength d

/-- The UDP payload. -/
def udpPayload (d : Bytes) : Bytes := slice d (headerLength d + 8) (udpLength d - 8)

/-- The UDP checksum field. -/
def udpChecksumField (d : Bytes) : Nat := (readBe16 d (headerLength d + 6)).toNat

/-- The one's-complement sum of pseudo-header, UDP header with a zero checksum field, and payload. -/
def udpWordSum (d : Bytes) : Nat :=
  ocSum (words (slice d 12 8 ++ [0, 17] ++ slice d (headerLength d + 4) 2 ++ (slice d (headerLength d) 6 ++ [0, 0]) ++
    udpPayload d))

/-- The checksum RFC 768 prescribes for a sum: its one's complement, a computed zero being sent as `0xFFFF`. -/
def rfc768 (sum : Nat) : Nat := if sum = 65535 then 65535 else 65535 - sum

/-- Source, destination and payload of the datagram in the packet. -/
def packetDatagram (d : Bytes) : BAddr × BAddr × Bytes :=
  (.ipv4 (readBe32 d 12) (readBe16 d (headerLength d)), .ipv4 (readBe32 d 16) (readBe16 d (headerLength d + 2)), udpPayload d)

/-- An IPv4 packet with a UDP datagram small enough for udpgw, its fragmentation and its UDP checksum left aside. -/
def WellFormedUdp (udpMtu : Nat) (d : Bytes) : Prop :=
  ValidIpv4 d ∧ byteAt d 9 = protocolUdp ∧ ValidUdpLength d ∧ (udpPayload d).length ≤ udpMtu

/-- The packet is an unfragmented IPv4 packet with a UDP datagram as RFC 768 has it (a zero checksum field meaning none), small
enough for udpgw, and `x` is its datagram. -/
def RfcDatagram (udpMtu : Nat) (d : Bytes) (x : BAddr × BAddr × Bytes) : Prop :=
  WellFormedUdp udpMtu d ∧ Unfragmented d ∧ (udpChecksumField d = 0 ∨ udpChecksumField d = rfc768 (udpWordSum d)) ∧
    x = packetDatagram d

/-- What the intake accepts: any fragmentation field is taken, and the checksum field must hold the complement of the sum. -/
def CheckedDatagram (udpMtu : Nat) (d : Bytes) (x : BAddr × BAddr × Bytes) : Prop :=
  WellFormedUdp udpMtu d ∧ udpChecksumField d = 65535 - udpWordSum d ∧ x = packetDatagram d

/-- The packets the intake takes wrongly. They are well formed, and are a fragment with the complement of the sum in the checksum
field, or a whole datagram without a checksum whose sum has a complement other than zero, or a whole datagram whose computed checksum
is zero and was sent as `0xFFFF`. -/
def Misjudged (udpMtu : Nat) (d : Bytes) : Prop :=
  WellFormedUdp udpMtu d ∧
    ((¬Unfragmented d ∧ udpChecksumField d = 65535 - udpWordSum d) ∨
      (Unfragmented d ∧ udpChecksumField d = 0 ∧ udpWordSum d ≠ 65535) ∨
      (Unfragmented d ∧ udpChecksumField d = 65535 ∧ udpWordSum d = 65535))

namespace IntakeAux

/-- The UDP header in the packet, with the given checksum field. -/
def packetUdpHeader (d : Bytes) (checksum : UInt16) : UdpHeader where
  sourcePort := readBe16 d (headerLength d)
  destPort := readBe16 d (headerLength d + 2)
  length := readBe16 d (headerLength d + 4)
  checksum := checksum

/-- Laying the header out with a zero checksum, followed by the options, gives the packet's header with that field zeroed. -/
theorem zeroed_eq {d : Bytes} (h20 : 20 ≤ headerLength d) (hl : headerLength d ≤ d.length) :
    ({ Ipv4Header.ofBytes d with checksum := 0 } : Ipv4Header).toBytes ++ (d.drop 20).take (headerLength d - 20) =
      zeroedHeader d := by
  have hb := Ipv4Header.toBytes_ofBytes (d := d) (by omega)
  have h1 : [byteAt d 0] ++ [byteAt d 1] ++ be16 (readBe16 d 2) ++ be16 (readBe16 d 4) ++ be16 (readBe16 d 6) ++
      [byteAt d 8] ++ [byteAt d 9] = slice d 0 10 := by
    have := congrArg (List.take 10) hb
    rw [take_slice _ _ _ _ (by omega)] at this
    simpa [Ipv4Header.toBytes, Ipv4Header.ofBytes, be16] using this
  have h2 : be32 (readBe32 d 12) ++ be32 (readBe32 d 16) = slice d 12 8 := by
    rw [be32_readBe32 (by omega), be32_readBe32 (by omega), slice_append d 12 4 4]
  have h3 : slice d 12 8 ++ (d.drop 20).take (headerLength d - 20) = slice d 12 (headerLength d - 12) := by
    rw [← slice, slice_append d 12 8]
    congr 1
    omega
  have hz : be16 (0 : UInt16) = [0, 0] := by decide
  rw [zeroedHeader, memcpy, take_slice _ _ _ _ (by omega), drop_slice, List.length_cons, List.length_singleton]
  simp only [Nat.zero_add, Nat.reduceAdd]
  rw [← h3, ← h2, ← h1]
  simp only [Ipv4Header.toBytes, Ipv4Header.ofBytes, hz, List.append_assoc]

/-- `ipv4_check` accepts exactly the valid IPv4 packets, and hands on the header and the IP payload. -/
theorem ipv4Check_eq (d : Bytes) [Decidable (ValidIpv4 d)] :
    ipv4Check d = if ValidIpv4 d then
      some (Ipv4Header.ofBytes d, slice d (headerLength d) (totalLength d - headerLength d)) else none := by
  have hihl : ipv4GetIhl (Ipv4Header.ofBytes d) * 4 = headerLength d := rfl
  have hver : ipv4GetVersion (Ipv4Header.ofBytes d) = (byteAt d 0).toNat / 16 := rfl
  have htot : (Ipv4Header.ofBytes d).totalLength.toNat = totalLength d := rfl
  have hcs : (Ipv4Header.ofBytes d).checksum = readBe16 d 10 := rfl
  have h60 : headerLength d % 4 = 0 ∧ headerLength d ≤ 60 := by
    unfold headerLength
    omega
  by_cases hv : 20 ≤ d.length ∧ (byteAt d 0).toNat / 16 = 4 ∧ 20 ≤ headerLength d ∧ headerLength d ≤ totalLength d ∧
      totalLength d ≤ d.length
  · obtain ⟨h1, h2, h3, h4, h5⟩ := hv
    have hsum : ipv4Checksum { Ipv4Header.ofBytes d with checksum := 0 } (d.drop 20) (headerLength d - 20) =
        UInt16.ofNat (65535 - ocSum (words (zeroedHeader d))) := by
      rw [ipv4Checksum_eq (by omega) (by rw [List.length_drop]; omega) (by omega), zeroed_eq h3 (by omega)]
    have hoc := ocSum_lt (words_lt (zeroedHeader d))
    have hiff : readBe16 d 10 = UInt16.ofNat (65535 - ocSum (words (zeroedHeader d))) ↔
        (readBe16 d 10).toNat = 65535 - ocSum (words (zeroedHeader d)) := by
      rw [← UInt16.toNat_inj, UInt16.toNat_ofNat', Nat.mod_eq_of_lt (by omega)]
    have hval : ValidIpv4 d ↔ readBe16 d 10 = UInt16.ofNat (65535 - ocSum (words (zeroedHeader d))) :=
      ⟨fun h => hiff.mpr h.checksum, fun h => ⟨h1, h2, h3, h4, h5, hiff.mp h⟩⟩
    simp only [ipv4Check, sizeofIpv4Header, hihl, hver, htot, hcs, hsum, hval]
    rw [if_neg (by omega), if_neg (by omega), if_neg (by omega), if_neg (by omega), if_neg (by omega), if_neg (by omega)]
    by_cases hc : readBe16 d 10 = UInt16.ofNat (65535 - ocSum (words (zeroedHeader d)))
    · rw [if_neg (not_not_intro hc), if_pos hc]
    · rw [if_pos hc, if_neg hc]
  · rw [if_neg (fun h => hv ⟨h.read, h.version, h.ihl, h.total, h.whole⟩)]
    simp only [ipv4Check, sizeofIpv4Header, hihl, hver, htot]
    split_ifs <;> first | rfl | (exfalso; omega)

/-- `udp_check` on the IP payload accepts exactly the valid lengths. -/
theorem udpCheck_eq {d : Bytes} (hv : ValidIpv4 d) [Decidable (ValidUdpLength d)] :
    udpCheck (slice d (headerLength d) (totalLength d - headerLength d)) = if ValidUdpLength d then
      some (packetUdpHeader d (readBe16 d (headerLength d + 6)), udpPayload d) else none := by
  have h4 := hv.total
  have h5 := hv.whole
  have hlen : (slice d (headerLength d) (totalLength d - headerLength d)).length = totalLength d - headerLength d :=
    length_slice_of_le (by omega)
  by_cases h8 : 8 ≤ totalLength d - headerLength d
  · have hh : UdpHeader.ofBytes (slice d (headerLength d) (totalLength d - headerLength d)) =
        packetUdpHeader d (readBe16 d (headerLength d + 6)) := by
      rw [packetUdpHeader, UdpHeader.ofBytes, readBe16_slice (by omega), readBe16_slice (by omega), readBe16_slice (by omega),
        readBe16_slice (by omega), Nat.add_zero]
    simp only [udpCheck, hlen, hh, sizeofUdpHeader]
    rw [if_neg (by omega)]
    change (if udpLength d < 8 then none else
      if 8 + (totalLength d - headerLength d - 8) < udpLength d then none else _) = _
    by_cases hu : ValidUdpLength d
    · obtain ⟨h6, h7⟩ := hu
      rw [if_neg (by omega), if_neg (by omega), if_pos ⟨h6, h7⟩]
      change some (_, slice (slice d _ _) 8 (udpLength d - 8)) = _
      rw [slice_slice _ _ _ _ _ (by omega), udpPayload]
    · rw [if_neg hu]
      unfold ValidUdpLength at hu
      split_ifs <;> first | rfl | (exfalso; omega)
  · rw [if_neg (fun h => h8 (by unfold ValidUdpLength at h; omega))]
    simp only [udpCheck, hlen, sizeofUdpHeader]
    rw [if_pos (by omega)]

/-- The sum over the parsed headers is the sum over the packet's bytes. -/
theorem udpSum_eq {d : Bytes} (hv : ValidIpv4 d) (hu : ValidUdpLength d) :
    udpSum (packetUdpHeader d 0) (udpPayload d) (readBe32 d 12) (readBe32 d 16) = udpWordSum d := by
  have h3 := hv.ihl
  have h4 := hv.total
  have h5 := hv.whole
  obtain ⟨h6, h7⟩ := hu
  have hp : (udpPayload d).length = udpLength d - 8 := length_slice_of_le (by omega)
  have hl : UInt16.ofNat (sizeofUdpHeader + (udpPayload d).length) = readBe16 d (headerLength d + 4) := by
    rw [← UInt16.toNat_inj, UInt16.toNat_ofNat', hp, sizeofUdpHeader, Nat.add_sub_cancel' h6]
    exact Nat.mod_eq_of_lt (UInt16.toNat_lt _)
  have ha : be32 (readBe32 d 12) ++ be32 (readBe32 d 16) = slice d 12 8 := by
    rw [be32_readBe32 (by omega), be32_readBe32 (by omega), slice_append d 12 4 4]
  have hs : be16 (readBe16 d (headerLength d)) ++ be16 (readBe16 d (headerLength d + 2)) ++
      be16 (readBe16 d (headerLength d + 4)) = slice d (headerLength d) 6 := by
    rw [be16_readBe16 (by omega), be16_readBe16 (by omega), be16_readBe16 (by omega), slice_append d _ 2 2,
      slice_append d _ 4 2]
  have hz : be16 (0 : UInt16) = [0, 0] := by decide
  have h17 : be16 protocolUdp.toUInt16 = [0, 17] := by decide
  rw [udpSum, udpSummed, hl, ha, h17, be16_readBe16 (show headerLength d + 4 + 2 ≤ d.length by omega), udpWordSum, UdpHeader.toBytes]
  simp only [packetUdpHeader]
  rw [hs, hz]

theorem udpWordSum_lt (d : Bytes) : udpWordSum d < 65536 := ocSum_lt (words_lt _)

/-- The whole intake chain on an IPv4 packet, as one condition on its bytes. -/
theorem parseDeviceIpv4_datagram (o : DeviceOptions) (d : Bytes) (x : BAddr × BAddr × Bytes) :
    (parseDeviceIpv4 o d).map UdpSubmit.datagram = some x ↔
      ValidIpv4 d ∧ byteAt d 9 = protocolUdp ∧ ValidUdpLength d ∧ udpChecksumField d = 65535 - udpWordSum d ∧
        x = packetDatagram d := by
  classical
  by_cases hpre : d.length < sizeofIpv4Header ∨ byteAt d 9 ≠ protocolUdp
  · rw [parseDeviceIpv4, if_pos hpre]
    simp only [Option.map_none, reduceCtorEq, false_iff, not_and]
    intro hv hp
    rcases hpre with h | h
    · simp only [sizeofIpv4Header] at h
      exact absurd hv.read (by omega)
    · exact absurd hp h
  rw [parseDeviceIpv4, if_neg hpre, ipv4Check_eq]
  have hp : byteAt d 9 = protocolUdp := not_not.mp (fun h => hpre (Or.inr h))
  by_cases hv : ValidIpv4 d
  swap
  · simp [hv]
  simp only [if_pos hv, udpCheck_eq hv]
  by_cases hu : ValidUdpLength d
  swap
  · simp [hu]
  simp only [if_pos hu, packetUdpHeader]
  rw [← packetUdpHeader]
  have hlen : (udpPayload d).length ≤ 65527 := by
    have := (readBe16 d (headerLength d + 4)).toNat_lt
    have : udpLength d = (readBe16 d (headerLength d + 4)).toNat := rfl
    rw [udpPayload, length_slice]
    omega
  have hlt := udpWordSum_lt d
  have hcs : readBe16 d (headerLength d + 6) =
      udpChecksum (packetUdpHeader d 0) (udpPayload d) (Ipv4Header.ofBytes d).sourceAddress
        (Ipv4Header.ofBytes d).destinationAddress ↔ udpChecksumField d = 65535 - udpWordSum d := by
    rw [udpChecksum_eq _ _ _ hlen, ← UInt16.toNat_inj, UInt16.toNat_ofNat']
    change _ = (65535 - udpSum _ _ (readBe32 d 12) (readBe32 d 16)) % _ ↔ _
    rw [udpSum_eq hv hu, Nat.mod_eq_of_lt (by omega), udpChecksumField]
  by_cases hc : udpChecksumField d = 65535 - udpWordSum d
  · rw [if_neg (not_not_intro (hcs.mpr hc))]
    simp only [Option.map_some, Option.some.injEq, hv, hp, hu, hc, true_and]
    exact eq_comm
  · rw [if_pos (fun h => hc (hcs.mp h))]
    simp [hc]

/-- With udpgw configured and IPv6 disabled, the intake submits the datagram of a packet exactly when the packet is well formed and
its checksum field holds the complement of the sum. -/
theorem processDeviceUdpPacket_datagram {o : DeviceOptions} (d : Bytes) (hg : o.udpgwRemoteServerAddr = true)
    (h6 : o.netifIp6addr = false) (x : BAddr × BAddr × Bytes) :
    (processDeviceUdpPacket o d).map UdpSubmit.datagram = some x ↔ CheckedDatagram o.udpMtu d x := by
  have hparse : ∀ x, (parseDeviceUdp o d).map UdpSubmit.datagram = some x ↔
      ValidIpv4 d ∧ byteAt d 9 = protocolUdp ∧ ValidUdpLength d ∧ udpChecksumField d = 65535 - udpWordSum d ∧
        x = packetDatagram d := by
    intro x
    by_cases h4 : 0 < d.length ∧ (byteAt d 0).toNat / 16 = 4
    · rw [parseDeviceUdp, if_pos h4.1, if_pos h4.2]
      exact parseDeviceIpv4_datagram o d x
    · have hn : parseDeviceUdp o d = none := by
        simp only [parseDeviceUdp, parseDeviceIpv6, h6]
        split_ifs <;> first | rfl | (exfalso; simp_all)
      rw [hn]
      simp only [Option.map_none, reduceCtorEq, false_iff]
      intro h
      exact h4 ⟨by have := h.1.read; omega, h.1.version⟩
  rw [processDeviceUdpPacket, hg, if_neg (by simp)]
  unfold CheckedDatagram WellFormedUdp
  cases hpd : parseDeviceUdp o d with
  | none =>
    have hno := hparse x
    rw [hpd] at hno
    simp only [Option.map_none, reduceCtorEq, false_iff] at hno ⊢
    rintro ⟨⟨k1, k2, k3, -⟩, k4, k5⟩
    exact hno ⟨k1, k2, k3, k4, k5⟩
  | some s =>
    obtain ⟨k1, k2, k3, k4, k5⟩ := (hparse s.datagram).mp (by rw [hpd]; rfl)
    have hdat : s.data = udpPayload d := congrArg (fun t => t.2.2) k5
    by_cases hm : o.udpMtu < s.data.length
    · simp only [if_pos hm, Option.map_none, reduceCtorEq, false_iff]
      rw [hdat] at hm
      exact fun h => absurd h.1.2.2.2 (by omega)
    · simp only [if_neg hm, Option.map_some, Option.some.injEq]
      rw [hdat] at hm
      rw [k5]
      exact ⟨fun h => ⟨⟨k1, k2, k3, by omega⟩, k4, h.symm⟩, fun h => h.2.2.symm⟩

/-- Where the two conditions on fragmentation and checksum agree. -/
theorem judged_iff {sum field : Nat} (hs : sum < 65536) (u : Prop) :
    (field = 65535 - sum ↔ u ∧ (field = 0 ∨ field = rfc768 sum)) ↔
      ¬((¬u ∧ field = 65535 - sum) ∨ (u ∧ field = 0 ∧ sum ≠ 65535) ∨ (u ∧ field = 65535 ∧ sum = 65535)) := by
  unfold rfc768
  by_cases hu : u
  · simp only [hu, true_and, not_true_eq_false, false_and, false_or]
    split <;> omega
  · simp only [hu, false_and, not_false_eq_true, true_and, iff_false, or_false]

/-- A packet that is well formed is judged alike by the intake and the RFCs unless it is misjudged; any other is refused by both. -/
theorem agree_iff (udpMtu : Nat) (d : Bytes) :
    (∀ x, CheckedDatagram udpMtu d x ↔ RfcDatagram udpMtu d x) ↔ ¬Misjudged udpMtu d := by
  unfold CheckedDatagram RfcDatagram Misjudged
  by_cases hw : WellFormedUdp udpMtu d
  · simp only [hw, true_and]
    rw [← judged_iff (udpWordSum_lt d)]
    constructor
    · intro h
      have hx := h (packetDatagram d)
      simpa only [and_true] using hx
    · intro h x
      rw [h, and_assoc]
  · simp [hw]

end IntakeAux

open IntakeAux

/-- With udpgw configured and IPv6 disabled. For a packet, the intake returns 1 and submits source, destination and payload exactly
when the bytes are an unfragmented IPv4 packet with a valid header, protocol 17, a UDP length between 8 and the IP payload's, no
checksum or the one RFC 768 prescribes, and a payload udpgw takes, and returns 0 and submits nothing in every other case, if and only
if the packet is not one of those it misjudges. -/
theorem intake_exact_iff (o : DeviceOptions) (d : Bytes) (hg : o.udpgwRemoteServerAddr = true) (h6 : o.netifIp6addr = false) :
    ((∀ x, (processDeviceUdpPacket o d).map UdpSubmit.datagram = some x ↔ RfcDatagram o.udpMtu d x) ∧
      (processDeviceUdpPacket o d = none ↔ ∀ x, ¬RfcDatagram o.udpMtu d x)) ↔ ¬Misjudged o.udpMtu d := by
  rw [← agree_iff]
  constructor
  · rintro ⟨hsome, -⟩ x
    rw [← processDeviceUdpPacket_datagram d hg h6]
    exact hsome x
  · intro h
    have hsome : ∀ x, (processDeviceUdpPacket o d).map UdpSubmit.datagram = some x ↔ RfcDatagram o.udpMtu d x := fun x =>
      (processDeviceUdpPacket_datagram d hg h6 x).trans (h x)
    refine ⟨hsome, ?_⟩
    simp only [← hsome]
    cases processDeviceUdpPacket o d with
    | none => simp
    | some submit => simp

/-- The intake with udpgw configured and IPv6 disabled, taking payloads of at most 1472 bytes. -/
def plainOptions : DeviceOptions := ⟨true, false, false, 0, 1472⟩

/-- A two-byte DNS datagram, from 10.0.0.2 port 1024 to 8.8.8.8 port 53. -/
def wholePacket : Bytes :=
  [69, 0, 0, 30, 0, 1, 0, 0, 64, 17, 96, 189, 10, 0, 0, 2, 8, 8, 8, 8, 4, 0, 0, 53, 0, 10, 224, 145, 1, 2]

/-- The same bytes with the more-fragments flag set. -/
def fragmentPacket : Bytes :=
  [69, 0, 0, 30, 0, 1, 32, 0, 64, 17, 64, 189, 10, 0, 0, 2, 8, 8, 8, 8, 4, 0, 0, 53, 0, 10, 224, 145, 1, 2]

/-- The same datagram sent without a checksum. -/
def uncheckedPacket : Bytes :=
  [69, 0, 0, 30, 0, 1, 0, 0, 64, 17, 96, 189, 10, 0, 0, 2, 8, 8, 8, 8, 4, 0, 0, 53, 0, 10, 0, 0, 1, 2]

/-- A datagram without payload from 10.0.0.1 port 60326 to 10.0.0.2 port 53, whose computed checksum is zero and is sent as
`0xFFFF`. -/
def zeroSumPacket : Bytes :=
  [69, 0, 0, 28, 0, 1, 0, 0, 64, 17, 102, 206, 10, 0, 0, 1, 10, 0, 0, 2, 235, 166, 0, 53, 0, 8, 255, 255]

/-- The ordinary datagram is judged as the RFCs have it, and accepted. -/
theorem intake_exact_iff_whole :
    (∀ x, (processDeviceUdpPacket plainOptions wholePacket).map UdpSubmit.datagram = some x ↔ RfcDatagram 1472 wholePacket x) ∧
      processDeviceUdpPacket plainOptions wholePacket ≠ none := by
  have hfield : udpChecksumField wholePacket = 57489 := by decide
  have hfragment : Unfragmented wholePacket := by
    unfold Unfragmented
    decide
  have hjudged : ¬Misjudged 1472 wholePacket := by
    rintro ⟨-, ⟨h, -⟩ | ⟨-, h, -⟩ | ⟨-, h, -⟩⟩
    · exact h hfragment
    · omega
    · omega
  exact ⟨((intake_exact_iff plainOptions wholePacket rfl rfl).mpr hjudged).1, by decide +kernel⟩

/-- The intake does not accept exactly the datagrams of the RFCs: it refuses a datagram sent without a checksum and one whose computed
checksum is zero and was sent as `0xFFFF`, and it submits a packet with the more-fragments flag set. -/
theorem intake_is_not_rfc :
    (processDeviceUdpPacket plainOptions uncheckedPacket = none ∧
        RfcDatagram 1472 uncheckedPacket (.ipv4 0x0A000002 1024, .ipv4 0x08080808 53, [1, 2])) ∧
      (processDeviceUdpPacket plainOptions zeroSumPacket = none ∧
        RfcDatagram 1472 zeroSumPacket (.ipv4 0x0A000001 60326, .ipv4 0x0A000002 53, [])) ∧
      ((processDeviceUdpPacket plainOptions fragmentPacket).map UdpSubmit.datagram =
        some (.ipv4 0x0A000002 1024, .ipv4 0x08080808 53, [1, 2]) ∧ ∀ x, ¬RfcDatagram 1472 fragmentPacket x) := by
  refine ⟨⟨by decide +kernel, ?_⟩, ⟨by decide +kernel, ?_⟩, by decide +kernel, ?_⟩
  · have hv : ValidIpv4 uncheckedPacket :=
      ⟨by decide, by decide, by decide, by decide, by decide, by decide +kernel⟩
    exact ⟨⟨hv, by decide, ⟨by decide, by decide⟩, by decide⟩, by unfold Unfragmented; decide, Or.inl (by decide), by decide⟩
  · have hv : ValidIpv4 zeroSumPacket :=
      ⟨by decide, by decide, by decide, by decide, by decide, by decide +kernel⟩
    exact ⟨⟨hv, by decide, ⟨by decide, by decide⟩, by decide⟩, by unfold Unfragmented; decide, Or.inr (by decide +kernel), by decide⟩
  · intro x h
    exact absurd h.2.1 (by unfold Unfragmented; decide)

end PsiphonAndroid
