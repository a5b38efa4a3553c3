import PsiphonAndroid.Net.Device

/-!
# UDP packets synthesised for the device parse back

The packet `udpgw_client_handler_received` writes to the device for a datagram of the remote is one the program's own intake
would accept, with source and destination in their places and the payload as it was. The two functions share the header
layouts (`ofBytes_toBytes`) and the checksum routines; nothing is assumed about the value of a checksum.
-/

namespace PsiphonAndroid

open Lib

namespace RoundTripAux

/-- A datagram whose length field is right is parsed whole. -/
theorem udpCheck_toBytes {h : UdpHeader} {data : Bytes} (hl : h.length.toNat = sizeofUdpHeader + data.length) :
    udpCheck (h.toBytes ++ data) = some (h, data) := by
  have hlen : (h.toBytes ++ data).length = 8 + data.length := by simp
  have hs : slice (h.toBytes ++ data) 8 data.length = data := by
    rw [slice, List.drop_append_of_le_length (by simp), List.drop_of_length_le (by simp), List.nil_append, List.take_length]
  simp only [udpCheck, UdpHeader.ofBytes_toBytes, hl, hlen, sizeofUdpHeader]
  rw [if_neg (by omega), if_neg (by omega), if_neg (by omega), Nat.add_sub_cancel_left, hs]

/-- Without options no byte of `extra` is summed. -/
theorem ipv4Checksum_no_options (h : Ipv4Header) (extra : Bytes) : ipv4Checksum h extra 0 = ipv4Checksum h [] 0 := by
  simp [ipv4Checksum, addWords]

/-- An IPv4 packet without options whose length and checksum fields are right is parsed whole. -/
theorem ipv4Check_toBytes {h : Ipv4Header} {payload : Bytes} (hv : h.version4Ihl4 = ipv4MakeVersionIhl sizeofIpv4Header)
    (hl : h.totalLength.toNat = sizeofIpv4Header + payload.length)
    (hc : h.checksum = ipv4Checksum { h with checksum := 0 } [] 0) :
    ipv4Check (h.toBytes ++ payload) = some (h, payload) := by
  have hlen : (h.toBytes ++ payload).length = 20 + payload.length := by simp
  have hver : ipv4GetVersion h = 4 := by rw [ipv4GetVersion, hv]; rfl
  have hihl : ipv4GetIhl h * 4 = 20 := by rw [ipv4GetIhl, hv]; rfl
  have hs : slice (h.toBytes ++ payload) 20 payload.length = payload := by
    rw [slice, List.drop_append_of_le_length (by simp), List.drop_of_length_le (by simp), List.nil_append, List.take_length]
  simp only [ipv4Check, Ipv4Header.ofBytes_toBytes, hver, hihl, hl, hlen, sizeofIpv4Header, Nat.sub_self,
    ipv4Checksum_no_options, ← hc]
  rw [if_neg (by omega), if_neg (by omega), if_neg (by omega), if_neg (by omega), if_neg (by omega), if_neg (by omega),
    if_neg (not_not_intro rfl), Nat.add_sub_cancel_left, hs]

/-- An IPv6 packet whose length field is right is parsed whole. -/
theorem ipv6Check_toBytes {h : Ipv6Header} {payload : Bytes} (hv : h.version4Tc4 = 96)
    (hl : h.payloadLength.toNat = payload.length) : ipv6Check (h.toBytes ++ payload) = some (h, payload) := by
  have hlen : (h.toBytes ++ payload).length = 40 + payload.length := by simp
  have hver : h.version4Tc4.toNat / 16 = 6 := by rw [hv]; rfl
  have hs : slice (h.toBytes ++ payload) 40 payload.length = payload := by
    rw [slice, List.drop_append_of_le_length (by simp), List.drop_of_length_le (by simp), List.nil_append, List.take_length]
  simp only [ipv6Check, Ipv6Header.ofBytes_toBytes, hver, hl, hlen, sizeofIpv6Header]
  rw [if_neg (by omega), if_neg (by omega), if_neg (by omega), hs]

end RoundTripAux

open RoundTripAux

/-- The size checks of `udpgw_client_handler_received`, for a payload of `n` bytes between two addresses of one family; an IPv6
datagram also needs IPv6 to be enabled. -/
def PassesSizeChecks (o : DeviceOptions) (mtu : Int) (n : Nat) : BAddr → BAddr → Prop
  | .ipv4 _ _, .ipv4 _ _ => n ≤ 65535 - 28 ∧ (n : Int) ≤ mtu - 28
  | .ipv6 _ _, .ipv6 _ _ => o.netifIp6addr = true ∧ n ≤ 65535 - 8 ∧ (n : Int) ≤ mtu - 48
  | _, _ => False

/-- The length fields of the packet say its length: for IPv4 the total length and the UDP length, for IPv6 the payload length
and the UDP length. -/
def LengthsExact (pkt : Bytes) (n : Nat) : BAddr → Prop
  | .ipv4 _ _ => (readBe16 pkt 2).toNat = pkt.length ∧ (readBe16 pkt 24).toNat = 8 + n ∧ pkt.length = 28 + n
  | .ipv6 _ _ => (readBe16 pkt 4).toNat = 8 + n ∧ (readBe16 pkt 44).toNat = 8 + n ∧ pkt.length = 48 + n
  | .none => False

/-- The IPv4 case: the packet is built, fits the device, its lengths are exact and the intake gives back the datagram. -/
theorem received_ipv4 (o : DeviceOptions) (mtu : Int) (localIp remoteIp : UInt32) (localPort remotePort : UInt16)
    (data : Bytes) (h1 : data.length ≤ 65535 - 28) (h2 : (data.length : Int) ≤ mtu - 28) :
    ∃ pkt, udpgwClientHandlerReceived o mtu (.ipv4 localIp localPort) (.ipv4 remoteIp remotePort) data = some pkt ∧
      (pkt.length : Int) ≤ mtu ∧ LengthsExact pkt data.length (.ipv4 localIp localPort) ∧
      (parseDeviceUdp o pkt).map UdpSubmit.datagram =
        some (.ipv4 remoteIp remotePort, .ipv4 localIp localPort, data) := by
  obtain ⟨iph, hiph⟩ : ∃ iph, iph = { receivedIpv4Header remoteIp localIp data.length with
    checksum := ipv4Checksum (receivedIpv4Header remoteIp localIp data.length) [] 0 } := ⟨_, rfl⟩
  obtain ⟨udph, hudph⟩ : ∃ udph, udph = { receivedUdpHeader remotePort localPort data.length with
    checksum := udpChecksum (receivedUdpHeader remotePort localPort data.length) data remoteIp localIp } := ⟨_, rfl⟩
  have htl : iph.totalLength.toNat = 28 + data.length := by
    rw [hiph]
    simp only [receivedIpv4Header, UInt16.toNat_ofNat', sizeofIpv4Header, sizeofUdpHeader]
    omega
  have hul : udph.length.toNat = 8 + data.length := by
    rw [hudph]
    simp only [receivedUdpHeader, UInt16.toNat_ofNat', sizeofUdpHeader]
    omega
  have hplen : (udph.toBytes ++ data).length = 8 + data.length := by simp
  have hlen : (iph.toBytes ++ udph.toBytes ++ data).length = 28 + data.length := by simp; omega
  have e1 : Ipv4Header.ofBytes (iph.toBytes ++ udph.toBytes ++ data) = iph := by
    rw [List.append_assoc, Ipv4Header.ofBytes_toBytes]
  have e2 : readBe16 (iph.toBytes ++ udph.toBytes ++ data) 24 = udph.length := by
    have := readBe16_append_right iph.toBytes (udph.toBytes ++ data) 4
    rw [← List.append_assoc, Ipv4Header.length_toBytes] at this
    rw [this, ← UdpHeader.ofBytes_length, UdpHeader.ofBytes_toBytes]
  refine ⟨iph.toBytes ++ udph.toBytes ++ data, ?_, by rw [hlen]; push_cast; omega, ⟨?_, by rw [e2, hul], hlen⟩, ?_⟩
  · simp only [udpgwClientHandlerReceived, sizeofIpv4Header, sizeofUdpHeader]
    rw [if_neg (by omega), hiph, hudph]
    simp only [receivedIpv4Header]
  · rw [hlen, ← htl, ← Ipv4Header.ofBytes_totalLength, e1]
  · have hver : iph.version4Ihl4 = 69 := by rw [hiph]; rfl
    have hprot : iph.protocol = protocolUdp := by rw [hiph]; rfl
    have hv : byteAt (iph.toBytes ++ udph.toBytes ++ data) 0 = 69 := by
      rw [← Ipv4Header.ofBytes_version4Ihl4, e1, hver]
    have hp : byteAt (iph.toBytes ++ udph.toBytes ++ data) 9 = protocolUdp := by
      rw [← Ipv4Header.ofBytes_protocol, e1, hprot]
    have hi : ipv4Check (iph.toBytes ++ udph.toBytes ++ data) = some (iph, udph.toBytes ++ data) := by
      rw [List.append_assoc]
      refine ipv4Check_toBytes (by rw [hiph]; rfl) (by rw [htl, hplen, sizeofIpv4Header]; omega) ?_
      rw [hiph]
      simp only [receivedIpv4Header]
    have hu : udpCheck (udph.toBytes ++ data) = some (udph, data) := udpCheck_toBytes hul
    have hc : udph.checksum = udpChecksum { udph with checksum := 0 } data iph.sourceAddress iph.destinationAddress := by
      rw [hudph, hiph]
      simp only [receivedIpv4Header, receivedUdpHeader]
    have hn : ¬((28 + data.length < 20) ∨ protocolUdp ≠ protocolUdp) := by
      simp only [ne_eq, not_true_eq_false, or_false]
      omega
    have h4 : UInt8.toNat 69 / 16 = 4 := by decide
    simp only [parseDeviceUdp, hv, hlen, if_pos (show 0 < 28 + data.length by omega), h4, if_true, parseDeviceIpv4,
      sizeofIpv4Header, hp, hi, hu, if_neg hn, if_neg (not_not_intro hc), Option.map_some, UdpSubmit.datagram]
    rw [hiph, hudph]
    simp only [receivedIpv4Header, receivedUdpHeader]

/-- The IPv6 case: the packet is built, fits the device, its lengths are exact and the intake gives back the datagram. -/
theorem received_ipv6 (o : DeviceOptions) (mtu : Int) (localIp remoteIp : Ipv6Addr) (localPort remotePort : UInt16)
    (data : Bytes) (h0 : o.netifIp6addr = true) (h1 : data.length ≤ 65535 - 8) (h2 : (data.length : Int) ≤ mtu - 48) :
    ∃ pkt, udpgwClientHandlerReceived o mtu (.ipv6 localIp localPort) (.ipv6 remoteIp remotePort) data = some pkt ∧
      (pkt.length : Int) ≤ mtu ∧ LengthsExact pkt data.length (.ipv6 localIp localPort) ∧
      (parseDeviceUdp o pkt).map UdpSubmit.datagram =
        some (.ipv6 remoteIp remotePort, .ipv6 localIp localPort, data) := by
  obtain ⟨iph, hiph⟩ : ∃ iph, iph = receivedIpv6Header remoteIp localIp data.length := ⟨_, rfl⟩
  obtain ⟨udph, hudph⟩ : ∃ udph, udph = { receivedUdpHeader remotePort localPort data.length with
    checksum := udpIp6Checksum (receivedUdpHeader remotePort localPort data.length) data remoteIp localIp } := ⟨_, rfl⟩
  have hpl : iph.payloadLength.toNat = 8 + data.length := by
    rw [hiph]
    simp only [receivedIpv6Header, UInt16.toNat_ofNat', sizeofUdpHeader]
    omega
  have hul : udph.length.toNat = 8 + data.length := by
    rw [hudph]
    simp only [receivedUdpHeader, UInt16.toNat_ofNat', sizeofUdpHeader]
    omega
  have hplen : (udph.toBytes ++ data).length = 8 + data.length := by simp
  have hlen : (iph.toBytes ++ udph.toBytes ++ data).length = 48 + data.length := by simp; omega
  have e1 : Ipv6Header.ofBytes (iph.toBytes ++ udph.toBytes ++ data) = iph := by
    rw [List.append_assoc, Ipv6Header.ofBytes_toBytes]
  have e2 : readBe16 (iph.toBytes ++ udph.toBytes ++ data) 44 = udph.length := by
    have := readBe16_append_right iph.toBytes (udph.toBytes ++ data) 4
    rw [← List.append_assoc, Ipv6Header.length_toBytes] at this
    rw [this, ← UdpHeader.ofBytes_length, UdpHeader.ofBytes_toBytes]
  refine ⟨iph.toBytes ++ udph.toBytes ++ data, ?_, by rw [hlen]; push_cast; omega, ⟨?_, by rw [e2, hul], hlen⟩, ?_⟩
  · simp only [udpgwClientHandlerReceived, h0, sizeofIpv6Header, sizeofUdpHeader]
    rw [if_neg (by simp), if_neg (by omega), hiph, hudph]
    simp only [receivedIpv6Header]
  · rw [← hpl, ← Ipv6Header.ofBytes_payloadLength, e1]
  · have hver : iph.version4Tc4 = 96 := by rw [hiph]; rfl
    have hnext : iph.nextHeader = protocolUdp := by rw [hiph]; rfl
    have hv : byteAt (iph.toBytes ++ udph.toBytes ++ data) 0 = 96 := by
      rw [← Ipv6Header.ofBytes_version4Tc4, e1, hver]
    have hp : byteAt (iph.toBytes ++ udph.toBytes ++ data) 6 = protocolUdp := by
      rw [← Ipv6Header.ofBytes_nextHeader, e1, hnext]
    have hi : ipv6Check (iph.toBytes ++ udph.toBytes ++ data) = some (iph, udph.toBytes ++ data) := by
      rw [List.append_assoc]
      exact ipv6Check_toBytes (by rw [hiph]; rfl) (by rw [hpl, hplen])
    have hu : udpCheck (udph.toBytes ++ data) = some (udph, data) := udpCheck_toBytes hul
    have hc : udph.checksum = udpIp6Checksum { udph with checksum := 0 } data iph.sourceAddress iph.destinationAddress := by
      rw [hudph, hiph]
      simp only [receivedIpv6Header, receivedUdpHeader]
    have hn : ¬((48 + data.length < 40) ∨ protocolUdp ≠ protocolUdp) := by
      simp only [ne_eq, not_true_eq_false, or_false]
      omega
    have h4 : UInt8.toNat 96 / 16 = 6 := by decide
    simp only [parseDeviceUdp, hv, hlen, if_pos (show 0 < 48 + data.length by omega), h4, if_true, parseDeviceIpv6,
      sizeofIpv6Header, hp, hi, hu, if_neg hn, if_neg (not_not_intro hc), Option.map_some, UdpSubmit.datagram,
      h0, not_true_eq_false, if_false, show ¬(6 = 4) by decide]
    rw [hiph, hudph]
    simp only [receivedIpv6Header, receivedUdpHeader]

/-- For two addresses of one family, any device MTU and any payload that passes the size checks, the packet
`udpgw_client_handler_received` writes fits the device, its length fields are exact, and the intake chain of
`process_device_udp_packet` accepts it with source the remote address, destination the local address and the same payload. -/
theorem received_parses_back (o : DeviceOptions) (mtu : Int) (localAddr remoteAddr : BAddr) (data : Bytes)
    (h : PassesSizeChecks o mtu data.length localAddr remoteAddr) :
    ∃ pkt, udpgwClientHandlerReceived o mtu localAddr remoteAddr data = some pkt ∧ (pkt.length : Int) ≤ mtu ∧
      LengthsExact pkt data.length localAddr ∧
      (parseDeviceUdp o pkt).map UdpSubmit.datagram = some (remoteAddr, localAddr, data) := by
  match localAddr, remoteAddr, h with
  | .ipv4 _ _, .ipv4 _ _, h => exact received_ipv4 o mtu _ _ _ _ data h.1 h.2
  | .ipv6 _ _, .ipv6 _ _, h => exact received_ipv6 o mtu _ _ _ _ data h.1 h.2.1 h.2.2

/-- The size checks are passed by the ordinary datagram: three bytes between IPv4 addresses at an MTU of 1500. -/
theorem received_parses_back_small :
    ∃ pkt, udpgwClientHandlerReceived ⟨true, false, false, 0, 1472⟩ 1500 (.ipv4 0x0A000002 1024) (.ipv4 0x08080808 53)
        [1, 2, 3] = some pkt ∧ (pkt.length : Int) ≤ 1500 ∧ LengthsExact pkt 3 (.ipv4 0x0A000002 1024) ∧
      (parseDeviceUdp ⟨true, false, false, 0, 1472⟩ pkt).map UdpSubmit.datagram =
        some (.ipv4 0x08080808 53, .ipv4 0x0A000002 1024, [1, 2, 3]) :=
  received_parses_back _ 1500 _ _ [1, 2, 3] (by constructor <;> decide)

end PsiphonAndroid
