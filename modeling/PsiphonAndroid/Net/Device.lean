import PsiphonAndroid.Net.Checksum

/-!
# UDP between the TUN device and udpgw

The two ends of the UDP path of `tun2socks/tun2socks.c`. `processDeviceUdpPacket` takes a packet read from the device and
submits its payload to udpgw; `udpgwClientHandlerReceived` builds the packet of a datagram that came back from udpgw and writes
it to the device. Neither shares anything with the other but the header layouts and the checksum routines.
-/

namespace PsiphonAndroid

open Lib

/-- The options and globals the two functions read: whether a udpgw server is configured, whether the netif has an IPv6
address, the transparent-DNS switch, the netif's own address and the largest UDP payload udpgw takes. -/
structure DeviceOptions where
  udpgwRemoteServerAddr : Bool
  netifIp6addr : Bool
  udpgwTransparentDns : Bool
  netifIpaddr : UInt32
  udpMtu : Nat

/-- The arguments of one `SocksUdpGwClient_SubmitPacket` call. -/
structure UdpSubmit where
  localAddr : BAddr
  remoteAddr : BAddr
  isDns : Bool
  data : Bytes
  deriving DecidableEq

/-- What is submitted, less the DNS flag: source address, destination address, payload. -/
def UdpSubmit.datagram (s : UdpSubmit) : BAddr × BAddr × Bytes := (s.localAddr, s.remoteAddr, s.data)

/-- The IPv4 branch of the switch of `process_device_udp_packet`. -/
def parseDeviceIpv4 (o : DeviceOptions) (data : Bytes) : Option UdpSubmit :=
  if data.length < sizeofIpv4Header ∨ byteAt data 9 ≠ protocolUdp then none else
  match ipv4Check data with
  | none => none
  | some (ipv4Header, data) =>
    match udpCheck data with
    | none => none
    | some (udpHeader, data) =>
      let checksumInPacket := udpHeader.checksum
      let checksumComputed :=
        udpChecksum { udpHeader with checksum := 0 } data ipv4Header.sourceAddress ipv4Header.destinationAddress
      if checksumInPacket ≠ checksumComputed then none else
      some {
        localAddr := .ipv4 ipv4Header.sourceAddress udpHeader.sourcePort
        remoteAddr := .ipv4 ipv4Header.destinationAddress udpHeader.destPort
        isDns := o.udpgwTransparentDns && decide (ipv4Header.destinationAddress = o.netifIpaddr) &&
          decide (udpHeader.destPort = 53)
        data := data }

/-- The IPv6 branch of the switch of `process_device_udp_packet`. -/
def parseDeviceIpv6 (o : DeviceOptions) (data : Bytes) : Option UdpSubmit :=
  if ¬o.netifIp6addr then none else
  if data.length < sizeofIpv6Header ∨ byteAt data 6 ≠ protocolUdp then none else
  match ipv6Check data with
  | none => none
  | some (ipv6Header, data) =>
    match udpCheck data with
    | none => none
    | some (udpHeader, data) =>
      let checksumInPacket := udpHeader.checksum
      let checksumComputed :=
        udpIp6Checksum { udpHeader with checksum := 0 } data ipv6Header.sourceAddress ipv6Header.destinationAddress
      if checksumInPacket ≠ checksumComputed then none else
      some {
        localAddr := .ipv6 ipv6Header.sourceAddress udpHeader.sourcePort
        remoteAddr := .ipv6 ipv6Header.destinationAddress udpHeader.destPort
        isDns := false
        data := data }

/-- The switch on the IP version: the intake chain of `process_device_udp_packet`, up to the payload length check. -/
def parseDeviceUdp (o : DeviceOptions) (data : Bytes) : Option UdpSubmit :=
  let ipVersion := if 0 < data.length then (byteAt data 0).toNat / 16 else 0
  if ipVersion = 4 then parseDeviceIpv4 o data
  else if ipVersion = 6 then parseDeviceIpv6 o data
  else none

/-- `process_device_udp_packet`: `some s` when it returns 1, having submitted `s`; `none` when it returns 0. -/
def processDeviceUdpPacket (o : DeviceOptions) (data : Bytes) : Option UdpSubmit :=
  if ¬o.udpgwRemoteServerAddr then none else
  match parseDeviceUdp o data with
  | none => none
  | some s => if o.udpMtu < s.data.length then none else some s

/-- The IPv4 header `udpgw_client_handler_received` builds, its checksum still zero. -/
def receivedIpv4Header (sourceAddress destinationAddress : UInt32) (dataLen : Nat) : Ipv4Header where
  version4Ihl4 := ipv4MakeVersionIhl sizeofIpv4Header
  ds := 0
  totalLength := UInt16.ofNat (sizeofIpv4Header + sizeofUdpHeader + dataLen)
  identification := 0
  flags3Fragmentoffset13 := 0
  ttl := 64
  protocol := protocolUdp
  checksum := 0
  sourceAddress := sourceAddress
  destinationAddress := destinationAddress

/-- The IPv6 header `udpgw_client_handler_received` builds. -/
def receivedIpv6Header (sourceAddress destinationAddress : Ipv6Addr) (dataLen : Nat) : Ipv6Header where
  version4Tc4 := 96
  tc4Fl4 := 0
  fl := 0
  payloadLength := UInt16.ofNat (sizeofUdpHeader + dataLen)
  nextHeader := protocolUdp
  hopLimit := 64
  sourceAddress := sourceAddress
  destinationAddress := destinationAddress

/-- The UDP header `udpgw_client_handler_received` builds, its checksum still zero. -/
def receivedUdpHeader (sourcePort destPort : UInt16) (dataLen : Nat) : UdpHeader where
  sourcePort := sourcePort
  destPort := destPort
  length := UInt16.ofNat (sizeofUdpHeader + dataLen)
  checksum := 0

/-- `udpgw_client_handler_received`: the packet given to `BTap_Send` for a device of MTU `mtu`, or `none` when the function
returns before. The two addresses are of one IP family, as its assertions say. -/
def udpgwClientHandlerReceived (o : DeviceOptions) (mtu : Int) (localAddr remoteAddr : BAddr) (data : Bytes) : Option Bytes :=
  match localAddr, remoteAddr with
  | .ipv4 localIp localPort, .ipv4 remoteIp remotePort =>
    if 65535 - (sizeofIpv4Header + sizeofUdpHeader) < data.length ∨
        mtu - (sizeofIpv4Header + sizeofUdpHeader : Nat) < data.length then none else
    let iph := receivedIpv4Header remoteIp localIp data.length
    let iph := { iph with checksum := ipv4Checksum iph [] 0 }
    let udph := receivedUdpHeader remotePort localPort data.length
    let udph := { udph with checksum := udpChecksum udph data iph.sourceAddress iph.destinationAddress }
    some (iph.toBytes ++ udph.toBytes ++ data)
  | .ipv6 localIp localPort, .ipv6 remoteIp remotePort =>
    if ¬o.netifIp6addr then none else
    if 65535 - sizeofUdpHeader < data.length ∨
        mtu - (sizeofIpv6Header + sizeofUdpHeader : Nat) < data.length then none else
    let iph := receivedIpv6Header remoteIp localIp data.length
    let udph := receivedUdpHeader remotePort localPort data.length
    let udph := { udph with checksum := udpIp6Checksum udph data iph.sourceAddress iph.destinationAddress }
    some (iph.toBytes ++ udph.toBytes ++ data)
  | _, _ => none

end PsiphonAndroid
