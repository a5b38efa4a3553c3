import PsiphonAndroid.Flow.PacketProto
import PsiphonAndroid.UdpGw.Frame

/-!
# Frames are written and read back

What `connection_send` writes fits `udpgw_compute_mtu`, and both readers take it apart into what it was written from, as long as
the flags asked for do not name IPv6 for an IPv4 address (and, at the server, a keepalive). Whatever the client receives, it
reads inside it and drops it or hands a suffix of it to the user.
-/

namespace PsiphonAndroid

open Lib

/-- `UdpGwClient_Init` accepts a datagram size: its assertions hold. -/
def UdpMtuAccepted (w : Nat) (udpMtu : Int) : Prop :=
  0 ≤ udpMtu ∧ 0 ≤ udpgwComputeMtuInt w udpMtu ∧ udpgwComputeMtuInt w udpMtu ≤ packetprotoMaxpayload

/-- A reader takes a frame apart into a connection id, an address and the payload that makes up the rest of the frame. -/
def ReadsBack (atServer : Bool) (bytes : Bytes) (conid : UInt16) (addr : BAddr) (data : Bytes) : Prop :=
  ∃ flags u, readFrame atServer bytes = .ok (some (flags, conid, addr, u)) ∧
    u.data + u.dataLen = bytes.length ∧ slice bytes u.data u.dataLen = data

namespace UdpGwFramesAux

open FrameAux

/-- A packet is read back by a reader that does not leave it at its header. -/
theorem readsBack_packet {flags : UInt8} (conid : UInt16) {addr : BAddr} (data : Bytes) {atServer : Bool} (hip : addr.IsIp)
    (hf : hasFlag flags udpgwClientFlagIpv6 = true → addr.type = 2)
    (hk : atServer = true → hasFlag flags udpgwClientFlagKeepalive = false) :
    ReadsBack atServer (udpgwPacket flags conid addr data) conid addr data := by
  have hfam : addr.type = 2 ∨ hasFlag flags udpgwClientFlagIpv6 = false := by
    cases h : hasFlag flags udpgwClientFlagIpv6 with
    | false => exact .inr rfl
    | true => exact .inl (hf h)
  have hkeep : (atServer && hasFlag (udpgwFlags flags addr) udpgwClientFlagKeepalive) = false := by
    rw [hasFlag_udpgwFlags flags addr rfl]
    cases h : atServer with
    | false => rfl
    | true => rw [hk h, Bool.true_and]
  have hread := readFrame_eq atServer (udpgwPacket flags conid addr data)
  rw [parseHeader_packet, Option.bind_some, hkeep, if_neg Bool.false_ne_true, parseAddr_packet hip hfam, Option.map_some] at hread
  have hlen := length_udpgwPacket flags conid addr data
  refine ⟨_, _, hread, ?_, ?_⟩
  · simp only [unreadOf]
    omega
  · have hpre : udpgwPacket flags conid addr data = (udpgwHeader (udpgwFlags flags addr) conid ++ udpgwAddr addr) ++ data := by
      simp [udpgwPacket]
    have hplace : (udpgwPacket flags conid addr data).length - data.length =
        (udpgwHeader (udpgwFlags flags addr) conid ++ udpgwAddr addr).length := by
      rw [hpre, List.length_append, Nat.add_sub_cancel]
    simp only [unreadOf, slice, hplace]
    rw [hpre, List.drop_left, List.take_length]

/-- An accepted datagram size and the frame size the client keeps for it. -/
theorem mtu_of_accepted {w : Nat} (hw : w = 32 ∨ w = 64) {udpMtu : Int} (h : UdpMtuAccepted w udpMtu) (hmax : udpMtu ≤ intMax) :
    udpgwComputeMtuInt w udpMtu = 21 + udpMtu := by
  obtain ⟨-, h0, -⟩ := h
  rw [udpgwComputeMtuInt_eq (by omega) hmax] at h0 ⊢
  split at h0
  · exact absurd h0 (by decide)
  · rename_i hn
    rw [if_neg hn]

/-- A received packet is dropped, or a suffix of it that fits is handed to the user. -/
theorem received_suffix {o : UdpGwClient} {packet : Bytes} (hserver : o.haveServer = true) (hlen : packet.length ≤ o.udpgwMtu) :
    ∃ o' acts, o.recvInterfaceHandlerSend packet = .ok (o', acts) ∧
      (acts = [] ∨ ∃ l r data, acts = [.received l r data] ∧ data <:+ packet ∧ data.length ≤ o.udpMtu) := by
  unfold UdpGwClient.recvInterfaceHandlerSend
  rw [if_neg (by simp [hserver]), if_neg (Nat.not_lt.mpr hlen)]
  cases hp : parseHeader packet with
  | none => exact ⟨o, [], rfl, .inl rfl⟩
  | some h =>
    obtain ⟨flags, conid, rest⟩ := h
    dsimp only
    cases ha : parseAddr flags rest with
    | none => exact ⟨o, [], rfl, .inl rfl⟩
    | some a =>
      obtain ⟨addr, data⟩ := a
      have hs := (suffix_of_parseAddr ha).trans (suffix_of_parseHeader hp)
      dsimp only
      by_cases hdata : o.udpMtu < data.length
      · rw [if_pos hdata]
        exact ⟨o, [], rfl, .inl rfl⟩
      · rw [if_neg hdata]
        cases o.findConnectionByConid conid with
        | none => exact ⟨o, [], rfl, .inl rfl⟩
        | some con =>
          dsimp only
          split
          · exact ⟨o, [], rfl, .inl rfl⟩
          · exact ⟨_, _, rfl, .inr ⟨_, _, data, rfl, hs, Nat.not_lt.mp hdata⟩⟩

end UdpGwFramesAux

open UdpGwFramesAux

/-- 1. For an accepted datagram size, `connection_send` writes a frame of at most `udpgw_compute_mtu` bytes (nothing where the
buffer is full), which the client's reader takes apart into the connection id, the address and the payload, and the server's
reader does unless the flags are those of a keepalive. 2. `udpgw_compute_mtu` is the exact sum, and `-1` exactly for a negative
argument or a sum that is no `int`. 3. Whatever is received, no read leaves it, and it is dropped or a suffix of at most
`udp_mtu` bytes is handed over. -/
theorem udpgw_frames_read_back (w : Nat) (hw : w = 32 ∨ w = 64) :
    (∀ udpMtu : Int, udpMtu ≤ intMax → UdpMtuAccepted w udpMtu → ∀ o : UdpGwClient, o.udpMtu = udpMtu →
      o.udpgwMtu = udpgwComputeMtuInt w udpMtu → ∀ (con : Nat) (flags : UInt8) (data : Bytes),
      (o.mem con).conaddr.remoteAddr.IsIp →
      (hasFlag flags udpgwClientFlagIpv6 = true → (o.mem con).conaddr.remoteAddr.type = 2) → data.length ≤ udpMtu →
      ∃ o' bytes, bytes = udpgwPacket flags (o.mem con).conid (o.mem con).conaddr.remoteAddr data ∧
        o.connectionSend con flags data =
          .ok (o', if (o.mem con).outHave then [.enqueue ⟨flags, (o.mem con).conid, (o.mem con).conaddr, data⟩] else []) ∧
        bytes.length ≤ udpgwComputeMtuInt w udpMtu ∧
        ReadsBack false bytes (o.mem con).conid (o.mem con).conaddr.remoteAddr data ∧
        (hasFlag flags udpgwClientFlagKeepalive = false →
          ReadsBack true bytes (o.mem con).conid (o.mem con).conaddr.remoteAddr data)) ∧
    (∀ dgramMtu : Int, -2 ^ 31 ≤ dgramMtu → dgramMtu ≤ intMax →
      (udpgwComputeMtuInt w dgramMtu = -1 ↔
        dgramMtu < 0 ∨ intMax < sizeofUdpgwHeader + (max sizeofUdpgwAddrIpv4 sizeofUdpgwAddrIpv6 + dgramMtu)) ∧
      (udpgwComputeMtuInt w dgramMtu ≠ -1 →
        udpgwComputeMtuInt w dgramMtu = sizeofUdpgwHeader + (max sizeofUdpgwAddrIpv4 sizeofUdpgwAddrIpv6 + dgramMtu))) ∧
    (∀ (o : UdpGwClient) (packet : Bytes), o.haveServer = true → packet.length ≤ o.udpgwMtu →
      ∃ o' acts, o.recvInterfaceHandlerSendChecked packet = .ok (.ok (o', acts)) ∧
        (acts = [] ∨ ∃ l r data, acts = [.received l r data] ∧ data <:+ packet ∧ data.length ≤ o.udpMtu)) := by
  refine ⟨?_, ?_, ?_⟩
  · intro udpMtu hmax hacc o hudp hudpgw con flags data hip hf hdata
    have hmtu := mtu_of_accepted hw hacc hmax
    have hfit : (udpgwPacket flags (o.mem con).conid (o.mem con).conaddr.remoteAddr data).length ≤ o.udpgwMtu := by
      have := length_udpgwAddr_le (o.mem con).conaddr.remoteAddr
      rw [length_udpgwPacket]
      omega
    have hsend : ∃ o', o.connectionSend con flags data =
        .ok (o', if (o.mem con).outHave then [.enqueue ⟨flags, (o.mem con).conid, (o.mem con).conaddr, data⟩] else []) := by
      unfold UdpGwClient.connectionSend
      rw [if_neg (by omega)]
      cases (o.mem con).outHave with
      | false => exact ⟨o, rfl⟩
      | true => exact ⟨_, if_neg (Nat.not_lt.mpr hfit)⟩
    obtain ⟨o', hsend⟩ := hsend
    refine ⟨o', _, rfl, hsend, by omega, readsBack_packet _ _ hip hf nofun, ?_⟩
    intro hk
    exact readsBack_packet _ _ hip hf fun _ => hk
  · intro dgramMtu _ hmax
    have hsum : (sizeofUdpgwHeader : Int) + (((max sizeofUdpgwAddrIpv4 sizeofUdpgwAddrIpv6 : Nat) : Int) + dgramMtu) =
        21 + dgramMtu := by
      change (3 : Int) + (18 + dgramMtu) = _
      omega
    rw [hsum, udpgwComputeMtuInt_eq (by omega) hmax]
    split <;> omega
  · intro o packet hserver hlen
    rw [recvInterfaceHandlerSendChecked_eq]
    obtain ⟨o', acts, h, hs⟩ := received_suffix hserver hlen
    exact ⟨o', acts, by rw [h], hs⟩

/-- A client of the datagram size 1500 with one connection, whose buffer has room. -/
def frameClient : UdpGwClient :=
  { UdpGwClient.init 1500 1 with mem := fun _ => ⟨⟨.ipv4 0x0A000001 4000, .ipv4 0x0A000002 53⟩, 0, [], 7, true⟩, haveServer := true }

/-- Three bytes sent for connection 7 to `10.0.0.2:53` are read back, by a client and by a server. -/
theorem udpgw_frames_read_back_dns :
    ReadsBack false (udpgwPacket udpgwClientFlagDns 7 (.ipv4 0x0A000002 53) [1, 2, 3]) 7 (.ipv4 0x0A000002 53) [1, 2, 3] ∧
    ReadsBack true (udpgwPacket udpgwClientFlagDns 7 (.ipv4 0x0A000002 53) [1, 2, 3]) 7 (.ipv4 0x0A000002 53) [1, 2, 3] := by
  obtain ⟨o', bytes, rfl, -, -, hclient, hserver⟩ := (udpgw_frames_read_back 64 (.inr rfl)).1 1500 (by decide)
    ⟨by decide, by decide, by decide⟩ frameClient rfl rfl 0 udpgwClientFlagDns [1, 2, 3] (.inl rfl) (by decide) (by decide)
  exact ⟨hclient, hserver rfl⟩

/-- The size for `-5` would be `16`, which is an `int`, and the function returns `-1`; and a frame written for an IPv4 address with
the flag of IPv6 among the flags asked for is not read back. Neither is an input of any caller: the MTUs passed are not negative, and
the flags asked for are those of a rebinding and of DNS. -/
theorem udpgw_frames_negative_mtu : udpgwComputeMtuInt 32 (-5) = -1 ∧
    (sizeofUdpgwHeader : Int) + (max sizeofUdpgwAddrIpv4 sizeofUdpgwAddrIpv6 + -5) = 16 ∧
    readFrame false (udpgwPacket udpgwClientFlagIpv6 7 (.ipv4 0x0A000002 53) [1, 2, 3]) = .ok none :=
  ⟨by decide, by decide, by rfl⟩

end PsiphonAndroid
