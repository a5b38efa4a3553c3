import PsiphonAndroid.Net.Proto

/-!
# What the checksum routines compute

`ipv4_checksum` is the one's complement of the one's-complement sum of the header and its options (`ipv4Checksum_eq`).
`udp_checksum` is the one's complement of the sum `udpSum` over pseudo-header, header and zero-padded payload
(`udpChecksum_eq`): the 32-bit accumulator never wraps and the folding loop ends, because a datagram has at most `2^15 + 7`
words. The test `t == 0` of the source never fires, since the pseudo-header always adds the protocol number; a sum of
`0xFFFF` therefore gives the checksum `0`. `udp_ip6_checksum` differs in its pseudo-header only (`udpIp6Checksum_eq`).
-/

namespace PsiphonAndroid

open Lib

/-- The bytes RFC 768 has summed for a UDP datagram over IPv4: pseudo-header, header, payload. -/
def udpSummed (header : UdpHeader) (payload : Bytes) (sourceAddr destAddr : UInt32) : Bytes :=
  be32 sourceAddr ++ be32 destAddr ++ be16 protocolUdp.toUInt16 ++ be16 (UInt16.ofNat (sizeofUdpHeader + payload.length)) ++
    header.toBytes ++ payload

/-- The one's-complement sum RFC 768 names, over pseudo-header, header and zero-padded payload. -/
def udpSum (header : UdpHeader) (payload : Bytes) (sourceAddr destAddr : UInt32) : Nat :=
  ocSum (words (udpSummed header payload sourceAddr destAddr))

namespace ChecksumAux

/-- Adding modulo `m` all along a list is adding the plain sum modulo `m`. -/
theorem foldl_add_mod {α : Type} (f : α → Nat) (m : Nat) (l : List α) {t : Nat} (ht : t < m) :
    l.foldl (fun t i => (t + f i) % m) t = (t + (l.map f).sum) % m := by
  induction l generalizing t with
  | nil => simp [Nat.mod_eq_of_lt ht]
  | cons a l ih =>
    have hm : 0 < m := by omega
    simp only [List.foldl_cons, List.map_cons, List.sum_cons]
    rw [ih (Nat.mod_lt _ hm), Nat.mod_add_mod, Nat.add_assoc]

/-- The accumulator after adding the first `n` words of a buffer. -/
theorem addWords_eq {data : Bytes} {n t : Nat} (h : 2 * n ≤ data.length) (ht : t < 2 ^ 32) :
    addWords data n t = (t + (words (data.take (2 * n))).sum) % 2 ^ 32 := by
  rw [addWords, foldl_add_mod (fun i => (readBe16 data (2 * i)).toNat) _ _ ht, map_readBe16_range h]

theorem udpChecksumSummer_eq {data : Bytes} (h : data.length % 2 = 0) (hl : data.length < 65536) :
    udpChecksumSummer data data.length = (words data).sum := by
  have hw := words_sum_le data
  have hn := words_length_le data
  rw [udpChecksumSummer, addWords_eq (by omega) (by omega), List.take_of_length_le (by omega), Nat.zero_add,
    Nat.mod_eq_of_lt (by omega)]

theorem sum_words_append {a : Bytes} (h : a.length % 2 = 0) (b : Bytes) :
    (words (a ++ b)).sum = (words a).sum + (words b).sum := by
  rw [words_append h, List.sum_append]

/-- A sum of at most `2^15 + 100` words fits a 32-bit accumulator. -/
theorem sum_words_lt {l : Bytes} (h : l.length ≤ 65536 + 100) : (words l).sum < 2 ^ 32 := by
  have hw := words_sum_le l
  have hn := words_length_le l
  omega

theorem complement16_eq {t : Nat} (h : t < 65536) : complement16 t = UInt16.ofNat (65535 - t) := by
  rw [complement16, ← UInt16.toNat_inj, UInt16.toNat_ofNat', UInt16.toNat_ofNat']
  omega

/-- Folding the plain sum of the words of a message gives its one's-complement sum. -/
theorem foldChecksum_words {l : Bytes} (h : l.length ≤ 65536 + 100) : foldChecksum (words l).sum = ocSum (words l) :=
  foldCarries_sum (by omega) (words_lt l) (sum_words_lt h)

/-- The two additions the source makes for an odd payload give the words of the payload, the last byte padded with a zero. -/
theorem summer_odd {payload : Bytes} (hl : payload.length < 65536) (hodd : payload.length % 2 ≠ 0) :
    udpChecksumSummer payload (payload.length - 1) + udpChecksumSummer [byteAt payload (payload.length - 1), 0] 2 =
      (words payload).sum := by
  have hne : payload.length - 1 < payload.length := by omega
  have hsplit : payload = payload.take (payload.length - 1) ++ [byteAt payload (payload.length - 1)] := by
    conv_lhs => rw [← List.take_append_drop (payload.length - 1) payload]
    rw [List.drop_eq_getElem_cons hne, List.drop_of_length_le (by omega)]
    simp [byteAt, hne]
  have h1 : udpChecksumSummer payload (payload.length - 1) = (words (payload.take (payload.length - 1))).sum := by
    have hw := words_sum_le (payload.take (payload.length - 1))
    have hn := words_length_le (payload.take (payload.length - 1))
    rw [List.length_take] at hn
    rw [udpChecksumSummer, addWords_eq (by omega) (by omega), show 2 * ((payload.length - 1) / 2) = payload.length - 1 by omega,
      Nat.zero_add, Nat.mod_eq_of_lt (by omega)]
  have h2 : udpChecksumSummer [byteAt payload (payload.length - 1), 0] 2 = (words [byteAt payload (payload.length - 1)]).sum := by
    have := @udpChecksumSummer_eq [byteAt payload (payload.length - 1), 0] (by simp) (by simp)
    simpa [words] using this
  have h3 : (words payload).sum =
      (words (payload.take (payload.length - 1))).sum + (words [byteAt payload (payload.length - 1)]).sum := by
    conv_lhs => rw [hsplit]
    exact sum_words_append (by rw [List.length_take]; omega) _
  rw [h1, h2, h3]

end ChecksumAux

open ChecksumAux

/-- `ipv4_checksum` is the one's complement of the one's-complement sum of the header and its options. -/
theorem ipv4Checksum_eq {header : Ipv4Header} {extra : Bytes} {extraLen : Nat} (h2 : extraLen % 2 = 0)
    (hl : extraLen ≤ extra.length) (hb : extraLen ≤ 65536) :
    ipv4Checksum header extra extraLen = UInt16.ofNat (65535 - ocSum (words (header.toBytes ++ extra.take extraLen))) := by
  have hlen : (header.toBytes ++ extra.take extraLen).length = 20 + extraLen := by simp [hl]
  have ht : addWords header.toBytes (sizeofIpv4Header / 2) 0 = (words header.toBytes).sum := by
    have := @udpChecksumSummer_eq header.toBytes (by simp) (by simp)
    simpa [udpChecksumSummer, sizeofIpv4Header] using this
  have hs : (words header.toBytes).sum + (words (extra.take extraLen)).sum =
      (words (header.toBytes ++ extra.take extraLen)).sum := (sum_words_append (by simp) _).symm
  have hlt := sum_words_lt (l := header.toBytes ++ extra.take extraLen) (by omega)
  have hoc := ocSum_lt (words_lt (header.toBytes ++ extra.take extraLen))
  rw [ipv4Checksum, ht, addWords_eq (by omega) (by omega), show 2 * (extraLen / 2) = extraLen by omega, hs,
    Nat.mod_eq_of_lt hlt, foldChecksum_words (by omega), complement16_eq hoc]

/-- The accumulator of the two UDP routines when the folding loop starts: pseudo-header, header and payload have been added. -/
def udpAccumulator (t : Nat) (header : UdpHeader) (payload : Bytes) : Nat :=
  let t := (t + udpChecksumSummer header.toBytes sizeofUdpHeader) % 2 ^ 32
  if payload.length % 2 = 0 then
    (t + udpChecksumSummer payload payload.length) % 2 ^ 32
  else
    let t := (t + udpChecksumSummer payload (payload.length - 1)) % 2 ^ 32
    (t + udpChecksumSummer [byteAt payload (payload.length - 1), 0] 2) % 2 ^ 32

/-- What the two routines do with the accumulator: fold it, put `0xFFFF` for zero, complement. -/
theorem udpChecksumFinish_eq (t : Nat) (header : UdpHeader) (payload : Bytes) :
    udpChecksumFinish t header payload =
      complement16 (if foldChecksum (udpAccumulator t header payload) = 0 then 65535
        else foldChecksum (udpAccumulator t header payload)) := rfl

/-- Header and payload, odd or even, are added word by word to what the pseudo-header gave. -/
theorem udpAccumulator_eq (t : Nat) (header : UdpHeader) {payload : Bytes} (hl : payload.length < 65536) :
    udpAccumulator t header payload = (t + (words (header.toBytes ++ payload)).sum) % 2 ^ 32 := by
  have hs8 : udpChecksumSummer header.toBytes sizeofUdpHeader = (words header.toBytes).sum := by
    have := @udpChecksumSummer_eq header.toBytes (by simp) (by simp)
    rwa [UdpHeader.length_toBytes] at this
  rw [sum_words_append (by simp)]
  by_cases hp : payload.length % 2 = 0
  · simp only [udpAccumulator, hs8, hp, if_true, udpChecksumSummer_eq hp hl, Nat.mod_add_mod, Nat.add_assoc]
  · simp only [udpAccumulator, hs8, hp, if_false, Nat.mod_add_mod, Nat.add_assoc, summer_odd hl hp]

/-- Both routines give the one's complement of the one's-complement sum of the bytes they add, when these are not all zero. -/
theorem udpChecksumFinish_of_summed {t : Nat} {header : UdpHeader} {payload summed : Bytes}
    (hacc : udpAccumulator t header payload = (words summed).sum) (hl : summed.length ≤ 65536 + 100)
    (hpos : (words summed).sum ≠ 0) :
    udpChecksumFinish t header payload = UInt16.ofNat (65535 - ocSum (words summed)) := by
  have hz : ocSum (words summed) ≠ 0 := fun h => hpos ((ocSum_eq_zero_iff (words_lt _)).mp h)
  rw [udpChecksumFinish_eq, hacc, foldChecksum_words hl, if_neg hz, complement16_eq (ocSum_lt (words_lt _))]

/-! ## Over IPv4 -/

/-- The accumulator of `udp_checksum` after the pseudo-header. -/
def udpPseudoSum (payload : Bytes) (sourceAddr destAddr : UInt32) : Nat :=
  let t := udpChecksumSummer (be32 sourceAddr) 4
  let t := (t + udpChecksumSummer (be32 destAddr) 4) % 2 ^ 32
  let t := (t + udpChecksumSummer (be16 protocolUdp.toUInt16) 2) % 2 ^ 32
  (t + udpChecksumSummer (be16 (UInt16.ofNat (sizeofUdpHeader + payload.length))) 2) % 2 ^ 32

theorem udpChecksum_eq_finish (header : UdpHeader) (payload : Bytes) (s d : UInt32) :
    udpChecksum header payload s d = udpChecksumFinish (udpPseudoSum payload s d) header payload := rfl

/-- The plain sum of the words of a UDP datagram is never zero: the pseudo-header holds the protocol number. -/
theorem sum_udpSummed_ne (header : UdpHeader) (payload : Bytes) (s d : UInt32) :
    (words (udpSummed header payload s d)).sum ≠ 0 := by
  have h : (words (udpSummed header payload s d)).sum =
      (words (be32 s ++ be32 d)).sum + ((words (be16 protocolUdp.toUInt16)).sum +
        (words (be16 (UInt16.ofNat (sizeofUdpHeader + payload.length)) ++ header.toBytes ++ payload)).sum) := by
    rw [← sum_words_append (by simp), ← sum_words_append (by simp)]
    simp [udpSummed]
  have h17 : (words (be16 protocolUdp.toUInt16)).sum = 17 := by decide
  omega

@[simp] theorem length_udpSummed (header : UdpHeader) (payload : Bytes) (s d : UInt32) :
    (udpSummed header payload s d).length = 20 + payload.length := by
  simp [udpSummed]
  omega

/-- The accumulator of `udp_checksum` has not wrapped: it is the plain sum of the words of the datagram. -/
theorem udpAccumulator_udpPseudoSum (header : UdpHeader) {payload : Bytes} (s d : UInt32) (hl : payload.length ≤ 65527) :
    udpAccumulator (udpPseudoSum payload s d) header payload = (words (udpSummed header payload s d)).sum := by
  have hlt := sum_words_lt (l := udpSummed header payload s d) (by rw [length_udpSummed]; omega)
  have hs4 : ∀ x : UInt32, udpChecksumSummer (be32 x) 4 = (words (be32 x)).sum := fun x =>
    @udpChecksumSummer_eq (be32 x) (by simp) (by simp)
  have hs2 : ∀ x : UInt16, udpChecksumSummer (be16 x) 2 = (words (be16 x)).sum := fun x =>
    @udpChecksumSummer_eq (be16 x) (by simp) (by simp)
  have hsum : (words (udpSummed header payload s d)).sum = (words (be32 s)).sum + (words (be32 d)).sum +
      (words (be16 protocolUdp.toUInt16)).sum + (words (be16 (UInt16.ofNat (sizeofUdpHeader + payload.length)))).sum +
        (words (header.toBytes ++ payload)).sum := by
    rw [udpSummed, List.append_assoc _ header.toBytes, sum_words_append (by simp), sum_words_append (by simp),
      sum_words_append (by simp), sum_words_append (by simp)]
  rw [udpAccumulator_eq _ _ (by omega), udpPseudoSum, hs4, hs4, hs2, hs2]
  simp only [Nat.mod_add_mod]
  rw [← hsum, Nat.mod_eq_of_lt hlt]

theorem udpSum_lt (header : UdpHeader) (payload : Bytes) (s d : UInt32) : udpSum header payload s d < 65536 :=
  ocSum_lt (words_lt _)

/-- `udp_checksum` is the one's complement of the sum RFC 768 names; a sum of `0xFFFF` gives `0`, not `0xFFFF`. -/
theorem udpChecksum_eq (header : UdpHeader) {payload : Bytes} (s d : UInt32) (hl : payload.length ≤ 65527) :
    udpChecksum header payload s d = UInt16.ofNat (65535 - udpSum header payload s d) := by
  rw [udpChecksum_eq_finish, udpSum]
  exact udpChecksumFinish_of_summed (udpAccumulator_udpPseudoSum header s d hl) (by rw [length_udpSummed]; omega)
    (sum_udpSummed_ne header payload s d)

/-! ## Over IPv6 -/

/-- The bytes RFC 2460 has summed for a UDP datagram over IPv6: pseudo-header, header, payload. -/
def udpIp6Summed (header : UdpHeader) (payload : Bytes) (sourceAddr destAddr : Ipv6Addr) : Bytes :=
  sourceAddr.bytes ++ destAddr.bytes ++ be32 (UInt32.ofNat (sizeofUdpHeader + payload.length)) ++ be32 protocolUdp.toUInt32 ++
    header.toBytes ++ payload

/-- The accumulator of `udp_ip6_checksum` after the pseudo-header. -/
def udpIp6PseudoSum (payload : Bytes) (sourceAddr destAddr : Ipv6Addr) : Nat :=
  let t := udpChecksumSummer sourceAddr.bytes 16
  let t := (t + udpChecksumSummer destAddr.bytes 16) % 2 ^ 32
  let t := (t + udpChecksumSummer (be32 (UInt32.ofNat (sizeofUdpHeader + payload.length))) 4) % 2 ^ 32
  (t + udpChecksumSummer (be32 protocolUdp.toUInt32) 4) % 2 ^ 32

theorem udpIp6Checksum_eq_finish (header : UdpHeader) (payload : Bytes) (s d : Ipv6Addr) :
    udpIp6Checksum header payload s d = udpChecksumFinish (udpIp6PseudoSum payload s d) header payload := rfl

/-- The plain sum of the words of a UDP datagram over IPv6 is never zero: the pseudo-header holds the next-header number. -/
theorem sum_udpIp6Summed_ne (header : UdpHeader) (payload : Bytes) (s d : Ipv6Addr) :
    (words (udpIp6Summed header payload s d)).sum ≠ 0 := by
  have h : (words (udpIp6Summed header payload s d)).sum =
      (words (s.bytes ++ d.bytes ++ be32 (UInt32.ofNat (sizeofUdpHeader + payload.length)))).sum +
        ((words (be32 protocolUdp.toUInt32)).sum + (words (header.toBytes ++ payload)).sum) := by
    rw [← sum_words_append (by simp), ← sum_words_append (by simp [s.length_eq, d.length_eq])]
    simp [udpIp6Summed]
  have h17 : (words (be32 protocolUdp.toUInt32)).sum = 17 := by decide
  omega

@[simp] theorem length_udpIp6Summed (header : UdpHeader) (payload : Bytes) (s d : Ipv6Addr) :
    (udpIp6Summed header payload s d).length = 48 + payload.length := by
  simp [udpIp6Summed, s.length_eq, d.length_eq]
  omega

/-- The accumulator of `udp_ip6_checksum` has not wrapped: it is the plain sum of the words of the datagram. -/
theorem udpAccumulator_udpIp6PseudoSum (header : UdpHeader) {payload : Bytes} (s d : Ipv6Addr) (hl : payload.length ≤ 65527) :
    udpAccumulator (udpIp6PseudoSum payload s d) header payload = (words (udpIp6Summed header payload s d)).sum := by
  have hlt := sum_words_lt (l := udpIp6Summed header payload s d) (by rw [length_udpIp6Summed]; omega)
  have hs4 : ∀ x : UInt32, udpChecksumSummer (be32 x) 4 = (words (be32 x)).sum := fun x =>
    @udpChecksumSummer_eq (be32 x) (by simp) (by simp)
  have hs16 : ∀ a : Ipv6Addr, udpChecksumSummer a.bytes 16 = (words a.bytes).sum := by
    intro a
    have := @udpChecksumSummer_eq a.bytes (by simp [a.length_eq]) (by simp [a.length_eq])
    rwa [a.length_eq] at this
  have hsum : (words (udpIp6Summed header payload s d)).sum = (words s.bytes).sum + (words d.bytes).sum +
      (words (be32 (UInt32.ofNat (sizeofUdpHeader + payload.length)))).sum + (words (be32 protocolUdp.toUInt32)).sum +
        (words (header.toBytes ++ payload)).sum := by
    rw [udpIp6Summed, List.append_assoc _ header.toBytes, sum_words_append (by simp [s.length_eq, d.length_eq]),
      sum_words_append (by simp [s.length_eq, d.length_eq]), sum_words_append (by simp [s.length_eq, d.length_eq]),
      sum_words_append (by simp [s.length_eq])]
  rw [udpAccumulator_eq _ _ (by omega), udpIp6PseudoSum, hs16, hs16, hs4, hs4]
  simp only [Nat.mod_add_mod]
  rw [← hsum, Nat.mod_eq_of_lt hlt]

/-- `udp_ip6_checksum` is the one's complement of the sum RFC 2460 names; a sum of `0xFFFF` gives `0`, not `0xFFFF`. -/
theorem udpIp6Checksum_eq (header : UdpHeader) {payload : Bytes} (s d : Ipv6Addr) (hl : payload.length ≤ 65527) :
    udpIp6Checksum header payload s d = UInt16.ofNat (65535 - ocSum (words (udpIp6Summed header payload s d))) := by
  rw [udpIp6Checksum_eq_finish]
  exact udpChecksumFinish_of_summed (udpAccumulator_udpIp6PseudoSum header s d hl) (by rw [length_udpIp6Summed]; omega)
    (sum_udpIp6Summed_ne header payload s d)

end PsiphonAndroid
