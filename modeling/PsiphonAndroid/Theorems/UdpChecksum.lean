import PsiphonAndroid.Net.Checksum

/-!
# The UDP checksums and the RFCs

RFC 768 and RFC 2460 prescribe the one's complement of the one's-complement sum over pseudo-header, header and zero-padded
payload, with `0xFFFF` in the place of a computed zero. `udp_checksum` and `udp_ip6_checksum` put `0xFFFF` in the place of a
zero sum, before the complement: they return the prescribed checksum exactly when the plain sum of the words is no multiple of
`65535`, and `0` otherwise (`udp_checksums_follow_rfc_iff`).
-/

namespace PsiphonAndroid

open Lib

/-- The checksum the RFCs prescribe for the bytes summed: the complement of their one's-complement sum, `0xFFFF` for zero. -/
def rfcChecksum (summed : Bytes) : UInt16 :=
  if 65535 - ocSum (words summed) = 0 then 0xFFFF else UInt16.ofNat (65535 - ocSum (words summed))

/-- A routine that sums `summed 0` with the accumulator ending at `accumulator` and returns `checksum` follows the RFCs;
`summed c` are the bytes summed with the checksum field `c`. -/
structure FollowsRfc (summed : UInt16 → Bytes) (accumulator : Nat) (checksum : UInt16) : Prop where
  /-- The sum fits the 32-bit accumulator. -/
  fits : (words (summed 0)).sum < 2 ^ 32
  /-- The accumulator holds it: no addition has wrapped. -/
  exact : accumulator = (words (summed 0)).sum
  /-- The folding loop ends: no carry is left. -/
  folded : foldChecksum accumulator < 2 ^ 16
  /-- The checksum is the prescribed one. -/
  prescribed : checksum = rfcChecksum (summed 0)
  /-- A checksum of zero would say that there is none. -/
  nonzero : checksum ≠ 0
  /-- The receiver's test: all words, the checksum among them, sum to `0xFFFF`. -/
  sums : ocSum (words (summed checksum)) = 0xFFFF

namespace UdpChecksumAux

open ChecksumAux

/-- A one's-complement sum is `0xFFFF` when the words are not all zero and their plain sum is a multiple of `65535`. -/
theorem ocSum_eq_ones_iff {ws : List Nat} (hw : ∀ w ∈ ws, w < 65536) : ocSum ws = 65535 ↔ ws.sum ≠ 0 ∧ 65535 ∣ ws.sum := by
  have h1 := ocSum_lt hw
  have h2 := ocSum_mod hw
  have h3 := ocSum_eq_zero_iff hw
  omega

/-- The checksum field adds its value to the sum of a header. -/
theorem sum_words_header (header : UdpHeader) (c : UInt16) :
    (words { header with checksum := c }.toBytes).sum = (words { header with checksum := 0 }.toBytes).sum + c.toNat := by
  have hw : ∀ x : UInt16, (words (be16 x)).sum = x.toNat := by
    intro x
    have := x.toNat_lt
    simp only [be16, words, List.sum_cons, List.sum_nil, UInt8.toNat_ofNat']
    omega
  simp only [UdpHeader.toBytes]
  rw [sum_words_append (by simp), sum_words_append (a := _ ++ _ ++ _) (by simp), hw c, hw 0]
  simp

/-- The checksum field adds its value to the sum of a datagram over IPv4. -/
theorem sum_words_udpSummed (header : UdpHeader) (payload : Bytes) (s d : UInt32) (c : UInt16) :
    (words (udpSummed { header with checksum := c } payload s d)).sum =
      (words (udpSummed { header with checksum := 0 } payload s d)).sum + c.toNat := by
  simp only [udpSummed]
  rw [sum_words_append (by simp), sum_words_append (by simp), sum_words_append (a := _ ++ UdpHeader.toBytes _) (by simp),
    sum_words_append (b := UdpHeader.toBytes _) (by simp), sum_words_header]
  omega

/-- The checksum field adds its value to the sum of a datagram over IPv6. -/
theorem sum_words_udpIp6Summed (header : UdpHeader) (payload : Bytes) (s d : Ipv6Addr) (c : UInt16) :
    (words (udpIp6Summed { header with checksum := c } payload s d)).sum =
      (words (udpIp6Summed { header with checksum := 0 } payload s d)).sum + c.toNat := by
  have hs := s.length_eq
  have hd := d.length_eq
  simp only [udpIp6Summed]
  rw [sum_words_append (by simp [hs, hd]), sum_words_append (by simp [hs, hd]),
    sum_words_append (a := _ ++ UdpHeader.toBytes _) (by simp [hs, hd]),
    sum_words_append (b := UdpHeader.toBytes _) (by simp [hs, hd]), sum_words_header]
  omega

/-- A routine that adds without wrapping and returns the complement of the sum follows the RFCs when the sum is no multiple of
`65535`, and only then. -/
theorem followsRfc_iff {summed : UInt16 → Bytes} {accumulator : Nat} {checksum : UInt16}
    (hl : (summed 0).length ≤ 65536 + 100) (hacc : accumulator = (words (summed 0)).sum) (hpos : (words (summed 0)).sum ≠ 0)
    (hck : checksum = UInt16.ofNat (65535 - ocSum (words (summed 0))))
    (hfield : ∀ c, (words (summed c)).sum = (words (summed 0)).sum + c.toNat) :
    FollowsRfc summed accumulator checksum ↔ ¬ 65535 ∣ (words (summed 0)).sum := by
  have hlt := ocSum_lt (words_lt (summed 0))
  have hmod := ocSum_mod (words_lt (summed 0))
  have hones := ocSum_eq_ones_iff (words_lt (summed 0))
  have hval : checksum.toNat = 65535 - ocSum (words (summed 0)) := by
    rw [hck, UInt16.toNat_ofNat']
    omega
  constructor
  · rintro h hdvd
    apply h.nonzero
    rw [← UInt16.toNat_inj, hval, hones.mpr ⟨hpos, hdvd⟩]
    rfl
  · intro hdvd
    have hne : 65535 - ocSum (words (summed 0)) ≠ 0 := by
      intro h0
      exact hdvd (hones.mp (by omega)).2
    refine ⟨sum_words_lt hl, hacc, ?_, ?_, ?_, ?_⟩
    · rw [hacc]
      exact foldCarries_lt (by omega) (sum_words_lt hl)
    · rw [rfcChecksum, if_neg hne, hck]
    · intro h0
      rw [h0] at hval
      exact hne hval.symm
    · rw [ocSum_eq_ones_iff (words_lt _), hfield, hval]
      omega

end UdpChecksumAux

open UdpChecksumAux ChecksumAux

/-- For a header without a checksum and a payload that fits a datagram, each of the two routines follows its RFC exactly when the
plain sum of the words of pseudo-header, header and padded payload is no multiple of `65535`. -/
theorem udp_checksums_follow_rfc_iff (header : UdpHeader) (payload : Bytes) (h0 : header.checksum = 0)
    (hl : payload.length ≤ 65527) :
    (∀ s d : UInt32,
      FollowsRfc (fun c => udpSummed { header with checksum := c } payload s d)
        (udpAccumulator (udpPseudoSum payload s d) header payload) (udpChecksum header payload s d) ↔
      ¬ 65535 ∣ (words (udpSummed header payload s d)).sum) ∧
    (∀ s d : Ipv6Addr,
      FollowsRfc (fun c => udpIp6Summed { header with checksum := c } payload s d)
        (udpAccumulator (udpIp6PseudoSum payload s d) header payload) (udpIp6Checksum header payload s d) ↔
      ¬ 65535 ∣ (words (udpIp6Summed header payload s d)).sum) := by
  have hh : { header with checksum := 0 } = header := by rw [← h0]
  refine ⟨fun s d => ?_, fun s d => ?_⟩
  · rw [← hh]
    refine followsRfc_iff ?_ ?_ ?_ ?_ ?_
    · rw [length_udpSummed]
      omega
    · exact udpAccumulator_udpPseudoSum _ s d hl
    · exact sum_udpSummed_ne _ _ _ _
    · exact udpChecksum_eq _ s d hl
    · exact sum_words_udpSummed header payload s d
  · rw [← hh]
    refine followsRfc_iff ?_ ?_ ?_ ?_ ?_
    · rw [length_udpIp6Summed]
      omega
    · exact udpAccumulator_udpIp6PseudoSum _ s d hl
    · exact sum_udpIp6Summed_ne _ _ _ _
    · exact udpIp6Checksum_eq _ s d hl
    · exact sum_words_udpIp6Summed header payload s d

/-- An empty datagram from `10.0.0.1:1024` to `10.0.0.2:53` gets the prescribed checksum. -/
theorem udp_checksums_follow_rfc_empty :
    FollowsRfc (fun c => udpSummed ⟨1024, 53, 8, c⟩ [] 0x0A000001 0x0A000002)
      (udpAccumulator (udpPseudoSum [] 0x0A000001 0x0A000002) ⟨1024, 53, 8, 0⟩ [])
      (udpChecksum ⟨1024, 53, 8, 0⟩ [] 0x0A000001 0x0A000002) :=
  ((udp_checksums_follow_rfc_iff ⟨1024, 53, 8, 0⟩ [] rfl (by decide)).1 _ _).mpr (by decide)

/-- From port 60326 the words of the same datagram sum to `0xFFFF`: the checksum returned is `0`, the one prescribed is `0xFFFF`. -/
theorem udp_checksum_zero : udpChecksum ⟨60326, 53, 8, 0⟩ [] 0x0A000001 0x0A000002 = 0 ∧
    rfcChecksum (udpSummed ⟨60326, 53, 8, 0⟩ [] 0x0A000001 0x0A000002) = 0xFFFF ∧
    ¬ FollowsRfc (fun c => udpSummed ⟨60326, 53, 8, c⟩ [] 0x0A000001 0x0A000002)
      (udpAccumulator (udpPseudoSum [] 0x0A000001 0x0A000002) ⟨60326, 53, 8, 0⟩ [])
      (udpChecksum ⟨60326, 53, 8, 0⟩ [] 0x0A000001 0x0A000002) :=
  ⟨by decide, by decide, fun h => h.nonzero (by decide)⟩

end PsiphonAndroid
