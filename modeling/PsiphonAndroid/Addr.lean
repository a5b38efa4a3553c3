import PsiphonAndroid.Lib.Bytes

/-!
# Socket addresses

`BAddr` of `system/BAddr.h`: an address family, an IP address and a port. The source keeps the IPv4 address and the port in
network byte order; here a field holds the number it stands for, and `Lib.be32` and `Lib.be16` give the bytes in memory. The
`packet` family is left out: no function modelled here takes one.
-/

namespace PsiphonAndroid

open Lib

/-- The sixteen bytes of an IPv6 address. -/
structure Ipv6Addr where
  bytes : Bytes
  length_eq : bytes.length = 16
  deriving DecidableEq

/-- `BAddr`: a socket address. -/
inductive BAddr where
  | none
  | ipv4 (ip : UInt32) (port : UInt16)
  | ipv6 (ip : Ipv6Addr) (port : UInt16)
  deriving DecidableEq

namespace BAddr

/-- `addr.type`: `BADDR_TYPE_NONE`, `BADDR_TYPE_IPV4`, `BADDR_TYPE_IPV6`. -/
def type : BAddr → Nat
  | .none => 0
  | .ipv4 _ _ => 1
  | .ipv6 _ _ => 2

/-- An address of one of the two IP families, as the assertions of `UdpGwClient_SubmitPacket` and `BSocksClient_Init` ask. -/
def IsIp (a : BAddr) : Prop := a.type = 1 ∨ a.type = 2

instance (a : BAddr) : Decidable a.IsIp := inferInstanceAs (Decidable (_ ∨ _))

end BAddr

/-- `B_COMPARE` of `misc/compare.h`. -/
def bCompare (a b : Nat) : Int := (if b < a then 1 else 0) - (if a < b then 1 else 0)

/-- The sign of `memcmp` on two buffers of one length: the first differing bytes decide. -/
def memcmp : Bytes → Bytes → Int
  | a :: as, b :: bs => if a = b then memcmp as bs else bCompare a.toNat b.toNat
  | _, _ => 0

/-- `BAddr_CompareOrder`. -/
def BAddr.compareOrder (addr1 addr2 : BAddr) : Int :=
  let cmp := bCompare addr1.type addr2.type
  if cmp ≠ 0 then cmp else
    match addr1, addr2 with
    | .ipv4 ip1 port1, .ipv4 ip2 port2 =>
      let cmp := bCompare ip1.toNat ip2.toNat
      if cmp ≠ 0 then cmp else bCompare port1.toNat port2.toNat
    | .ipv6 ip1 port1, .ipv6 ip2 port2 =>
      let cmp := memcmp ip1.bytes ip2.bytes
      if cmp ≠ 0 then cmp else bCompare port1.toNat port2.toNat
    | _, _ => 0

/-- `BAddr_Compare`: the two addresses are of one IP family and equal. -/
def BAddr.compare (addr1 addr2 : BAddr) : Bool := decide (addr1.IsIp ∧ addr1 = addr2)

theorem bCompare_eq_zero_iff (a b : Nat) : bCompare a b = 0 ↔ a = b := by
  unfold bCompare
  split <;> split <;> omega

theorem memcmp_eq_zero_iff {a b : Bytes} (h : a.length = b.length) : memcmp a b = 0 ↔ a = b := by
  induction a generalizing b with
  | nil =>
    cases b with
    | nil => simp [memcmp]
    | cons y ys => simp at h
  | cons x xs ih =>
    cases b with
    | nil => simp at h
    | cons y ys =>
      simp only [List.length_cons, Nat.add_right_cancel_iff] at h
      by_cases hxy : x = y
      · subst hxy
        simp [memcmp, ih h]
      · simp [memcmp, hxy, bCompare_eq_zero_iff, UInt8.toNat_inj]

/-- The order on addresses takes two addresses as equal exactly when they are. -/
theorem BAddr.compareOrder_eq_zero_iff (a b : BAddr) : a.compareOrder b = 0 ↔ a = b := by
  cases a with
  | none => cases b <;> simp [BAddr.compareOrder, BAddr.type, bCompare]
  | ipv4 ip port =>
    cases b with
    | none => simp [BAddr.compareOrder, BAddr.type, bCompare]
    | ipv4 ip' port' =>
      have hi := bCompare_eq_zero_iff ip.toNat ip'.toNat
      have hp := bCompare_eq_zero_iff port.toNat port'.toNat
      rw [UInt32.toNat_inj] at hi
      rw [UInt16.toNat_inj] at hp
      by_cases h : ip = ip' <;> simp [BAddr.compareOrder, BAddr.type, bCompare_eq_zero_iff, hi, hp, h]
    | ipv6 ip' port' => simp [BAddr.compareOrder, BAddr.type, bCompare]
  | ipv6 ip port =>
    cases b with
    | none => simp [BAddr.compareOrder, BAddr.type, bCompare]
    | ipv4 ip' port' => simp [BAddr.compareOrder, BAddr.type, bCompare]
    | ipv6 ip' port' =>
      have hi := memcmp_eq_zero_iff (ip.length_eq.trans ip'.length_eq.symm)
      have hp := bCompare_eq_zero_iff port.toNat port'.toNat
      rw [UInt16.toNat_inj] at hp
      have he : ip = ip' ↔ ip.bytes = ip'.bytes := by
        cases ip
        cases ip'
        simp
      by_cases h : ip.bytes = ip'.bytes
      · have hm : memcmp ip'.bytes ip'.bytes = 0 := (memcmp_eq_zero_iff rfl).mpr rfl
        simp [BAddr.compareOrder, BAddr.type, bCompare_eq_zero_iff, hm, hp, he, h]
      · simp [BAddr.compareOrder, BAddr.type, bCompare_eq_zero_iff, hi, he, h]

end PsiphonAndroid
