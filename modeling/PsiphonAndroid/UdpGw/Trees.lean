import Mathlib
import PsiphonAndroid.Structure.AvlTable
import PsiphonAndroid.UdpGw.Effects

/-!
# The trees of the UDP gateway client

The client's tables are indexes in `UdpGw.Client`; in the source they are AVL trees. Here are the orders of the two trees, as
`BAVL.h` asks for them: the families of the addresses, the addresses as numbers or as bytes, and the ports, one after another.
-/

namespace PsiphonAndroid

open Lib

/-- `B_COMPARE` orders numbers. -/
theorem bCompare_comparator : Comparator bCompare where
  range a b := by
    unfold bCompare
    split <;> split <;> omega
  swap a b := by
    unfold bCompare
    split <;> split <;> omega
  trans a b c := by
    unfold bCompare
    split <;> split <;> split <;> split <;> split <;> split <;> omega

theorem memcmp_range (a b : Bytes) : memcmp a b = -1 ∨ memcmp a b = 0 ∨ memcmp a b = 1 := by
  induction a generalizing b with
  | nil => simp [memcmp]
  | cons x xs ih =>
    cases b with
    | nil => simp [memcmp]
    | cons y ys =>
      rw [memcmp]
      split
      · exact ih ys
      · exact bCompare_comparator.range _ _

theorem memcmp_swap (a b : Bytes) : memcmp b a = -memcmp a b := by
  induction a generalizing b with
  | nil => cases b <;> simp [memcmp]
  | cons x xs ih =>
    cases b with
    | nil => simp [memcmp]
    | cons y ys =>
      rw [memcmp, memcmp]
      by_cases hxy : x = y
      · rw [if_pos hxy, if_pos hxy.symm]
        exact ih ys
      · rw [if_neg hxy, if_neg (Ne.symm hxy)]
        exact bCompare_comparator.swap _ _

theorem memcmp_trans {a b c : Bytes} (hab : a.length = b.length) (hbc : b.length = c.length) (h1 : memcmp a b ≤ 0)
    (h2 : memcmp b c ≤ 0) : memcmp a c ≤ 0 := by
  induction a generalizing b c with
  | nil => simp [memcmp]
  | cons x xs ih =>
    cases b with
    | nil => simp at hab
    | cons y ys =>
      cases c with
      | nil => simp at hbc
      | cons z zs =>
        rw [memcmp] at h1 h2 ⊢
        simp only [List.length_cons, Nat.add_right_cancel_iff] at hab hbc
        by_cases hxy : x = y
        · subst hxy
          rw [if_pos rfl] at h1
          by_cases hxz : x = z
          · rw [if_pos hxz] at h2 ⊢
            exact ih hab hbc h1 h2
          · rwa [if_neg hxz] at h2 ⊢
        · rw [if_neg hxy] at h1
          by_cases hyz : y = z
          · rwa [← hyz, if_neg hxy]
          · rw [if_neg hyz] at h2
            have htrans := bCompare_comparator.trans _ _ _ h1 h2
            by_cases hxz : x = z
            · -- Then `x < y < x`.
              subst hxz
              rw [bCompare_comparator.swap] at h2
              have := (bCompare_eq_zero_iff x.toNat y.toNat).1 (by omega)
              exact absurd (UInt8.toNat_inj.1 this) hxy
            · rwa [if_neg hxz]

/-- `uint16_comparator` orders the ids. -/
theorem uint16Comparator_comparator : Comparator uint16Comparator := bCompare_comparator.comap UInt16.toNat

namespace BAddr

/-- The number of an IPv4 address. -/
def v4 : BAddr → Nat
  | .ipv4 ip _ => ip.toNat
  | _ => 0

/-- The bytes of an IPv6 address. -/
def v6 : BAddr → Bytes
  | .ipv6 ip _ => ip.bytes
  | _ => List.replicate 16 0

/-- The port. -/
def portNat : BAddr → Nat
  | .ipv4 _ port => port.toNat
  | .ipv6 _ port => port.toNat
  | .none => 0

theorem length_v6 (a : BAddr) : a.v6.length = 16 := by
  cases a with
  | none => rfl
  | ipv4 ip port => rfl
  | ipv6 ip port => exact ip.length_eq

/-- `BAddr_CompareOrder` compares the types, then the IPv4 addresses, the IPv6 addresses and the ports. -/
theorem compareOrder_eq (a b : BAddr) : a.compareOrder b =
    if bCompare a.type b.type ≠ 0 then bCompare a.type b.type
    else if bCompare a.v4 b.v4 ≠ 0 then bCompare a.v4 b.v4
    else if memcmp a.v6 b.v6 ≠ 0 then memcmp a.v6 b.v6 else bCompare a.portNat b.portNat := by
  have hsame : ∀ n, bCompare n n = 0 := fun n => (bCompare_eq_zero_iff n n).2 rfl
  have hmem : ∀ l : Bytes, memcmp l l = 0 := fun l => (memcmp_eq_zero_iff rfl).2 rfl
  cases a with
  | none =>
    cases b with
    | none => simp only [compareOrder, type, v4, v6, portNat, hsame, hmem, ne_eq, not_true_eq_false, if_false]
    | ipv4 ip' port' => simp [compareOrder, type, bCompare]
    | ipv6 ip' port' => simp [compareOrder, type, bCompare]
  | ipv4 ip port =>
    cases b with
    | none => simp [compareOrder, type, bCompare]
    | ipv4 ip' port' => simp only [compareOrder, type, v4, v6, portNat, hsame, hmem, ne_eq, not_true_eq_false, if_false]
    | ipv6 ip' port' => simp [compareOrder, type, bCompare]
  | ipv6 ip port =>
    cases b with
    | none => simp [compareOrder, type, bCompare]
    | ipv4 ip' port' => simp [compareOrder, type, bCompare]
    | ipv6 ip' port' =>
      by_cases hm : memcmp ip.bytes ip'.bytes = 0
      · simp only [compareOrder, type, v4, v6, portNat, hsame, hm, ne_eq, not_true_eq_false, if_false]
      · simp only [compareOrder, type, v4, v6, hsame, hm, ne_eq, not_true_eq_false, not_false_eq_true, if_true, if_false]

/-- `BAddr_CompareOrder` orders the addresses. -/
theorem compareOrder_comparator : Comparator compareOrder := by
  have hbytes : Comparator fun a b : BAddr => memcmp a.v6 b.v6 :=
    ⟨fun a b => memcmp_range _ _, fun a b => memcmp_swap _ _, fun a b c =>
      memcmp_trans (a.length_v6.trans b.length_v6.symm) (b.length_v6.trans c.length_v6.symm)⟩
  have hall := (bCompare_comparator.comap type).lex ((bCompare_comparator.comap v4).lex (hbytes.lex (bCompare_comparator.comap portNat)))
  have heq : compareOrder = _ := funext fun a => funext fun b => compareOrder_eq a b
  rw [heq]
  exact hall

end BAddr

/-- `conaddr_comparator` orders the pairs. -/
theorem conaddrComparator_comparator : Comparator conaddrComparator :=
  (BAddr.compareOrder_comparator.comap ConAddr.remoteAddr).lex (BAddr.compareOrder_comparator.comap ConAddr.localAddr)

/-- The two trees of the client are searched by total orders: what `BAVL.h` asserts of a comparator, that it returns one of `-1`, `0`
and `1`, and what a search relies on, hold of all pairs of addresses of either family and of all ids; and two keys compare equal only
where they are the same. -/
theorem connection_tree_orders :
    (Comparator conaddrComparator ∧ ∀ a b, conaddrComparator a b = 0 ↔ a = b) ∧
      (Comparator uint16Comparator ∧ ∀ a b, uint16Comparator a b = 0 ↔ a = b) :=
  ⟨⟨conaddrComparator_comparator, conaddrComparator_eq_zero_iff⟩, uint16Comparator_comparator, uint16Comparator_eq_zero_iff⟩

end PsiphonAndroid
