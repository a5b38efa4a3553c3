import Mathlib
import PsiphonAndroid.Lib.Url
import PsiphonAndroid.Vpn.PrivateAddress

/-!
# When the private address collides

The tests on the text of an address say what they should for 10/8 and 192.168/16. For 172.16/12 the comparison of six characters also
takes in other addresses, and no test at all takes 169.254.1.1 out of the choice.
-/

namespace PsiphonAndroid

open Lib

/-- The address as a number. -/
def Inet4Address.toNat (x : Inet4Address) : Nat := ((x.a.toNat * 256 + x.b.toNat) * 256 + x.c.toNat) * 256 + x.d.toNat

/-- The address lies in the network of the given address and prefix length. -/
def Inet4Address.InNetwork (x net : Inet4Address) (len : Nat) : Prop := x.toNat / 2 ^ (32 - len) = net.toNat / 2 ^ (32 - len)

instance (x net : Inet4Address) (len : Nat) : Decidable (x.InNetwork net len) := inferInstanceAs (Decidable (_ = _))

/-- The address lies in the subnet of a candidate. -/
def PrivateAddress.Contains (p : PrivateAddress) (x : Inet4Address) : Prop :=
  ∃ net : Inet4Address, net.getHostAddress = p.subnet ∧ x.InNetwork net p.prefixLength

/-- The private ranges of the candidates, by their keys. -/
def InPrivateRange (x : Inet4Address) (key : String) : Prop :=
  (key = "10" ∧ x.InNetwork ⟨10, 0, 0, 0⟩ 8) ∨ (key = "172" ∧ x.InNetwork ⟨172, 16, 0, 0⟩ 12) ∨
    (key = "192" ∧ x.InNetwork ⟨192, 168, 0, 0⟩ 16) ∨ (key = "169" ∧ x.InNetwork ⟨169, 254, 0, 0⟩ 16)

/-- The IPv4 addresses of the interfaces. -/
def inet4Addresses (netInterfaces : List (List InetAddress)) : List Inet4Address :=
  netInterfaces.flatten.filterMap InetAddress.inet4Address

/-- The address is taken to be in 172.16/12 and is not: the text of its second byte is that of one from 16 to 31 as far as two characters
go. -/
def MistakenFor172 (x : Inet4Address) : Prop := x.a = 172 ∧ (x.b = 2 ∨ x.b = 3 ∨ 160 ≤ x.b)

instance (x : Inet4Address) : Decidable (MistakenFor172 x) := inferInstanceAs (Decidable (_ ∧ _))

/-- The address is taken to be in the range of a candidate. -/
def TakenToBeIn (x : Inet4Address) (key : String) : Prop :=
  (key = "10" ∧ x.InNetwork ⟨10, 0, 0, 0⟩ 8) ∨ (key = "172" ∧ (x.InNetwork ⟨172, 16, 0, 0⟩ 12 ∨ MistakenFor172 x)) ∨
    (key = "192" ∧ x.InNetwork ⟨192, 168, 0, 0⟩ 16)

instance (x : Inet4Address) (key : String) : Decidable (TakenToBeIn x key) := inferInstanceAs (Decidable (_ ∨ _))

namespace PrivateAddressAux

/-! ## Texts of bytes -/

/-- An octet has no dot. -/
theorem dot_not_mem_octet (n : UInt8) : '.' ∉ octet n := by
  intro h
  exact absurd (Nat.isDigit_of_mem_toDigits (by decide) (by decide) h) (by decide)

/-- Different octets have different texts. -/
theorem octet_injective {m n : UInt8} (h : octet m = octet n) : m = n := by
  have hm := @Nat.ofDigitChars_ten_toDigits m.toNat
  have hn := @Nat.ofDigitChars_ten_toDigits n.toNat
  unfold octet at h
  rw [h] at hm
  exact UInt8.toNat_inj.mp (hm.symm.trans hn)

/-- What holds of the texts of all bytes is found by trying them. -/
theorem forall_byte {P : UInt8 → Prop} [DecidablePred P] (h : ((List.range 256).all fun n => decide (P (UInt8.ofNat n))) = true)
    (n : UInt8) : P n := by
  have hmem : n.toNat ∈ List.range 256 := List.mem_range.mpr n.toNat_lt
  have hn := of_decide_eq_true (List.all_eq_true.mp h n.toNat hmem)
  rwa [UInt8.ofNat_toNat] at hn

/-- An octet has one to three digits. -/
theorem length_octet (n : UInt8) : 1 ≤ (octet n).length ∧ (octet n).length ≤ 3 :=
  forall_byte (P := fun n => 1 ≤ (octet n).length ∧ (octet n).length ≤ 3) (by decide +kernel) n

/-- The text of an address behind its first byte. -/
def afterFirst (x : Inet4Address) : List Char := octet x.b ++ '.' :: (octet x.c ++ '.' :: octet x.d)

/-- The text of an address begins with its first octet and a dot. -/
theorem toList_getHostAddress (x : Inet4Address) : x.getHostAddress.toList = (octet x.a ++ ['.']) ++ afterFirst x := by
  rw [List.append_assoc]
  exact String.toList_ofList

/-- A text is cut at its first dot. -/
theorem cut_at_dot {m n : UInt8} {s t : List Char} (h : octet m ++ '.' :: s = octet n ++ '.' :: t) : m = n ∧ s = t := by
  have hcut := congrArg (cut '.') h
  rw [cut_append (dot_not_mem_octet m), cut_append (dot_not_mem_octet n)] at hcut
  exact ⟨octet_injective (congrArg Prod.fst hcut), Option.some.inj (congrArg Prod.snd hcut)⟩

/-- Different addresses have different texts. -/
theorem getHostAddress_injective {x y : Inet4Address} (h : x.getHostAddress = y.getHostAddress) : x = y := by
  obtain ⟨a, b, c, d⟩ := x
  obtain ⟨a', b', c', d'⟩ := y
  obtain ⟨rfl, h⟩ := cut_at_dot (String.ofList_injective h)
  obtain ⟨rfl, h⟩ := cut_at_dot h
  obtain ⟨rfl, h⟩ := cut_at_dot h
  obtain rfl := octet_injective h
  rfl

/-! ## The tests -/

/-- A test on the beginning of a text is a test on the part it is made of, as far as that goes. -/
theorem take_of_isPrefixOf {p s t : List Char} (h : p.isPrefixOf (s ++ t) = true) : p.take s.length = s.take p.length := by
  have hp := List.prefix_iff_eq_take.mp (List.isPrefixOf_iff_prefix.mp h)
  calc p.take s.length = ((s ++ t).take p.length).take s.length := by rw [← hp]
    _ = ((s ++ t).take s.length).take p.length := by rw [List.take_take, List.take_take, Nat.min_comm]
    _ = s.take p.length := by rw [List.take_left]

/-- The test for `10.` is one of the first octet. -/
theorem startsWith_ten (x : Inet4Address) : javaStartsWith x.getHostAddress "10." = true ↔ x.a = 10 := by
  unfold javaStartsWith
  rw [toList_getHostAddress]
  constructor
  · intro h
    have htake := take_of_isPrefixOf h
    revert htake
    exact forall_byte (P := fun n => "10.".toList.take (octet n ++ ['.']).length = (octet n ++ ['.']).take 3 → n = 10)
      (by decide +kernel) x.a
  · intro h
    rw [h]
    rfl

/-- The test for `192.168` is one of the first two octets. -/
theorem startsWith_192 (x : Inet4Address) : javaStartsWith x.getHostAddress "192.168" = true ↔ x.a = 192 ∧ x.b = 168 := by
  unfold javaStartsWith
  rw [toList_getHostAddress]
  constructor
  · intro h
    have ha : x.a = 192 := by
      have htake := take_of_isPrefixOf h
      revert htake
      exact forall_byte (P := fun n => "192.168".toList.take (octet n ++ ['.']).length = (octet n ++ ['.']).take 7 → n = 192)
        (by decide +kernel) x.a
    refine ⟨ha, ?_⟩
    rw [ha] at h
    have h : "168".toList.isPrefixOf ((octet x.b ++ ['.']) ++ (octet x.c ++ '.' :: octet x.d)) = true := by
      rw [List.append_assoc]
      exact h
    have htake := take_of_isPrefixOf h
    revert htake
    exact forall_byte (P := fun n => "168".toList.take (octet n ++ ['.']).length = (octet n ++ ['.']).take 3 → n = 168)
      (by decide +kernel) x.b
  · rintro ⟨ha, hb⟩
    unfold afterFirst
    rw [ha, hb]
    rfl

/-- The first difference of two texts, as far as both go. -/
def firstDifference : List Char → List Char → Int
  | c :: s, d :: t => if c = d then firstDifference s t else c.toNat - d.toNat
  | _, _ => 0

/-- Where two texts differ, what follows does not count. -/
theorem compareTo_of_difference {s p : List Char} (t q : List Char) (h : firstDifference s p ≠ 0) :
    javaCompareToChars (s ++ t) (p ++ q) = firstDifference s p := by
  induction s generalizing p with
  | nil => exact absurd rfl h
  | cons c s ih =>
    cases p with
    | nil => exact absurd rfl h
    | cons d p =>
      rw [firstDifference] at h ⊢
      rw [List.cons_append, List.cons_append, javaCompareToChars]
      split
      · rename_i hcd
        rw [if_pos hcd] at h
        exact ih h
      · rfl

/-- A common prefix does not matter for the order. -/
theorem javaCompareToChars_append (p s t : List Char) : javaCompareToChars (p ++ s) (p ++ t) = javaCompareToChars s t := by
  induction p with
  | nil => rfl
  | cons c p ih => rwa [List.cons_append, List.cons_append, javaCompareToChars, if_pos rfl]

/-- Which second bytes the comparison takes in. -/
def looks172 (n : UInt8) : Prop := n = 2 ∨ n = 3 ∨ (16 ≤ n ∧ n ≤ 31) ∨ 160 ≤ n

instance (n : UInt8) : Decidable (looks172 n) := inferInstanceAs (Decidable (_ ∨ _))

/-- The comparisons of strings for 172.16 to 172.31, in octets. -/
theorem compare_172 (x : Inet4Address) :
    (6 ≤ x.getHostAddress.length ∧ javaCompareTo (javaSubstringTo x.getHostAddress 6) "172.16" ≥ 0 ∧
      javaCompareTo (javaSubstringTo x.getHostAddress 6) "172.31" ≤ 0) ↔ x.a = 172 ∧ looks172 x.b := by
  have hlen : 6 ≤ x.getHostAddress.length := by
    rw [← String.length_toList, toList_getHostAddress]
    unfold afterFirst
    simp only [List.length_append, List.length_cons, List.length_nil]
    have ha := length_octet x.a
    have hb := length_octet x.b
    have hc := length_octet x.c
    have hd := length_octet x.d
    omega
  have hshort : (octet x.a ++ ['.']).take 6 = octet x.a ++ ['.'] := by
    refine List.take_of_length_le ?_
    have := length_octet x.a
    rw [List.length_append, List.length_singleton]
    omega
  unfold javaCompareTo javaSubstringTo
  rw [String.toList_ofList, toList_getHostAddress, List.take_append, hshort]
  by_cases ha : x.a = 172
  · -- The first four characters agree, and two of the second byte are compared.
    have hrest : (afterFirst x).take (6 - (octet 172 ++ ['.']).length) = (octet x.b ++ ['.']).take 2 := by
      have hb := length_octet x.b
      have happ : afterFirst x = (octet x.b ++ ['.']) ++ (octet x.c ++ '.' :: octet x.d) := by
        rw [List.append_assoc]
        rfl
      have hle : 2 ≤ (octet x.b ++ ['.']).length := by
        rw [List.length_append, List.length_singleton]
        omega
      rw [happ]
      exact List.take_append_of_le_length hle
    rw [ha, hrest]
    have h16 : javaCompareToChars (octet 172 ++ ['.'] ++ (octet x.b ++ ['.']).take 2) "172.16".toList =
        javaCompareToChars ((octet x.b ++ ['.']).take 2) "16".toList := javaCompareToChars_append "172.".toList _ _
    have h31 : javaCompareToChars (octet 172 ++ ['.'] ++ (octet x.b ++ ['.']).take 2) "172.31".toList =
        javaCompareToChars ((octet x.b ++ ['.']).take 2) "31".toList := javaCompareToChars_append "172.".toList _ _
    rw [h16, h31]
    have htest := forall_byte (P := fun n => (javaCompareToChars ((octet n ++ ['.']).take 2) "16".toList ≥ 0 ∧
      javaCompareToChars ((octet n ++ ['.']).take 2) "31".toList ≤ 0) ↔ looks172 n) (by decide +kernel) x.b
    rw [htest]
    exact ⟨fun h => ⟨rfl, h.2⟩, fun h => ⟨hlen, h.2⟩⟩
  · -- The first byte differs within the first four characters, in the same way from both ends.
    have hdiff := forall_byte (P := fun n => n = 172 ∨ firstDifference (octet n ++ ['.']) "172.".toList ≠ 0) (by decide +kernel) x.a
    have hdiff := hdiff.resolve_left ha
    have h16 := compareTo_of_difference ((afterFirst x).take (6 - (octet x.a ++ ['.']).length)) "16".toList hdiff
    have h31 := compareTo_of_difference ((afterFirst x).take (6 - (octet x.a ++ ['.']).length)) "31".toList hdiff
    constructor
    · rintro ⟨-, hge, hle⟩
      exact absurd (Int.le_antisymm (h31 ▸ hle) (h16 ▸ hge)) hdiff
    · exact fun h => absurd h.1 ha

/-! ## Networks -/

/-- The network 10.0.0.0/8. -/
theorem inNetwork_10 (x : Inet4Address) : x.InNetwork ⟨10, 0, 0, 0⟩ 8 ↔ x.a = 10 := by
  unfold Inet4Address.InNetwork Inet4Address.toNat
  rw [← UInt8.toNat_inj]
  have hb := x.b.toNat_lt
  have hc := x.c.toNat_lt
  have hd := x.d.toNat_lt
  simp only [UInt8.reduceToNat, Nat.reduceSub, Nat.reducePow, Nat.reduceMul, Nat.reduceAdd, Nat.reduceDiv]
  omega

/-- The network 172.16.0.0/12. -/
theorem inNetwork_172 (x : Inet4Address) : x.InNetwork ⟨172, 16, 0, 0⟩ 12 ↔ x.a = 172 ∧ 16 ≤ x.b ∧ x.b ≤ 31 := by
  unfold Inet4Address.InNetwork Inet4Address.toNat
  rw [← UInt8.toNat_inj, UInt8.le_iff_toNat_le, UInt8.le_iff_toNat_le]
  have hb := x.b.toNat_lt
  have hc := x.c.toNat_lt
  have hd := x.d.toNat_lt
  simp only [UInt8.reduceToNat, Nat.reduceSub, Nat.reducePow, Nat.reduceMul, Nat.reduceAdd, Nat.reduceDiv]
  omega

/-- The network 192.168.0.0/16. -/
theorem inNetwork_192 (x : Inet4Address) : x.InNetwork ⟨192, 168, 0, 0⟩ 16 ↔ x.a = 192 ∧ x.b = 168 := by
  unfold Inet4Address.InNetwork Inet4Address.toNat
  rw [← UInt8.toNat_inj, ← UInt8.toNat_inj]
  have hb := x.b.toNat_lt
  have hc := x.c.toNat_lt
  have hd := x.d.toNat_lt
  simp only [UInt8.reduceToNat, Nat.reduceSub, Nat.reducePow, Nat.reduceMul, Nat.reduceAdd, Nat.reduceDiv]
  omega

/-- The second octets that the comparisons take for 16 to 31. -/
theorem looks172_iff (n : UInt8) : looks172 n ↔ (16 ≤ n ∧ n ≤ 31) ∨ n = 2 ∨ n = 3 ∨ 160 ≤ n := by
  unfold looks172
  tauto

/-! ## The loop -/

/-- One address takes those candidates out whose range it is taken to be in. -/
theorem removeInUse_eq (candidates : List (String × PrivateAddress)) (x : Inet4Address) :
    removeInUse candidates x.getHostAddress = candidates.filter fun c => ¬TakenToBeIn x c.1 := by
  have hkeep : ∀ key : String, (∀ k, TakenToBeIn x k ↔ k = key) →
      removeCandidate candidates key = candidates.filter fun c => ¬TakenToBeIn x c.1 := by
    intro key hkey
    unfold removeCandidate
    congr 1
    funext c
    simp [hkey c.1]
  have h172 : (x.a = 172 ∧ looks172 x.b) ↔ (x.InNetwork ⟨172, 16, 0, 0⟩ 12 ∨ MistakenFor172 x) := by
    rw [inNetwork_172, looks172_iff, MistakenFor172]
    tauto
  unfold removeInUse
  simp only [startsWith_ten, compare_172, startsWith_192]
  split
  · rename_i h10
    refine hkeep "10" fun k => ?_
    rw [TakenToBeIn, ← h172, inNetwork_10, inNetwork_192]
    simp [h10]
  · rename_i h10
    split
    · rename_i h
      refine hkeep "172" fun k => ?_
      rw [TakenToBeIn, ← h172, inNetwork_10, inNetwork_192]
      simp [h]
    · rename_i h
      split
      · rename_i h'
        refine hkeep "192" fun k => ?_
        rw [TakenToBeIn, ← h172, inNetwork_10, inNetwork_192]
        simp [h']
      · rename_i h'
        rw [List.filter_eq_self.mpr]
        intro c _
        refine decide_eq_true ?_
        rw [TakenToBeIn, ← h172, inNetwork_10, inNetwork_192]
        simp [h10, h, h']

/-- The loops take out those candidates that some address is taken to be in the range of. -/
theorem remainingCandidates_eq (candidates : List (String × PrivateAddress)) (netInterfaces : List (List InetAddress)) :
    remainingCandidates candidates netInterfaces =
      candidates.filter fun c => ∀ x ∈ inet4Addresses netInterfaces, ¬TakenToBeIn x c.1 := by
  unfold remainingCandidates inet4Addresses
  rw [← List.foldl_flatten]
  induction netInterfaces.flatten generalizing candidates with
  | nil => simp
  | cons address addresses ih =>
    rw [List.foldl_cons, ih]
    cases address with
    | inet4 x =>
      change (removeInUse candidates x.getHostAddress).filter _ = _
      rw [removeInUse_eq, List.filter_filter]
      congr 1
      funext c
      have hcons : (InetAddress.inet4 x :: addresses).filterMap InetAddress.inet4Address =
          x :: addresses.filterMap InetAddress.inet4Address := rfl
      rw [hcons, ← Bool.decide_and]
      congr 1
      rw [List.forall_mem_cons, and_comm]
    | inet6 => rfl

/-! ## The choice -/

/-- The candidate with the key of 169.254.1.1. -/
def linkLocal : String × PrivateAddress := ("169", ⟨"169.254.1.1", "169.254.1.0", 24, "169.254.1.2"⟩)

/-- No address is taken to be in 169.254. -/
theorem not_takenToBeIn_169 (x : Inet4Address) : ¬TakenToBeIn x "169" := by
  rintro (⟨h, -⟩ | ⟨h, -⟩ | ⟨h, -⟩) <;> exact absurd h (by decide)

/-- The four candidates, in whatever order. -/
theorem mem_order {order : List (String × PrivateAddress)} (horder : order.Perm privateAddressCandidates) {c : String × PrivateAddress} :
    c ∈ order ↔ c = ("10", ⟨"10.0.0.1", "10.0.0.0", 8, "10.0.0.2"⟩) ∨ c = ("172", ⟨"172.16.0.1", "172.16.0.0", 12, "172.16.0.2"⟩) ∨
      c = ("192", ⟨"192.168.0.1", "192.168.0.0", 16, "192.168.0.2"⟩) ∨ c = linkLocal := by
  rw [horder.mem_iff, privateAddressCandidates]
  simp only [List.mem_cons, List.not_mem_nil, or_false, linkLocal]

/-- The candidates around 169.254.1.1. -/
theorem order_split {order : List (String × PrivateAddress)} (horder : order.Perm privateAddressCandidates) :
    ∃ post, order = order.takeWhile (fun c => c.1 ≠ "169") ++ linkLocal :: post := by
  have hne : order.dropWhile (fun c => decide (c.1 ≠ "169")) ≠ [] := by
    intro hn
    have := List.dropWhile_eq_nil_iff.mp hn linkLocal ((mem_order horder).mpr (by simp))
    exact absurd this (by decide)
  obtain ⟨c, post, hdrop⟩ := List.exists_cons_of_ne_nil hne
  have happ := List.takeWhile_append_dropWhile (p := fun c : String × PrivateAddress => decide (c.1 ≠ "169")) (l := order)
  rw [hdrop] at happ
  have hkey : c.1 = "169" := by
    have := List.head_dropWhile_not (fun c : String × PrivateAddress => decide (c.1 ≠ "169")) hne
    simp only [hdrop, List.head_cons] at this
    simpa using this
  have hc : c = linkLocal := by
    have hmem : c ∈ order := by
      rw [← happ]
      simp
    rcases (mem_order horder).mp hmem with rfl | rfl | rfl | rfl
    · exact absurd hkey (by decide)
    · exact absurd hkey (by decide)
    · exact absurd hkey (by decide)
    · rfl
  exact ⟨post, by rw [← hc]; exact happ.symm⟩

/-- A candidate contains the addresses of its network. -/
theorem contains_iff {p : PrivateAddress} (net : Inet4Address) (hnet : net.getHostAddress = p.subnet) (x : Inet4Address) :
    p.Contains x ↔ x.InNetwork net p.prefixLength := by
  constructor
  · rintro ⟨net', hnet', h⟩
    rwa [getHostAddress_injective (hnet'.trans hnet.symm)] at h
  · exact fun h => ⟨net, hnet, h⟩

variable {order : List (String × PrivateAddress)} {netInterfaces : List (List InetAddress)}

/-- The candidate that is chosen: the first before 169.254.1.1 that no address is taken to be in the range of, or 169.254.1.1. -/
theorem selectPrivateAddress_eq (horder : order.Perm privateAddressCandidates) :
    selectPrivateAddress order (.ok (some netInterfaces)) =
      .ok (((order.takeWhile fun c => c.1 ≠ "169").find? fun c =>
        ∀ x ∈ inet4Addresses netInterfaces, ¬TakenToBeIn x c.1).getD linkLocal).2 := by
  obtain ⟨post, hsplit⟩ := order_split horder
  have hkept : decide (∀ x ∈ inet4Addresses netInterfaces, ¬TakenToBeIn x linkLocal.1) = true :=
    decide_eq_true fun x _ => not_takenToBeIn_169 x
  have hfilter : remainingCandidates order netInterfaces =
      (order.takeWhile fun c => c.1 ≠ "169").filter (fun c => ∀ x ∈ inet4Addresses netInterfaces, ¬TakenToBeIn x c.1) ++
        linkLocal :: post.filter fun c => ∀ x ∈ inet4Addresses netInterfaces, ¬TakenToBeIn x c.1 := by
    rw [remainingCandidates_eq]
    conv_lhs => rw [hsplit]
    rw [List.filter_append, List.filter_cons, if_pos hkept]
  unfold selectPrivateAddress
  dsimp only
  rw [hfilter, ← List.head?_filter]
  cases (order.takeWhile fun c => decide (c.1 ≠ "169")).filter
    fun c => decide (∀ x ∈ inet4Addresses netInterfaces, ¬TakenToBeIn x c.1) with
  | nil => rfl
  | cons c rest => rfl

/-- Which addresses a chosen candidate has in its subnet. -/
theorem chosen_free_iff (horder : order.Perm privateAddressCandidates) :
    (∀ p, selectPrivateAddress order (.ok (some netInterfaces)) = .ok p → ∀ x ∈ inet4Addresses netInterfaces, ¬p.Contains x) ↔
      ((∃ x ∈ inet4Addresses netInterfaces, x.InNetwork ⟨169, 254, 1, 0⟩ 24) →
        ∃ c ∈ order.takeWhile (fun c => c.1 ≠ "169"), ∀ x ∈ inet4Addresses netInterfaces, ¬TakenToBeIn x c.1) := by
  rw [selectPrivateAddress_eq horder]
  cases hfind : (order.takeWhile fun c => c.1 ≠ "169").find? fun c => ∀ x ∈ inet4Addresses netInterfaces, ¬TakenToBeIn x c.1 with
  | none =>
    have hnone := List.find?_eq_none.mp hfind
    constructor
    · rintro h ⟨x, hx, hnet⟩
      exact absurd ((@contains_iff linkLocal.2 ⟨169, 254, 1, 0⟩ (by decide) x).mpr hnet) (h _ rfl x hx)
    · rintro h p ⟨⟩ x hx hcontains
      have hnet := (@contains_iff linkLocal.2 ⟨169, 254, 1, 0⟩ (by decide) x).mp hcontains
      obtain ⟨c, hc, hfree⟩ := h ⟨x, hx, hnet⟩
      exact absurd (decide_eq_true hfree) (hnone c hc)
  | some c =>
    have hstays := List.find?_some hfind
    have hfree := of_decide_eq_true hstays
    have hmem := List.mem_of_find?_eq_some hfind
    refine ⟨fun _ _ => ⟨c, hmem, hfree⟩, ?_⟩
    rintro - p ⟨⟩ x hx hcontains
    have hkey : c.1 ≠ "169" := by simpa using List.mem_takeWhile_imp hmem
    rcases (mem_order horder).mp ((List.takeWhile_sublist _).subset hmem) with rfl | rfl | rfl | rfl
    · exact hfree x hx (Or.inl ⟨rfl, (contains_iff ⟨10, 0, 0, 0⟩ (by decide) x).mp hcontains⟩)
    · exact hfree x hx (Or.inr (Or.inl ⟨rfl, Or.inl ((contains_iff ⟨172, 16, 0, 0⟩ (by decide) x).mp hcontains)⟩))
    · exact hfree x hx (Or.inr (Or.inr ⟨rfl, (contains_iff ⟨192, 168, 0, 0⟩ (by decide) x).mp hcontains⟩))
    · exact absurd rfl hkey

/-- Which candidates are removed. -/
theorem removed_in_use_iff (horder : order.Perm privateAddressCandidates) :
    (∀ c ∈ order, c ∉ remainingCandidates order netInterfaces → ∃ x ∈ inet4Addresses netInterfaces, InPrivateRange x c.1) ↔
      ((∃ x ∈ inet4Addresses netInterfaces, MistakenFor172 x) →
        ∃ x ∈ inet4Addresses netInterfaces, x.InNetwork ⟨172, 16, 0, 0⟩ 12) := by
  have hremoved : ∀ c ∈ order, c ∉ remainingCandidates order netInterfaces ↔ ∃ x ∈ inet4Addresses netInterfaces, TakenToBeIn x c.1 := by
    intro c hc
    rw [remainingCandidates_eq, List.mem_filter, decide_eq_true_iff]
    simp [hc]
  constructor
  · rintro h ⟨x, hx, hmistaken⟩
    have hc : ("172", ⟨"172.16.0.1", "172.16.0.0", 12, "172.16.0.2"⟩) ∈ order := (mem_order horder).mpr (by simp)
    obtain ⟨y, hy, hrange⟩ := h _ hc ((hremoved _ hc).mpr ⟨x, hx, Or.inr (Or.inl ⟨rfl, Or.inr hmistaken⟩)⟩)
    refine ⟨y, hy, ?_⟩
    rcases hrange with ⟨hkey, -⟩ | ⟨-, hnet⟩ | ⟨hkey, -⟩ | ⟨hkey, -⟩
    · exact absurd hkey (by decide)
    · exact hnet
    · exact absurd hkey (by decide)
    · exact absurd hkey (by decide)
  · intro h c hc hgone
    obtain ⟨x, hx, htaken⟩ := (hremoved c hc).mp hgone
    rcases htaken with ⟨hkey, hnet⟩ | ⟨hkey, hnet | hmistaken⟩ | ⟨hkey, hnet⟩
    · exact ⟨x, hx, Or.inl ⟨hkey, hnet⟩⟩
    · exact ⟨x, hx, Or.inr (Or.inl ⟨hkey, hnet⟩)⟩
    · obtain ⟨y, hy, hnet⟩ := h ⟨x, hx, hmistaken⟩
      exact ⟨y, hy, Or.inr (Or.inl ⟨hkey, hnet⟩)⟩
    · exact ⟨x, hx, Or.inr (Or.inr (Or.inl ⟨hkey, hnet⟩))⟩

end PrivateAddressAux

open PrivateAddressAux

/-- When the VPN subnet does not collide, for every list of addresses of the interfaces and every order of the candidates: no address lies
in the subnet of the candidate that is returned, and a candidate is removed only if some address lies in its private range, exactly when
both hold:
1. No address lies in 169.254.1.0/24, or a candidate that comes before 169.254.1.1 stays, since no address is taken to be in its range.
2. No address is mistaken for one of 172.16/12, or there is one that lies in it. -/
theorem private_address_free_iff {order : List (String × PrivateAddress)} (horder : order.Perm privateAddressCandidates)
    (netInterfaces : List (List InetAddress)) :
    ((∀ p, selectPrivateAddress order (.ok (some netInterfaces)) = .ok p → ∀ x ∈ inet4Addresses netInterfaces, ¬p.Contains x) ∧
      (∀ c ∈ order, c ∉ remainingCandidates order netInterfaces → ∃ x ∈ inet4Addresses netInterfaces, InPrivateRange x c.1)) ↔
    (((∃ x ∈ inet4Addresses netInterfaces, x.InNetwork ⟨169, 254, 1, 0⟩ 24) →
        ∃ c ∈ order.takeWhile (fun c => c.1 ≠ "169"), ∀ x ∈ inet4Addresses netInterfaces, ¬TakenToBeIn x c.1) ∧
      ((∃ x ∈ inet4Addresses netInterfaces, MistakenFor172 x) →
        ∃ x ∈ inet4Addresses netInterfaces, x.InNetwork ⟨172, 16, 0, 0⟩ 12)) := by
  rw [chosen_free_iff horder, removed_in_use_iff horder]

/-- The interfaces have 127.0.0.1 and 10.1.2.3: 172.16.0.1 is chosen. -/
theorem private_address_free_ten : selectPrivateAddress privateAddressCandidates
      (.ok (some [[.inet4 ⟨127, 0, 0, 1⟩, .inet6], [.inet4 ⟨10, 1, 2, 3⟩]])) =
        .ok ⟨"172.16.0.1", "172.16.0.0", 12, "172.16.0.2"⟩ ∧
    ∀ x ∈ inet4Addresses [[.inet4 ⟨127, 0, 0, 1⟩, .inet6], [.inet4 ⟨10, 1, 2, 3⟩]],
      ¬PrivateAddress.Contains ⟨"172.16.0.1", "172.16.0.0", 12, "172.16.0.2"⟩ x := by
  have hselect : selectPrivateAddress privateAddressCandidates
      (.ok (some [[.inet4 ⟨127, 0, 0, 1⟩, .inet6], [.inet4 ⟨10, 1, 2, 3⟩]])) =
        .ok ⟨"172.16.0.1", "172.16.0.0", 12, "172.16.0.2"⟩ := by decide +kernel
  refine ⟨hselect, ?_⟩
  exact ((private_address_free_iff (List.Perm.refl _) _).mpr (by decide +kernel)).1 _ hselect

/-- A HashMap that iterates over 169.254.1.1 first: it is chosen although an interface has 169.254.1.7. And 172.2.0.1 takes 172.16.0.1 out
of the choice. -/
theorem private_address_collides :
    (∃ order : List (String × PrivateAddress), order.Perm privateAddressCandidates ∧ ∃ p,
      selectPrivateAddress order (.ok (some [[.inet4 ⟨169, 254, 1, 7⟩]])) = .ok p ∧ p.Contains ⟨169, 254, 1, 7⟩) ∧
    ("172", ⟨"172.16.0.1", "172.16.0.0", 12, "172.16.0.2"⟩) ∉
      remainingCandidates privateAddressCandidates [[.inet4 ⟨172, 2, 0, 1⟩]] ∧
    ¬InPrivateRange ⟨172, 2, 0, 1⟩ "172" := by
  refine ⟨⟨privateAddressCandidates.reverse, List.reverse_perm _, _, rfl, ?_⟩, ?_, ?_⟩
  · exact (contains_iff ⟨169, 254, 1, 0⟩ (by decide) _).mpr (by decide)
  · decide +kernel
  · unfold InPrivateRange
    decide

end PsiphonAndroid
