import Mathlib.Data.List.Basic
import Mathlib.Data.List.Perm.Basic
import PsiphonAndroid.Vpn.VpnManager

/-!
# The private address of the VPN interface

`selectPrivateAddress` of `VpnManager`: of four private addresses, one whose range no interface of the device is in. The candidates are
kept in a map, and the first in the order of its iteration is taken; here a map is the list of its entries in that order. Whether an
address is in a range is read off its dotted text.
-/

namespace PsiphonAndroid

/-- `Inet4Address`. -/
structure Inet4Address where
  a : UInt8
  b : UInt8
  c : UInt8
  d : UInt8
  deriving DecidableEq

/-- `InetAddress`; nothing is read of an address that is not an `Inet4Address`. -/
inductive InetAddress where
  | inet4 (address : Inet4Address)
  | inet6

/-- `instanceof Inet4Address`. -/
def InetAddress.inet4Address : InetAddress → Option Inet4Address
  | .inet4 address => some address
  | .inet6 => none

/-- The decimal text of a byte. -/
def octet (n : UInt8) : List Char := Nat.toDigits 10 n.toNat

/-- `getHostAddress`, which is never null for an `Inet4Address`. -/
def Inet4Address.getHostAddress (x : Inet4Address) : String :=
  String.ofList (octet x.a ++ '.' :: (octet x.b ++ '.' :: (octet x.c ++ '.' :: octet x.d)))

/-! ## `String` -/

/-- `compareTo`: the difference of the first characters that differ, or of the lengths. -/
def javaCompareToChars : List Char → List Char → Int
  | c :: s, d :: t => if c = d then javaCompareToChars s t else c.toNat - d.toNat
  | s, t => s.length - t.length

/-- `compareTo`. -/
def javaCompareTo (s t : String) : Int := javaCompareToChars s.toList t.toList

/-- `startsWith`. -/
def javaStartsWith (s p : String) : Bool := p.toList.isPrefixOf s.toList

/-- `substring(0, n)`, for a string of at least that length. -/
def javaSubstringTo (s : String) (n : Nat) : String := String.ofList (s.toList.take n)

/-! ## `selectPrivateAddress` -/

/-- The candidates, by their keys. -/
def privateAddressCandidates : List (String × PrivateAddress) :=
  [("10", ⟨"10.0.0.1", "10.0.0.0", 8, "10.0.0.2"⟩), ("172", ⟨"172.16.0.1", "172.16.0.0", 12, "172.16.0.2"⟩),
    ("192", ⟨"192.168.0.1", "192.168.0.0", 16, "192.168.0.2"⟩), ("169", ⟨"169.254.1.1", "169.254.1.0", 24, "169.254.1.2"⟩)]

/-- `candidates.remove`. -/
def removeCandidate (candidates : List (String × PrivateAddress)) (key : String) : List (String × PrivateAddress) :=
  candidates.filter fun c => c.1 ≠ key

/-- The body of the loops, for the text of an IPv4 address. -/
def removeInUse (candidates : List (String × PrivateAddress)) (ipAddress : String) : List (String × PrivateAddress) :=
  if javaStartsWith ipAddress "10." then removeCandidate candidates "10"
  else if 6 ≤ ipAddress.length ∧ javaCompareTo (javaSubstringTo ipAddress 6) "172.16" ≥ 0 ∧
      javaCompareTo (javaSubstringTo ipAddress 6) "172.31" ≤ 0 then removeCandidate candidates "172"
  else if javaStartsWith ipAddress "192.168" then removeCandidate candidates "192"
  else candidates

/-- The same for an address of any kind. -/
def considerAddress (candidates : List (String × PrivateAddress)) (inetAddress : InetAddress) : List (String × PrivateAddress) :=
  match inetAddress.inet4Address with
  | some address => removeInUse candidates address.getHostAddress
  | none => candidates

/-- The two loops, over the interfaces and over the addresses of each. -/
def remainingCandidates (candidates : List (String × PrivateAddress)) (netInterfaces : List (List InetAddress)) :
    List (String × PrivateAddress) :=
  netInterfaces.foldl (fun candidates netInterface => netInterface.foldl considerAddress candidates) candidates

/-- `selectPrivateAddress`, with the candidates in the order of their iteration; `netInterfaces` is what `getNetworkInterfaces` returns, or
the `SocketException` it throws. An error is the message of the `IllegalStateException`. -/
def selectPrivateAddress (candidates : List (String × PrivateAddress)) (netInterfaces : Except String (Option (List (List InetAddress)))) :
    Except String PrivateAddress :=
  match netInterfaces with
  | .error e => .error ("Error getting network interfaces: " ++ e)
  | .ok none => .error "No network interfaces found"
  | .ok (some netInterfaces) =>
    match remainingCandidates candidates netInterfaces with
    | [] => .error "No private address available"
    | c :: _ => .ok c.2

end PsiphonAndroid
