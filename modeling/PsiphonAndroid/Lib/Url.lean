import Mathlib.Data.List.TakeWhile

/-!
# URLs and percent-encoding

RFC 3986 over lists of characters: the percent-encoding of the UTF-8 bytes of a text and its inverse, and a strict parser for a URL
with an authority, `scheme://userinfo@host:port` followed by path, query and fragment. The parser accepts the grammar and nothing
else, so that it gives back a host only if it is one (`isHost_of_parseUrl`); a URL put together from parts that fit the grammar is
taken apart into these parts (`parseUrl_join`).
-/

namespace Lib

/-! ## Characters -/

/-- `unreserved`. -/
def isUnreserved (c : Char) : Bool := c.isAlphanum || c ∈ ['-', '.', '_', '~']

/-- `sub-delims`. -/
def isSubDelim (c : Char) : Bool := c ∈ [Char.ofNat 39, '!', '$', '&', '(', ')', '*', '+', ',', ';', '=']

/-- `HEXDIG`, with its value. -/
def hexValue (c : Char) : Option Nat :=
  if c.isDigit then some (c.toNat - 48)
  else if 'A' ≤ c ∧ c ≤ 'F' then some (c.toNat - 55)
  else if 'a' ≤ c ∧ c ≤ 'f' then some (c.toNat - 87)
  else none

/-- `HEXDIG`. -/
def isHexDigit (c : Char) : Bool := (hexValue c).isSome

/-- The upper-case digit of a value. -/
def hexDigit (n : Nat) : Char := Char.ofNat (if n < 10 then 48 + n else 55 + n)

/-! ## Percent-encoding -/

/-- `pct-encoded`. -/
def percentByte (b : UInt8) : List Char := ['%', hexDigit (b.toNat / 16), hexDigit (b.toNat % 16)]

/-- The encoding of a character: itself, or its UTF-8 bytes. -/
def percentChar (keep : Char → Bool) (c : Char) : List Char :=
  if keep c then [c] else (String.utf8EncodeChar c).flatMap percentByte

/-- A text with every character but those kept percent-encoded. -/
def percentEncode (keep : Char → Bool) (s : List Char) : List Char := s.flatMap (percentChar keep)

/-- The bytes a percent-encoded text stands for. -/
def percentOctets : List Char → Option (List UInt8)
  | [] => some []
  | '%' :: hi :: lo :: rest => do
    let hi ← hexValue hi
    let lo ← hexValue lo
    let octets ← percentOctets rest
    some (UInt8.ofNat (hi * 16 + lo) :: octets)
  | c :: rest => do
    if c = '%' ∨ 128 ≤ c.toNat then none
    let octets ← percentOctets rest
    some (UInt8.ofNat c.toNat :: octets)

/-- The text a percent-encoded text stands for. -/
def percentDecode (s : List Char) : Option (List Char) := do
  let octets ← percentOctets s
  let chars ← octets.toByteArray.utf8Decode?
  some chars.toList

/-- An encoder that keeps ASCII characters only, and not the percent sign. -/
def KeepsAscii (keep : Char → Bool) : Prop := ∀ c, keep c = true → c.toNat < 128 ∧ c ≠ '%'

/-! ## The grammar -/

/-- `*( ok / pct-encoded )`. -/
def isText (ok : Char → Bool) : List Char → Bool
  | [] => true
  | '%' :: hi :: lo :: rest => isHexDigit hi && isHexDigit lo && isText ok rest
  | c :: rest => c != '%' && ok c && isText ok rest

/-- A text up to a character, and what follows the character. -/
def cut (c : Char) (s : List Char) : List Char × Option (List Char) :=
  match s.dropWhile (· != c) with
  | [] => (s, none)
  | _ :: rest => (s.takeWhile (· != c), some rest)

/-- The characters of `userinfo`. -/
def isUserinfoChar (c : Char) : Bool := isUnreserved c || isSubDelim c || c == ':'

/-- The characters of `reg-name`. -/
def isRegNameChar (c : Char) : Bool := isUnreserved c || isSubDelim c

/-- `pchar`, and the slash between the segments of a path. -/
def isPathChar (c : Char) : Bool := isUserinfoChar c || c == '@' || c == '/'

/-- The characters of a query and of a fragment. -/
def isQueryChar (c : Char) : Bool := isPathChar c || c == '?'

/-- `h16`. -/
def isH16 (s : List Char) : Bool := 0 < s.length && s.length ≤ 4 && s.all isHexDigit

/-- `dec-octet`. -/
def isDecOctet (s : List Char) : Bool :=
  0 < s.length && s.length ≤ 3 && s.all Char.isDigit && (s.length == 1 || s.head? != some '0') && Nat.ofDigitChars 10 s 0 ≤ 255

/-- `IPv4address`. -/
def isIpv4Address (s : List Char) : Bool := (s.splitOn '.').length == 4 && (s.splitOn '.').all isDecOctet

/-- The number of 16-bit groups of a sequence of them; the last two may be written as an IPv4 address where `v4` says so. -/
def countGroups (v4 : Bool) : List (List Char) → Option Nat
  | [] => some 0
  | [g] => if isH16 g then some 1 else if v4 && isIpv4Address g then some 2 else none
  | g :: gs => if isH16 g then (countGroups v4 gs).map (· + 1) else none

/-- The groups of a text between colons; none for the empty text. -/
def groups (s : List Char) : List (List Char) := if s = [] then [] else s.splitOn ':'

/-- A text up to the first double colon, and what follows it. -/
def cutDoubleColon : List Char → List Char × Option (List Char)
  | [] => ([], none)
  | ':' :: ':' :: rest => ([], some rest)
  | c :: rest => (c :: (cutDoubleColon rest).1, (cutDoubleColon rest).2)

/-- `IPv6address`: eight groups, or fewer with one double colon. -/
def isIpv6Address (s : List Char) : Bool :=
  match cutDoubleColon s with
  | (s, none) => countGroups true (groups s) == some 8
  | (l, some r) =>
    match countGroups false (groups l), countGroups true (groups r) with
    | some m, some n => m + n ≤ 7
    | _, _ => false

/-- `IPvFuture`. -/
def isIpvFuture (s : List Char) : Bool :=
  match s with
  | v :: rest =>
    match cut '.' rest with
    | (version, some address) =>
      (v == 'v' || v == 'V') && !version.isEmpty && version.all isHexDigit && !address.isEmpty && address.all isUserinfoChar
    | (_, none) => false
  | [] => false

/-- `IP-literal`: one of the two forms in brackets; both are written with the characters of `userinfo`. -/
def isIpLiteral (s : List Char) : Bool :=
  match s with
  | '[' :: rest =>
    rest.getLast? == some ']' && rest.dropLast.all isUserinfoChar && (isIpv6Address rest.dropLast || isIpvFuture rest.dropLast)
  | _ => false

/-- `host`; an IPv4 address is a registered name, too. -/
def isHost (s : List Char) : Bool := isIpLiteral s || isText isRegNameChar s

/-- `scheme`. -/
def isScheme : List Char → Bool
  | [] => false
  | c :: rest => c.isAlpha && rest.all fun c => c.isAlphanum || c ∈ ['+', '-', '.']

/-! ## The parser -/

/-- `authority`. -/
structure Authority where
  userinfo : Option (List Char)
  host : List Char
  port : Option (List Char)
  deriving DecidableEq

/-- A URL with an authority. -/
structure Url where
  scheme : List Char
  authority : Authority
  path : List Char
  query : Option (List Char)
  fragment : Option (List Char)
  deriving DecidableEq

/-- The host and the port; the colons inside brackets are the host's. -/
def splitHostPort (s : List Char) : Option (List Char × Option (List Char)) :=
  match s with
  | '[' :: _ =>
    match cut ']' s with
    | (host, some []) => some (host ++ [']'], none)
    | (host, some (':' :: port)) => some (host ++ [']'], some port)
    | _ => none
  | _ => some (cut ':' s)

/-- The user information and the rest. -/
def splitUserinfo (s : List Char) : Option (List Char) × List Char :=
  match cut '@' s with
  | (s, none) => (none, s)
  | (userinfo, some rest) => (some userinfo, rest)

/-- The parser of an authority. -/
def parseAuthority (s : List Char) : Option Authority := do
  let (userinfo, hostPort) := splitUserinfo s
  let (host, port) ← splitHostPort hostPort
  if userinfo.all (isText isUserinfoChar) && isHost host && port.all (List.all · Char.isDigit) then
    some ⟨userinfo, host, port⟩
  else none

/-- The authority ends at a slash, a question mark or a number sign. -/
def inAuthority (c : Char) : Bool := c != '/' && c != '?' && c != '#'

/-- The parser of what follows the scheme and `://`. -/
def parseAfterScheme (scheme rest : List Char) : Option Url :=
  let tail := rest.dropWhile inAuthority
  let (beforeFragment, fragment) := cut '#' tail
  let (path, query) := cut '?' beforeFragment
  if isScheme scheme && isText isPathChar path && query.all (isText isQueryChar) && fragment.all (isText isQueryChar) then
    (parseAuthority (rest.takeWhile inAuthority)).map fun authority => ⟨scheme, authority, path, query, fragment⟩
  else none

/-- The parser of a URL with an authority. -/
def parseUrl (s : List Char) : Option Url :=
  match cut ':' s with
  | (scheme, some ('/' :: '/' :: rest)) => parseAfterScheme scheme rest
  | _ => none

/-- A URL of a scheme, an authority with a port, and nothing after it. -/
def joinUrl (scheme : List Char) (userinfo : Option (List Char)) (host port : List Char) : List Char :=
  scheme ++ (':' :: '/' :: '/' :: ((userinfo.elim [] (· ++ ['@'])) ++ (host ++ ':' :: port)))

/-! ## Percent-encoding is undone -/

theorem hexValue_hexDigit {n : Nat} (h : n < 16) : hexValue (hexDigit n) = some n := by
  revert n
  decide

theorem percentOctets_percentByte (b : UInt8) (rest : List Char) :
    percentOctets (percentByte b ++ rest) = (percentOctets rest).map (b :: ·) := by
  have hb := b.toNat_lt
  have hjoin : UInt8.ofNat (b.toNat / 16 * 16 + b.toNat % 16) = b := by
    rw [← UInt8.toNat_inj, UInt8.toNat_ofNat']
    omega
  rw [percentByte]
  simp only [List.cons_append, List.nil_append]
  rw [percentOctets, hexValue_hexDigit (by omega), hexValue_hexDigit (by omega)]
  simp only [Option.bind_eq_bind, Option.bind_some, hjoin]
  cases percentOctets rest <;> rfl

/-- An ASCII character is its own byte. -/
theorem utf8EncodeChar_ascii {c : Char} (h : c.toNat < 128) : String.utf8EncodeChar c = [UInt8.ofNat c.toNat] := by
  have hv : c.val.toNat ≤ 127 := Nat.le_of_lt_succ h
  have hsize : c.utf8Size = 1 := Char.utf8Size_eq_one_iff.mpr (UInt32.le_iff_toNat_le.mpr hv)
  rw [String.utf8EncodeChar_eq_singleton hsize]
  rfl

theorem percentOctets_percentChar {keep : Char → Bool} (hk : KeepsAscii keep) (c : Char) (rest : List Char) :
    percentOctets (percentChar keep c ++ rest) = (percentOctets rest).map (String.utf8EncodeChar c ++ ·) := by
  unfold percentChar
  split
  · rename_i hkeep
    obtain ⟨hascii, hne⟩ := hk c hkeep
    rw [utf8EncodeChar_ascii hascii, List.singleton_append, percentOctets.eq_3 c rest (fun _ _ _ hc => absurd hc hne),
      if_neg (by simp [hne, hascii])]
    cases percentOctets rest <;> rfl
  · induction String.utf8EncodeChar c with
    | nil => simp
    | cons b bytes ih =>
      rw [List.flatMap_cons, List.append_assoc, percentOctets_percentByte, ih, Option.map_map]
      rfl

theorem percentOctets_percentEncode {keep : Char → Bool} (hk : KeepsAscii keep) (s : List Char) :
    percentOctets (percentEncode keep s) = some (s.flatMap String.utf8EncodeChar) := by
  unfold percentEncode
  induction s with
  | nil => rfl
  | cons c s ih => rw [List.flatMap_cons, percentOctets_percentChar hk, ih, List.flatMap_cons, Option.map_some]

/-- What was encoded is decoded again. -/
theorem percentDecode_percentEncode {keep : Char → Bool} (hk : KeepsAscii keep) (s : List Char) :
    percentDecode (percentEncode keep s) = some s := by
  have hbytes : (s.flatMap String.utf8EncodeChar).toByteArray = s.utf8Encode := rfl
  unfold percentDecode
  simp only [percentOctets_percentEncode hk, Option.bind_eq_bind, Option.bind_some, hbytes, List.utf8Decode?_utf8Encode]

theorem percentEncode_inj {keep : Char → Bool} (hk : KeepsAscii keep) {s t : List Char}
    (h : percentEncode keep s = percentEncode keep t) : s = t := by
  have := percentDecode_percentEncode hk s
  rw [h, percentDecode_percentEncode hk t] at this
  exact (Option.some.inj this).symm

theorem isHexDigit_hexDigit {n : Nat} (h : n < 16) : isHexDigit (hexDigit n) = true := by
  rw [isHexDigit, hexValue_hexDigit h]
  rfl

/-- An encoded text fits a grammar that has the characters kept. -/
theorem isText_percentEncode {keep ok : Char → Bool} (hk : KeepsAscii keep) (hok : ∀ c, keep c = true → ok c = true)
    (s : List Char) : isText ok (percentEncode keep s) = true := by
  have hbytes : ∀ (bytes : List UInt8) (rest : List Char), isText ok rest = true →
      isText ok (bytes.flatMap percentByte ++ rest) = true := by
    intro bytes rest hrest
    induction bytes with
    | nil => exact hrest
    | cons b bytes ih =>
      have hb := b.toNat_lt
      simp only [List.flatMap_cons, percentByte, List.cons_append, List.nil_append]
      rw [isText, isHexDigit_hexDigit (by omega), isHexDigit_hexDigit (by omega), ih]
      rfl
  unfold percentEncode
  induction s with
  | nil => rfl
  | cons c s ih =>
    rw [List.flatMap_cons, percentChar]
    split
    · rename_i hkeep
      have hne := (hk c hkeep).2
      rw [List.singleton_append, isText.eq_3 ok c _ (fun _ _ _ hc => absurd hc hne), ih, hok c hkeep]
      simp [hne]
    · exact hbytes _ _ ih

/-! ## What is not in a text -/

/-- A character that a grammar has neither by itself nor in an escape is in none of its texts. -/
theorem not_mem_of_isText {ok : Char → Bool} {s : List Char} (h : isText ok s = true) {d : Char} (hd : ok d = false)
    (hp : d ≠ '%') (hx : isHexDigit d = false) : d ∉ s := by
  have hne : ∀ {p : Char → Bool} {c : Char}, p c = true → p d = false → d ≠ c := by
    rintro p c hc hd rfl
    rw [hc] at hd
    cases hd
  induction s using isText.induct with
  | case1 => exact List.not_mem_nil
  | case2 hi lo rest ih =>
    rw [isText, Bool.and_eq_true, Bool.and_eq_true] at h
    simp only [List.mem_cons, not_or]
    exact ⟨hp, hne h.1.1 hx, hne h.1.2 hx, ih h.2⟩
  | case3 c rest hpat ih =>
    rw [isText.eq_3 ok c rest hpat, Bool.and_eq_true, Bool.and_eq_true] at h
    simp only [List.mem_cons, not_or]
    exact ⟨hne h.1.2 hd, ih h.2⟩

theorem cut_of_not_mem {c : Char} {s : List Char} (h : c ∉ s) : cut c s = (s, none) := by
  have hall : ∀ x ∈ s, (x != c) = true := fun x hx => bne_iff_ne.mpr fun e => h (e ▸ hx)
  rw [cut, List.dropWhile_eq_nil_iff.mpr hall]

theorem cut_append {c : Char} {a : List Char} (h : c ∉ a) (b : List Char) : cut c (a ++ c :: b) = (a, some b) := by
  have hall : ∀ x ∈ a, (x != c) = true := fun x hx => bne_iff_ne.mpr fun e => h (e ▸ hx)
  have hdrop : (a ++ c :: b).dropWhile (· != c) = c :: b := by
    rw [List.dropWhile_append_of_pos hall, List.dropWhile_cons_of_neg (by simp)]
  have htake : (a ++ c :: b).takeWhile (· != c) = a := by
    rw [List.takeWhile_append_of_pos hall, List.takeWhile_cons_of_neg (by simp), List.append_nil]
  rw [cut, hdrop]
  dsimp only
  rw [htake]

/-! ## The parser undoes the joining -/

/-- The two forms of a host. -/
theorem host_cases {host : List Char} (h : isHost host = true) :
    (∃ inner, host = '[' :: (inner ++ [']']) ∧ inner.all isUserinfoChar = true) ∨ isText isRegNameChar host = true := by
  rw [isHost, Bool.or_eq_true] at h
  rcases h with h | h
  · unfold isIpLiteral at h
    split at h
    · rename_i rest
      rw [Bool.and_eq_true, Bool.and_eq_true, beq_iff_eq] at h
      obtain ⟨inner, rfl⟩ := List.getLast?_eq_some_iff.mp h.1.1
      rw [List.dropLast_concat] at h
      exact .inl ⟨inner, rfl, h.1.2⟩
    · cases h
  · exact .inr h

/-- A host has none of the characters that end the authority or the user information. -/
theorem not_mem_host {host : List Char} (h : isHost host = true) {d : Char} (hd : isUserinfoChar d = false)
    (hp : d ∉ ['%', '[', ']']) (hx : isHexDigit d = false) : d ∉ host := by
  simp only [List.mem_cons, List.not_mem_nil, or_false, not_or] at hp
  rcases host_cases h with ⟨inner, rfl, hall⟩ | htext
  · simp only [List.mem_cons, List.mem_append, List.not_mem_nil, or_false, not_or]
    refine ⟨hp.2.1, fun hmem => ?_, hp.2.2⟩
    rw [List.all_eq_true.mp hall d hmem] at hd
    cases hd
  · refine not_mem_of_isText htext ?_ hp.1 hx
    rw [isUserinfoChar, Bool.or_eq_false_iff] at hd
    exact hd.1

theorem splitHostPort_join {host : List Char} (h : isHost host = true) (port : List Char) :
    splitHostPort (host ++ ':' :: port) = some (host, some port) := by
  rcases host_cases h with ⟨inner, rfl, hall⟩ | htext
  · have hin : ']' ∉ '[' :: inner := by
      rw [List.mem_cons, not_or]
      refine ⟨by decide, fun hmem => ?_⟩
      have := List.all_eq_true.mp hall _ hmem
      exact absurd this (by decide)
    have hcut := cut_append hin (':' :: port)
    simp only [List.cons_append, List.append_assoc, List.nil_append] at hcut ⊢
    rw [splitHostPort, hcut]
    rfl
  · have hcolon : ':' ∉ host := not_mem_of_isText htext (by decide) (by decide) (by decide)
    have hopen : '[' ∉ host := not_mem_of_isText htext (by decide) (by decide) (by decide)
    have hcut := cut_append hcolon port
    unfold splitHostPort
    split
    · rename_i rest heq
      rcases host with _ | ⟨c, host⟩
      · cases heq
      · obtain ⟨rfl, -⟩ := List.cons.inj heq
        exact absurd List.mem_cons_self hopen
    · rw [hcut]

/-- A digit is none of the delimiters. -/
theorem not_mem_port {port : List Char} (h : port.all Char.isDigit = true) {d : Char} (hd : d.isDigit = false) : d ∉ port := by
  intro hmem
  rw [List.all_eq_true.mp h d hmem] at hd
  cases hd

theorem parseAuthority_join {userinfo : Option (List Char)} {host port : List Char}
    (hu : userinfo.all (isText isUserinfoChar) = true) (hh : isHost host = true) (hp : port.all Char.isDigit = true) :
    parseAuthority ((userinfo.elim [] (· ++ ['@'])) ++ (host ++ ':' :: port)) = some ⟨userinfo, host, some port⟩ := by
  have hat : '@' ∉ host ++ ':' :: port := by
    simp only [List.mem_append, List.mem_cons, not_or]
    exact ⟨not_mem_host hh (by decide) (by decide) (by decide), by decide, not_mem_port hp (by decide)⟩
  have hsplit : splitUserinfo ((userinfo.elim [] (· ++ ['@'])) ++ (host ++ ':' :: port)) = (userinfo, host ++ ':' :: port) := by
    unfold splitUserinfo
    cases userinfo with
    | none => rw [Option.elim_none, List.nil_append, cut_of_not_mem hat]
    | some u =>
      have hnot : '@' ∉ u := not_mem_of_isText hu (by decide) (by decide) (by decide)
      rw [Option.elim_some, List.append_assoc, List.singleton_append, cut_append hnot]
  unfold parseAuthority
  rw [hsplit]
  simp only [splitHostPort_join hh, Option.bind_eq_bind, Option.bind_some, hu, hh, Option.all_some, hp, Bool.and_self, if_true]

/-- The parts of an authority have none of the characters that end it. -/
theorem inAuthority_of_mem {userinfo : Option (List Char)} {host port : List Char}
    (hu : userinfo.all (isText isUserinfoChar) = true) (hh : isHost host = true) (hp : port.all Char.isDigit = true) :
    ∀ c ∈ (userinfo.elim [] (· ++ ['@'])) ++ (host ++ ':' :: port), inAuthority c = true := by
  have hends : (['/', '?', '#'].all fun d => decide (isUserinfoChar d = false ∧ d ∉ ['%', '[', ']'] ∧ isHexDigit d = false ∧
      d ≠ '@' ∧ d ≠ ':' ∧ d.isDigit = false)) = true := by decide
  have hnot : ∀ d ∈ ['/', '?', '#'], d ∉ (userinfo.elim [] (· ++ ['@'])) ++ (host ++ ':' :: port) := by
    intro d hd
    obtain ⟨huser, hlit, hhex, hat, hcol, hdigit⟩ := of_decide_eq_true (List.all_eq_true.mp hends d hd)
    simp only [List.mem_append, List.mem_cons, not_or]
    refine ⟨?_, not_mem_host hh huser hlit hhex, hcol, not_mem_port hp hdigit⟩
    cases userinfo with
    | none => exact List.not_mem_nil
    | some u =>
      rw [Option.elim_some, List.mem_append, not_or, List.mem_singleton]
      exact ⟨not_mem_of_isText hu huser (fun e => hlit (by rw [e]; decide)) hhex, hat⟩
  intro c hc
  by_contra hend
  simp only [inAuthority, Bool.and_eq_true, bne_iff_ne, ne_eq, not_and_or, not_not] at hend
  rcases hend with (rfl | rfl) | rfl
  all_goals exact hnot _ (by decide) hc

/-- A URL put together from parts that fit the grammar is taken apart into these parts. -/
theorem parseUrl_join {scheme : List Char} {userinfo : Option (List Char)} {host port : List Char} (hs : isScheme scheme = true)
    (hu : userinfo.all (isText isUserinfoChar) = true) (hh : isHost host = true) (hp : port.all Char.isDigit = true) :
    parseUrl (joinUrl scheme userinfo host port) = some ⟨scheme, ⟨userinfo, host, some port⟩, [], none, none⟩ := by
  have hcolon : ':' ∉ scheme := by
    intro hmem
    rcases scheme with _ | ⟨c, rest⟩
    · cases hmem
    · rw [isScheme, Bool.and_eq_true] at hs
      rcases List.mem_cons.mp hmem with rfl | hmem
      · exact absurd hs.1 (by decide)
      · exact absurd (List.all_eq_true.mp hs.2 _ hmem) (by decide)
  have hall := inAuthority_of_mem hu hh hp
  have htake := List.takeWhile_eq_self_iff.mpr hall
  have hdrop := List.dropWhile_eq_nil_iff.mpr hall
  have hafter : parseUrl (joinUrl scheme userinfo host port) =
      parseAfterScheme scheme ((userinfo.elim [] (· ++ ['@'])) ++ (host ++ ':' :: port)) := by
    unfold parseUrl joinUrl
    rw [cut_append hcolon]
    rfl
  rw [hafter, parseAfterScheme, htake, hdrop, parseAuthority_join hu hh hp]
  simp only [cut_of_not_mem List.not_mem_nil, hs, isText, Option.all_none, Bool.and_self, if_true, Option.map_some]

/-! ## Joined URLs with one part the same -/

/-- The last colon of a URL stands before its port. -/
theorem joinUrl_hostPort_inj {scheme : List Char} {userinfo : Option (List Char)} {h1 p1 h2 p2 : List Char}
    (hp1 : ':' ∉ p1) (hp2 : ':' ∉ p2) (h : joinUrl scheme userinfo h1 p1 = joinUrl scheme userinfo h2 p2) : h1 = h2 ∧ p1 = p2 := by
  unfold joinUrl at h
  have htail := List.append_cancel_left h
  simp only [List.cons.injEq, true_and] at htail
  have hrev := congrArg List.reverse (List.append_cancel_left htail)
  simp only [List.reverse_append, List.reverse_cons, List.append_assoc, List.singleton_append] at hrev
  have hc1 := cut_append (c := ':') (a := p1.reverse) (by simpa using hp1) h1.reverse
  have hc2 := cut_append (c := ':') (a := p2.reverse) (by simpa using hp2) h2.reverse
  rw [hrev, hc2] at hc1
  simp only [Prod.mk.injEq, Option.some.injEq, List.reverse_inj] at hc1
  exact ⟨hc1.2.symm, hc1.1.symm⟩

theorem joinUrl_userinfo_inj {scheme : List Char} {u1 u2 : Option (List Char)} {host port : List Char}
    (h : joinUrl scheme u1 host port = joinUrl scheme u2 host port) : u1 = u2 := by
  unfold joinUrl at h
  have htail := List.append_cancel_left h
  simp only [List.cons.injEq, true_and] at htail
  have helim := List.append_cancel_right htail
  cases u1 with
  | none =>
    cases u2 with
    | none => rfl
    | some u => simp at helim
  | some u =>
    cases u2 with
    | none => simp at helim
    | some v => rw [List.append_cancel_right helim]

/-- The parser gives back a host only. -/
theorem isHost_of_parseUrl {s : List Char} {u : Url} (h : parseUrl s = some u) : isHost u.authority.host = true := by
  unfold parseUrl at h
  split at h
  · unfold parseAfterScheme at h
    dsimp only at h
    split at h
    · obtain ⟨authority, hauth, rfl⟩ := Option.map_eq_some_iff.mp h
      unfold parseAuthority at hauth
      simp only [Option.bind_eq_bind] at hauth
      obtain ⟨⟨host, port⟩, -, hparts⟩ := Option.bind_eq_some_iff.mp hauth
      simp only [Option.ite_none_right_eq_some, Bool.and_eq_true] at hparts
      obtain ⟨⟨⟨-, hhost⟩, -⟩, hauth⟩ := hparts
      rw [← Option.some.inj hauth]
      exact hhost
    · cases h
  · cases h

end Lib
