import Mathlib.Data.List.Basic

/-!
# JSON values and their texts

A value, the compact text it is written as, and a reader of such texts. Names and values of an object keep their order. A number is
kept as its numeral, so that no precision is chosen here; `Numeral.ofInt` is the numeral of an integer. What is written is read back
(`parse_print`), with the text of whatever stands behind it left over, and so two values with one text are equal.
-/

namespace Lib

/-! ## Numerals -/

/-- The characters of a numeral behind its first. -/
def isNumeralChar (c : Char) : Bool := c.isDigit || c == '-' || c == '+' || c == '.' || c == 'e' || c == 'E'

/-- A numeral starts with a digit or a minus. -/
def isNumeral : List Char → Bool
  | [] => false
  | c :: cs => (c.isDigit || c == '-') && cs.all isNumeralChar

/-- The text of a number. -/
def Numeral : Type := { cs : List Char // isNumeral cs = true }

namespace Numeral

/-- The text of a numeral has only characters of numerals. -/
theorem all_chars (n : Numeral) : n.1.all isNumeralChar = true := by
  obtain ⟨cs, h⟩ := n
  cases cs with
  | nil => rfl
  | cons c cs =>
    obtain ⟨hc, hcs⟩ := (Bool.and_eq_true _ _).mp h
    rw [List.all_cons, hcs, Bool.and_true]
    rcases (Bool.or_eq_true _ _).mp hc with hd | hm
    · simp [isNumeralChar, hd]
    · simp [isNumeralChar, eq_of_beq hm]

/-- The decimal digits of a number are a numeral. -/
theorem isNumeral_toDigits (n : Nat) : isNumeral (Nat.toDigits 10 n) = true := by
  cases hd : Nat.toDigits 10 n with
  | nil => exact absurd hd Nat.toDigits_ne_nil
  | cons c cs =>
    have hall : ∀ x ∈ c :: cs, x.isDigit = true := fun x hx =>
      Nat.isDigit_of_mem_toDigits (by decide) (by decide) (hd ▸ hx)
    have hc := hall c List.mem_cons_self
    have hcs : cs.all isNumeralChar = true := by
      refine List.all_eq_true.mpr fun x hx => ?_
      simp [isNumeralChar, hall x (List.mem_cons_of_mem _ hx)]
    simp [isNumeral, hc, hcs]

/-- The numeral of an integer. -/
def ofInt : Int → Numeral
  | .ofNat n => ⟨Nat.toDigits 10 n, isNumeral_toDigits n⟩
  | .negSucc n => ⟨'-' :: Nat.toDigits 10 (n + 1), by
      have := all_chars ⟨_, isNumeral_toDigits (n + 1)⟩
      simpa [isNumeral] using this⟩

/-- The integer a numeral of digits stands for, with its sign. -/
def toInt? (n : Numeral) : Option Int :=
  match n.1 with
  | [] => none
  | c :: cs =>
    if c = '-' then if cs ≠ [] ∧ cs.all Char.isDigit then some (-(Nat.ofDigitChars 10 cs 0 : Int)) else none
    else if (c :: cs).all Char.isDigit then some (Nat.ofDigitChars 10 (c :: cs) 0) else none

/-- They are digits. -/
theorem toDigits_all (n : Nat) : (Nat.toDigits 10 n).all Char.isDigit = true :=
  List.all_eq_true.mpr fun _ hx => Nat.isDigit_of_mem_toDigits (by decide) (by decide) hx

/-- A numeral made of an integer has its value. -/
theorem toInt?_ofInt (n : Int) : (ofInt n).toInt? = some n := by
  cases n with
  | ofNat n =>
    unfold toInt? ofInt
    have hall := toDigits_all n
    have hval := @Nat.ofDigitChars_ten_toDigits n
    cases hd : Nat.toDigits 10 n with
    | nil => exact absurd hd Nat.toDigits_ne_nil
    | cons c cs =>
      rw [hd] at hall hval
      have hne : c ≠ '-' := by
        rintro rfl
        simp at hall
      simp only [hd, hne, if_false, hall, if_true, hval, Int.ofNat_eq_natCast]
  | negSucc n =>
    unfold toInt? ofInt
    have hall := toDigits_all (n + 1)
    have hval := @Nat.ofDigitChars_ten_toDigits (n + 1)
    have hne := @Nat.toDigits_ne_nil (n + 1) 10
    simp [hall, hval, hne, Int.negSucc_eq]

end Numeral

/-! ## Strings -/

namespace Json

/-- A hexadecimal digit, in lower case. -/
def hexDigit (n : Nat) : Char := if n < 10 then Char.ofNat (48 + n) else Char.ofNat (87 + n)

/-- The value of a hexadecimal digit. -/
def hexValue (c : Char) : Option Nat :=
  if '0' ≤ c ∧ c ≤ '9' then some (c.toNat - 48)
  else if 'a' ≤ c ∧ c ≤ 'f' then some (c.toNat - 87)
  else if 'A' ≤ c ∧ c ≤ 'F' then some (c.toNat - 55)
  else none

/-- A character inside a string. -/
def escapeChar (c : Char) : List Char :=
  if c = '"' ∨ c = '\\' ∨ c = '/' then ['\\', c]
  else if c = '\t' then ['\\', 't']
  else if c = '\x08' then ['\\', 'b']
  else if c = '\n' then ['\\', 'n']
  else if c = '\r' then ['\\', 'r']
  else if c = '\x0c' then ['\\', 'f']
  else if c.toNat ≤ 0x1F then ['\\', 'u', '0', '0', hexDigit (c.toNat / 16), hexDigit (c.toNat % 16)]
  else [c]

/-- The character behind a backslash, where it is not `u`. -/
def unescape (c : Char) : Char :=
  if c = 't' then '\t' else if c = 'b' then '\x08' else if c = 'n' then '\n' else if c = 'r' then '\r'
  else if c = 'f' then '\x0c' else c

/-- The characters up to the closing quote, and what follows it. -/
def parseString : List Char → Option (List Char × List Char)
  | [] => none
  | c :: cs =>
    if c = '"' then some ([], cs)
    else if c ≠ '\\' then (parseString cs).map fun r => (c :: r.1, r.2)
    else
      match cs with
      | [] => none
      | e :: cs =>
        if e ≠ 'u' then (parseString cs).map fun r => (unescape e :: r.1, r.2)
        else
          match cs with
          | d3 :: d2 :: d1 :: d0 :: cs => do
            let code := 4096 * (← hexValue d3) + 256 * (← hexValue d2) + 16 * (← hexValue d1) + (← hexValue d0)
            (parseString cs).map fun r => (Char.ofNat code :: r.1, r.2)
          | _ => none

/-- A hexadecimal digit has its value. -/
theorem hexValue_hexDigit : ∀ n < 16, hexValue (hexDigit n) = some n := by decide

/-- A plain character is read as it stands. -/
theorem parseString_plain {c : Char} (hquote : c ≠ '"') (hslash : c ≠ '\\') (cs : List Char) :
    parseString (c :: cs) = (parseString cs).map fun r => (c :: r.1, r.2) := by
  rw [parseString.eq_def]
  simp only [hquote, if_false, hslash, ne_eq, not_false_eq_true, if_true]

/-- A character behind a backslash is read as what it stands for. -/
theorem parseString_escaped {e : Char} (hu : e ≠ 'u') (cs : List Char) :
    parseString ('\\' :: e :: cs) = (parseString cs).map fun r => (unescape e :: r.1, r.2) := by
  rw [parseString.eq_def]
  simp [hu]

/-- A control character is read from its two hexadecimal digits. -/
theorem parseString_control {hi lo : Nat} (hhi : hi < 16) (hlo : lo < 16) (cs : List Char) :
    parseString ('\\' :: 'u' :: '0' :: '0' :: hexDigit hi :: hexDigit lo :: cs) =
      (parseString cs).map fun r => (Char.ofNat (16 * hi + lo) :: r.1, r.2) := by
  have hzero : hexValue '0' = some 0 := by decide
  rw [parseString.eq_def]
  simp [hzero, hexValue_hexDigit hi hhi, hexValue_hexDigit lo hlo]

/-- A character is read from its escaped form. -/
theorem parseString_escapeChar (c : Char) (cs : List Char) :
    parseString (escapeChar c ++ cs) = (parseString cs).map fun r => (c :: r.1, r.2) := by
  unfold escapeChar
  split
  · rename_i h
    rcases h with rfl | rfl | rfl <;> exact parseString_escaped (by decide) cs
  rename_i hquote
  iterate 5
    split
    · rename_i h
      subst h
      exact parseString_escaped (by decide) cs
  split
  · have hcode : Char.ofNat (16 * (c.toNat / 16) + c.toNat % 16) = c := by rw [Nat.div_add_mod, Char.ofNat_toNat]
    have hcontrol := parseString_control (show c.toNat / 16 < 16 by omega) (show c.toNat % 16 < 16 by omega) cs
    rwa [hcode] at hcontrol
  · exact parseString_plain (fun hn => hquote (Or.inl hn)) (fun hn => hquote (Or.inr (Or.inl hn))) cs

/-- The characters of a string, escaped. -/
def escape (cs : List Char) : List Char := cs.flatMap escapeChar

/-- A string is read from its escaped form, up to the quote that ends it. -/
theorem parseString_escape (cs rest : List Char) : parseString (escape cs ++ '"' :: rest) = some (cs, rest) := by
  induction cs with
  | nil =>
    change parseString ('"' :: rest) = _
    rw [parseString.eq_def]
    rfl
  | cons c cs ih =>
    have happ : escape (c :: cs) ++ '"' :: rest = escapeChar c ++ (escape cs ++ '"' :: rest) := by
      simp [escape, List.flatMap_cons, List.append_assoc]
    rw [happ, parseString_escapeChar, ih]
    rfl

end Json

/-! ## Values -/

/-- A JSON value. -/
inductive Json where
  | null
  | bool (b : Bool)
  | num (n : Numeral)
  | str (s : String)
  | arr (xs : List Json)
  | obj (ms : List (String × Json))

namespace Json

/-- The value under a name of an object. -/
def opt (ms : List (String × Json)) (name : String) : Option Json := (ms.find? (·.1 == name)).map (·.2)

/-- The object with a value put under a name: in the place of the old one if there is one, and else at the end. No value takes the
name out. -/
def put (ms : List (String × Json)) (name : String) : Option Json → List (String × Json)
  | none => ms.filter (·.1 != name)
  | some v => if ms.any (·.1 == name) then ms.map fun m => if m.1 == name then (name, v) else m else ms ++ [(name, v)]

/-- A string in its quotes. -/
def quote (s : String) : List Char := '"' :: escape s.toList ++ ['"']

mutual

/-- The text of a value. -/
def print : Json → List Char
  | .null => ['n', 'u', 'l', 'l']
  | .bool true => ['t', 'r', 'u', 'e']
  | .bool false => ['f', 'a', 'l', 's', 'e']
  | .num n => n.1
  | .str s => quote s
  | .arr [] => ['[', ']']
  | .arr (x :: xs) => '[' :: print x ++ printElems xs
  | .obj [] => ['\x7b', '\x7d']
  | .obj (m :: ms) => '\x7b' :: printMember m ++ printMembers ms

/-- The elements behind the first, and the end of the array. -/
def printElems : List Json → List Char
  | [] => [']']
  | x :: xs => ',' :: print x ++ printElems xs

/-- A name and its value. -/
def printMember : String × Json → List Char
  | (k, v) => quote k ++ ':' :: print v

/-- The members behind the first, and the end of the object. -/
def printMembers : List (String × Json) → List Char
  | [] => ['\x7d']
  | m :: ms => ',' :: printMember m ++ printMembers ms

end

mutual

/-- A value, and what follows it. -/
def parseValue : Nat → List Char → Option (Json × List Char)
  | 0, _ => none
  | _ + 1, [] => none
  | fuel + 1, c :: cs =>
    if c = '"' then (parseString cs).map fun r => (.str (String.ofList r.1), r.2)
    else if c = '[' then
      if cs.head? = some ']' then some (.arr [], cs.tail)
      else do
        let (x, cs) ← parseValue fuel cs
        let (xs, cs) ← parseElems fuel cs
        return (.arr (x :: xs), cs)
    else if c = '\x7b' then
      if cs.head? = some '\x7d' then some (.obj [], cs.tail)
      else do
        let (m, cs) ← parseMember fuel cs
        let (ms, cs) ← parseMembers fuel cs
        return (.obj (m :: ms), cs)
    else if c = 'n' then if cs.take 3 = ['u', 'l', 'l'] then some (.null, cs.drop 3) else none
    else if c = 't' then if cs.take 3 = ['r', 'u', 'e'] then some (.bool true, cs.drop 3) else none
    else if c = 'f' then if cs.take 4 = ['a', 'l', 's', 'e'] then some (.bool false, cs.drop 4) else none
    else
      if h : isNumeral ((c :: cs).takeWhile isNumeralChar) = true then some (.num ⟨_, h⟩, (c :: cs).dropWhile isNumeralChar)
      else none

/-- The elements behind the first. -/
def parseElems : Nat → List Char → Option (List Json × List Char)
  | 0, _ => none
  | _ + 1, [] => none
  | fuel + 1, c :: cs =>
    if c = ']' then some ([], cs)
    else if c = ',' then do
      let (x, cs) ← parseValue fuel cs
      let (xs, cs) ← parseElems fuel cs
      return (x :: xs, cs)
    else none

/-- A name, a colon and a value. -/
def parseMember : Nat → List Char → Option ((String × Json) × List Char)
  | 0, _ => none
  | _ + 1, [] => none
  | fuel + 1, c :: cs =>
    if c = '"' then do
      let (k, cs) ← parseString cs
      if cs.head? = some ':' then do
        let (v, cs) ← parseValue fuel cs.tail
        return ((String.ofList k, v), cs)
      else none
    else none

/-- The members behind the first. -/
def parseMembers : Nat → List Char → Option (List (String × Json) × List Char)
  | 0, _ => none
  | _ + 1, [] => none
  | fuel + 1, c :: cs =>
    if c = '\x7d' then some ([], cs)
    else if c = ',' then do
      let (m, cs) ← parseMember fuel cs
      let (ms, cs) ← parseMembers fuel cs
      return (m :: ms, cs)
    else none

end

/-! ## What is written is read back -/

/-- No numeral goes on at the start of the text. -/
def Stops (cs : List Char) : Prop := ∀ c ∈ cs.head?, isNumeralChar c = false

/-- The end of the text ends a numeral. -/
theorem stops_nil : Stops [] := fun _ h => nomatch h

/-- So does a character that no numeral has. -/
theorem stops_cons {c : Char} (h : isNumeralChar c = false) (cs : List Char) : Stops (c :: cs) := by
  intro c' hc'
  obtain rfl := Option.some.inj hc'
  exact h

/-- What follows an element of an array ends a numeral. -/
theorem printElems_stops (xs : List Json) (rest : List Char) : Stops (printElems xs ++ rest) := by
  cases xs with
  | nil => exact stops_cons rfl _
  | cons x xs => exact stops_cons rfl _

/-- What follows a member of an object ends a numeral. -/
theorem printMembers_stops (ms : List (String × Json)) (rest : List Char) : Stops (printMembers ms ++ rest) := by
  cases ms with
  | nil => exact stops_cons rfl _
  | cons m ms => exact stops_cons rfl _

/-- A numeral is read up to its end. -/
theorem takeWhile_numeral (n : Numeral) {rest : List Char} (h : Stops rest) :
    (n.1 ++ rest).takeWhile isNumeralChar = n.1 ∧ (n.1 ++ rest).dropWhile isNumeralChar = rest := by
  have hall : ∀ c ∈ n.1, isNumeralChar c = true := List.all_eq_true.mp n.all_chars
  rw [List.takeWhile_append_of_pos hall, List.dropWhile_append_of_pos hall]
  cases rest with
  | nil => simp
  | cons c cs => simp [h c rfl]

/-- A numeral is read back. -/
theorem parseValue_numeral (n : Numeral) {fuel : Nat} {rest : List Char} (h : Stops rest) :
    parseValue (fuel + 1) (n.1 ++ rest) = some (.num n, rest) := by
  obtain ⟨htake, hdrop⟩ := takeWhile_numeral n h
  obtain ⟨cs, hcs⟩ := n
  cases cs with
  | nil => cases hcs
  | cons c cs =>
    have hc : (c.isDigit || c == '-') = true := ((Bool.and_eq_true _ _).mp hcs).1
    have hne : ∀ d : Char, (d.isDigit || d == '-') = false → c ≠ d := by
      rintro d hd rfl
      rw [hc] at hd
      cases hd
    dsimp only at htake hdrop ⊢
    rw [List.cons_append] at htake hdrop ⊢
    rw [parseValue, if_neg (hne _ rfl), if_neg (hne _ rfl), if_neg (hne _ rfl), if_neg (hne _ rfl), if_neg (hne _ rfl),
      if_neg (hne _ rfl), dif_pos (by rw [htake]; exact hcs), hdrop]
    simp only [htake]

/-- A string of the printer is read back. -/
theorem parseString_quote (s : String) (rest : List Char) :
    parseString (escape s.toList ++ '"' :: rest) = some (s.toList, rest) := parseString_escape s.toList rest

/-- The first character of a value's text ends neither an array nor an object. -/
theorem print_head (j : Json) : ∃ c cs, print j = c :: cs ∧ c ≠ ']' ∧ c ≠ '\x7d' := by
  cases j with
  | null => exact ⟨_, _, rfl, by decide, by decide⟩
  | bool b => cases b <;> exact ⟨_, _, rfl, by decide, by decide⟩
  | str s => exact ⟨_, _, rfl, by decide, by decide⟩
  | arr xs => cases xs <;> exact ⟨_, _, rfl, by decide, by decide⟩
  | obj ms => cases ms <;> exact ⟨_, _, rfl, by decide, by decide⟩
  | num n =>
    obtain ⟨cs, hcs⟩ := n
    cases cs with
    | nil => cases hcs
    | cons c cs =>
      have hc : (c.isDigit || c == '-') = true := ((Bool.and_eq_true _ _).mp hcs).1
      refine ⟨c, cs, rfl, ?_, ?_⟩
      all_goals
        rintro rfl
        exact absurd hc (by decide)

mutual

/-- The text of a value is read as the value, and what follows it is left. -/
theorem parseValue_print (j : Json) {fuel : Nat} {rest : List Char} (hf : (print j).length ≤ fuel) (hr : Stops rest) :
    parseValue fuel (print j ++ rest) = some (j, rest) := by
  obtain ⟨fuel, rfl⟩ : ∃ n, fuel = n + 1 := by
    obtain ⟨c, cs, hp, -⟩ := print_head j
    rw [hp, List.length_cons] at hf
    exact ⟨fuel - 1, by omega⟩
  match j with
  | .null => simp [print, parseValue]
  | .bool true => simp [print, parseValue]
  | .bool false => simp [print, parseValue]
  | .num n => exact parseValue_numeral n hr
  | .str s =>
    have hs := parseString_quote s rest
    simp [print, quote, parseValue, hs]
  | .arr [] => simp [print, parseValue]
  | .obj [] => simp [print, parseValue]
  | .arr (x :: xs) =>
    rw [print, List.length_append, List.length_cons] at hf
    obtain ⟨c, cs, hp, hne, -⟩ := print_head x
    have hx := @parseValue_print x fuel (printElems xs ++ rest) (by omega) (printElems_stops xs rest)
    have hxs := @parseElems_print xs fuel rest (by omega)
    have hhead : (print x ++ (printElems xs ++ rest)).head? ≠ some ']' := by
      rw [hp]
      exact fun hn => hne (Option.some.inj hn)
    rw [print, List.append_assoc, List.cons_append, parseValue, if_neg (by decide), if_pos rfl, if_neg hhead, hx]
    simp only [Option.bind_eq_bind, Option.bind_some]
    rw [hxs]
    rfl
  | .obj (m :: ms) =>
    rw [print, List.length_append, List.length_cons] at hf
    have hm := @parseMember_print m fuel (printMembers ms ++ rest) (by omega) (printMembers_stops ms rest)
    have hms := @parseMembers_print ms fuel rest (by omega)
    have hhead : (printMember m ++ (printMembers ms ++ rest)).head? ≠ some '\x7d' := by
      obtain ⟨k, v⟩ := m
      simp [printMember, quote]
    rw [print, List.append_assoc, List.cons_append, parseValue, if_neg (by decide), if_neg (by decide), if_pos rfl, if_neg hhead, hm]
    simp only [Option.bind_eq_bind, Option.bind_some]
    rw [hms]
    rfl

/-- The elements of an array are read back. -/
theorem parseElems_print (xs : List Json) {fuel : Nat} {rest : List Char} (hf : (printElems xs).length ≤ fuel) :
    parseElems fuel (printElems xs ++ rest) = some (xs, rest) := by
  match xs with
  | [] =>
    obtain ⟨fuel, rfl⟩ : ∃ n, fuel = n + 1 := ⟨fuel - 1, by simp [printElems] at hf; omega⟩
    simp [printElems, parseElems]
  | x :: xs =>
    rw [printElems, List.length_append, List.length_cons] at hf
    obtain ⟨fuel, rfl⟩ : ∃ n, fuel = n + 1 := ⟨fuel - 1, by omega⟩
    have hx := @parseValue_print x fuel (printElems xs ++ rest) (by omega) (printElems_stops xs rest)
    have hxs := @parseElems_print xs fuel rest (by omega)
    rw [printElems, List.append_assoc, List.cons_append, parseElems, if_neg (by decide), if_pos rfl, hx]
    simp only [Option.bind_eq_bind, Option.bind_some]
    rw [hxs]
    rfl

/-- A member of an object is read back. -/
theorem parseMember_print (m : String × Json) {fuel : Nat} {rest : List Char} (hf : (printMember m).length ≤ fuel)
    (hr : Stops rest) : parseMember fuel (printMember m ++ rest) = some (m, rest) := by
  match m with
  | (k, v) =>
    have hlen : (printMember (k, v)).length = (quote k).length + ((print v).length + 1) := by
      rw [printMember, List.length_append, List.length_cons]
    have hquote : 0 < (quote k).length := List.length_pos_of_ne_nil (fun hn => nomatch hn)
    obtain ⟨fuel, rfl⟩ : ∃ n, fuel = n + 1 := ⟨fuel - 1, by omega⟩
    have hv := @parseValue_print v fuel rest (by omega) hr
    have hk := parseString_quote k (':' :: (print v ++ rest))
    have htext : printMember (k, v) ++ rest = '"' :: (escape k.toList ++ '"' :: ':' :: (print v ++ rest)) := by
      simp [printMember, quote]
    rw [htext, parseMember, if_pos rfl, hk]
    simp [hv]

/-- The members of an object are read back. -/
theorem parseMembers_print (ms : List (String × Json)) {fuel : Nat} {rest : List Char} (hf : (printMembers ms).length ≤ fuel) :
    parseMembers fuel (printMembers ms ++ rest) = some (ms, rest) := by
  match ms with
  | [] =>
    obtain ⟨fuel, rfl⟩ : ∃ n, fuel = n + 1 := ⟨fuel - 1, by simp [printMembers] at hf; omega⟩
    simp [printMembers, parseMembers]
  | m :: ms =>
    rw [printMembers, List.length_append, List.length_cons] at hf
    obtain ⟨fuel, rfl⟩ : ∃ n, fuel = n + 1 := ⟨fuel - 1, by omega⟩
    have hm := @parseMember_print m fuel (printMembers ms ++ rest) (by omega) (printMembers_stops ms rest)
    have hms := @parseMembers_print ms fuel rest (by omega)
    rw [printMembers, List.append_assoc, List.cons_append, parseMembers, if_neg (by decide), if_pos rfl, hm]
    simp only [Option.bind_eq_bind, Option.bind_some]
    rw [hms]
    rfl

end

/-- A text that is one value. -/
def parse (cs : List Char) : Option Json :=
  match parseValue cs.length cs with
  | some (j, []) => some j
  | _ => none

/-- The text of a value is read as the value. -/
theorem parse_print (j : Json) : parse (print j) = some j := by
  have h := @parseValue_print j (print j).length [] (Nat.le_refl _) stops_nil
  rw [List.append_nil] at h
  unfold parse
  rw [h]

/-- Two values with one text are equal. -/
theorem print_injective : Function.Injective print := by
  intro j j' h
  have heq := congrArg parse h
  rw [parse_print, parse_print] at heq
  exact Option.some.inj heq

/-! ## Lines -/

/-- Neither of the characters that end a line. -/
def inLine (c : Char) : Bool := c ≠ '\n' && c ≠ '\r'

/-- Hexadecimal digits may stand in a line. -/
theorem hexDigit_inLine : ∀ n < 16, inLine (hexDigit n) = true := by decide

/-- So may the characters of numerals. -/
theorem isNumeralChar_inLine {c : Char} (h : isNumeralChar c = true) : inLine c = true := by
  by_contra hn
  have hc : c = '\n' ∨ c = '\r' := by simpa [inLine, or_iff_not_imp_left] using hn
  rcases hc with rfl | rfl
  · exact absurd h (by decide)
  · exact absurd h (by decide)

/-- An escaped character stays in its line. -/
theorem escapeChar_inLine (c : Char) : (escapeChar c).all inLine = true := by
  unfold escapeChar
  split
  · rename_i h
    rcases h with rfl | rfl | rfl <;> decide
  · split
    · decide
    · split
      · decide
      · split
        · decide
        · split
          · decide
          · split
            · decide
            · split
              · rename_i hc
                have hhi := hexDigit_inLine (c.toNat / 16) (by omega)
                have hlo := hexDigit_inLine (c.toNat % 16) (Nat.mod_lt _ (by decide))
                simp only [List.all_cons, hhi, hlo]
                decide
              · rename_i hn hr _ _
                simp [inLine, hn, hr]
/-- An escaped string stays in its line. -/
theorem escape_inLine (cs : List Char) : (escape cs).all inLine = true := by
  induction cs with
  | nil => rfl
  | cons c cs ih =>
    have happ : escape (c :: cs) = escapeChar c ++ escape cs := List.flatMap_cons
    rw [happ, List.all_append, escapeChar_inLine, ih]
    rfl

/-- A quoted string stays in its line. -/
theorem quote_inLine (s : String) : (quote s).all inLine = true := by
  have hs := escape_inLine s.toList
  simp [quote, hs, inLine]

mutual

/-- A text is one line. -/
theorem print_inLine (j : Json) : (print j).all inLine = true := by
  match j with
  | .null => decide
  | .bool true => decide
  | .bool false => decide
  | .num n =>
    have hn := List.all_eq_true.mp n.all_chars
    exact List.all_eq_true.mpr fun c hc => isNumeralChar_inLine (hn c hc)
  | .str s => exact quote_inLine s
  | .arr [] => decide
  | .obj [] => decide
  | .arr (x :: xs) =>
    have hx := print_inLine x
    have hxs := printElems_inLine xs
    simp [print, hx, hxs, inLine]
  | .obj (m :: ms) =>
    have hm := printMember_inLine m
    have hms := printMembers_inLine ms
    simp [print, hm, hms, inLine]

/-- The elements of an array stay in their line. -/
theorem printElems_inLine (xs : List Json) : (printElems xs).all inLine = true := by
  match xs with
  | [] => decide
  | x :: xs =>
    have hx := print_inLine x
    have hxs := printElems_inLine xs
    simp [printElems, hx, hxs, inLine]

/-- A member of an object stays in its line. -/
theorem printMember_inLine (m : String × Json) : (printMember m).all inLine = true := by
  match m with
  | (k, v) =>
    have hk := quote_inLine k
    have hv := print_inLine v
    simp [printMember, hk, hv, inLine]

/-- The members of an object stay in their line. -/
theorem printMembers_inLine (ms : List (String × Json)) : (printMembers ms).all inLine = true := by
  match ms with
  | [] => decide
  | m :: ms =>
    have hm := printMember_inLine m
    have hms := printMembers_inLine ms
    simp [printMembers, hm, hms, inLine]

end

end Json

end Lib
