import SqlCatalog.Decimal
import SqlCatalog.Json.Basic
/-!
Reading JSON, strictly: no leading zeros, trailing commas, comments, unpaired surrogates or bare
control characters, and a limit on how deep arrays and objects are nested.
-/
namespace SqlCatalog.Json

abbrev Reader (α : Type) := List Char → Option (α × List Char)

def isSpace (c : Char) : Bool := c == ' ' || c == '\n' || c == '\t' || c == '\r'

def skipSpace (cs : List Char) : List Char := cs.dropWhile isSpace

def hexDigit? (c : Char) : Option Nat :=
  if c.isDigit then some (c.toNat - '0'.toNat)
  else if 'a' ≤ c ∧ c ≤ 'f' then some (c.toNat - 'a'.toNat + 10)
  else if 'A' ≤ c ∧ c ≤ 'F' then some (c.toNat - 'A'.toNat + 10)
  else none

def readUnit : Reader Nat
  | a :: b :: c :: d :: rest => do
    let a ← hexDigit? a
    let b ← hexDigit? b
    let c ← hexDigit? c
    let d ← hexDigit? d
    some (((a * 16 + b) * 16 + c) * 16 + d, rest)
  | _ => none

def readUnicodeEscape (cs : List Char) : Option (Char × List Char) := do
  let (unit, rest) ← readUnit cs
  if 0xd800 ≤ unit ∧ unit < 0xdc00 then
    match rest with
    | '\\' :: 'u' :: rest =>
      let (second, rest) ← readUnit rest
      if 0xdc00 ≤ second ∧ second < 0xe000 then
        some (Char.ofNat (0x10000 + (unit - 0xd800) * 0x400 + (second - 0xdc00)), rest)
      else none
    | _ => none
  else if 0xdc00 ≤ unit ∧ unit < 0xe000 then none
  else some (Char.ofNat unit, rest)

def readEscape (cs : List Char) : Option (Char × List Char) :=
  match cs with
  | '"' :: rest => some ('"', rest)
  | '\\' :: rest => some ('\\', rest)
  | '/' :: rest => some ('/', rest)
  | 'b' :: rest => some ('\x08', rest)
  | 'f' :: rest => some ('\x0c', rest)
  | 'n' :: rest => some ('\n', rest)
  | 'r' :: rest => some ('\r', rest)
  | 't' :: rest => some ('\t', rest)
  | 'u' :: rest => readUnicodeEscape rest
  | _ => none

theorem read_unit_length {cs rest : List Char} {n : Nat} (h : readUnit cs = some (n, rest)) :
    rest.length ≤ cs.length := by
  unfold readUnit at h
  split at h
  · simp only [Option.bind_eq_bind, Option.bind_eq_some_iff, Option.some.injEq,
      Prod.mk.injEq] at h
    obtain ⟨-, -, -, -, -, -, -, -, -, rfl⟩ := h
    simp only [List.length_cons]; omega
  · simp at h

theorem read_unicode_escape_length {cs rest : List Char} {c : Char}
    (h : readUnicodeEscape cs = some (c, rest)) : rest.length ≤ cs.length := by
  unfold readUnicodeEscape at h
  simp only [Option.bind_eq_bind, Option.bind_eq_some_iff] at h
  obtain ⟨⟨unit, left⟩, first, h⟩ := h
  have := read_unit_length first
  dsimp only at h
  split at h
  · split at h
    · simp only [Option.bind_eq_some_iff] at h
      obtain ⟨⟨second, left'⟩, found, h⟩ := h
      have := read_unit_length found
      simp only [Option.ite_none_right_eq_some, Option.some.injEq, Prod.mk.injEq] at h
      obtain ⟨-, -, rfl⟩ := h
      simp only [List.length_cons] at *
      omega
    · simp at h
  · split at h
    · simp at h
    · simp only [Option.some.injEq, Prod.mk.injEq] at h
      obtain ⟨-, rfl⟩ := h
      assumption

theorem read_escape_length {cs rest : List Char} {c : Char}
    (h : readEscape cs = some (c, rest)) : rest.length ≤ cs.length := by
  unfold readEscape at h
  split at h
  case h_9 => have := read_unicode_escape_length h; simp only [List.length_cons]; omega
  case h_10 => simp at h
  all_goals
    simp only [Option.some.injEq, Prod.mk.injEq] at h
    obtain ⟨-, rfl⟩ := h
    simp

def readChars (cs : List Char) : Option (List Char × List Char) :=
  match cs with
  | [] => none
  | c :: cs =>
    if c = '"' then some ([], cs)
    else if c = '\\' then
      match _found : readEscape cs with
      | none => none
      | some (e, rest') => (readChars rest').map fun (chars, rest) => (e :: chars, rest)
    else if c.toNat < 0x20 then none
    else (readChars cs).map fun (chars, rest) => (c :: chars, rest)
termination_by cs.length
decreasing_by
  · have := read_escape_length _found; simp only [List.length_cons]; omega
  · simp

def readString : Reader String
  | '"' :: cs => (readChars cs).map fun (chars, rest) => (String.ofList chars, rest)
  | _ => none

def digitsValue (digits : List Char) : Nat :=
  digits.foldl (fun n c => n * 10 + (c.toNat - '0'.toNat)) 0

def fittingDigits (start : Nat) : List Char → Nat × Nat
  | [] => (start, 0)
  | c :: cs =>
    let more := start * 10 + (c.toNat - '0'.toNat)
    if more < UInt64.size then fittingDigits more cs else (start, cs.length + 1)

-- The value of a number given as digits before the point, digits behind it, and an exponent. On
-- each side only the digits that fit a word count; those left over before the point still scale.
def decimal? (whole fraction : List Char) (power : Int) : Option Float :=
  let (start, left) := fittingDigits 0 whole
  let (significand, lost) := fittingDigits start fraction
  Decimal.scaled? significand.toUInt64 (left - (fraction.length - lost : Nat) + power)

def finite? (x : Float) : Option Json :=
  if h : x.isFinite then some (number (.float x h)) else none

def readExponent (cs : List Char) : Option (Option Int × List Char) :=
  match cs with
  | e :: rest =>
    if e = 'e' ∨ e = 'E' then
      let (negative, rest) := match rest with
        | '+' :: rest => (false, rest)
        | '-' :: rest => (true, rest)
        | rest => (false, rest)
      let digits := rest.takeWhile Char.isDigit
      if digits.isEmpty then none
      else
        let n : Int := digitsValue digits
        some (some (if negative then -n else n), rest.drop digits.length)
    else some (none, cs)
  | [] => some (none, [])

def readFraction (cs : List Char) : Option (Option (List Char) × List Char) :=
  match cs with
  | '.' :: rest =>
    let digits := rest.takeWhile Char.isDigit
    if digits.isEmpty then none else some (some digits, rest.drop digits.length)
  | rest => some (none, rest)

def readNumber (cs : List Char) : Option (Json × List Char) := do
  let negative := cs.head? == some '-'
  let cs := if negative then cs.tail else cs
  let whole := cs.takeWhile Char.isDigit
  if whole.isEmpty ∨ (whole.head? = some '0' ∧ whole.length > 1) then none
  else
    let (fraction, rest) ← readFraction (cs.drop whole.length)
    let (power, rest) ← readExponent rest
    let n : Int := digitsValue whole
    let signed := if negative then -n else n
    if h : fraction = none ∧ power = none ∧ WholeRange signed ∧ ¬(negative ∧ n = 0) then
      some (number (.whole signed h.2.2.1), rest)
    else
      let x ← decimal? whole (fraction.getD []) (power.getD 0)
      let value ← finite? (if negative then -x else x)
      some (value, rest)

-- At most so many items separated by commas, up to the closing bracket; at least one is there.
def readItems {α : Type} (item : Reader α) (closing : Char) :
    (most : Nat) → List Char → Option (List α × List Char)
  | 0, _ => none
  | most + 1, cs => do
    let (a, rest) ← item cs
    match skipSpace rest with
    | [] => none
    | c :: rest =>
      if c = closing then some ([a], rest)
      else if c = ',' then
        let (items, rest) ← readItems item closing most rest
        some (a :: items, rest)
      else none

def readBracketed {α : Type} (item : Reader α) (closing : Char) (most : Nat) (cs : List Char) :
    Option (List α × List Char) :=
  match skipSpace cs with
  | c :: rest => if c = closing then some ([], rest) else readItems item closing most (c :: rest)
  | [] => none

def readMember (value : Reader Json) (cs : List Char) : Option ((String × Json) × List Char) := do
  let (name, rest) ← readString (skipSpace cs)
  match skipSpace rest with
  | ':' :: rest =>
    let (v, rest) ← value rest
    some ((name, v), rest)
  | _ => none

-- A value with at most `depth` arrays and objects inside each other, and with no more than `most`
-- items in any of them.
def readValue (most : Nat) : (depth : Nat) → Reader Json
  | depth, cs =>
    match skipSpace cs with
    | 'n' :: 'u' :: 'l' :: 'l' :: rest => some (null, rest)
    | 't' :: 'r' :: 'u' :: 'e' :: rest => some (bool true, rest)
    | 'f' :: 'a' :: 'l' :: 's' :: 'e' :: rest => some (bool false, rest)
    | '"' :: rest => (readString ('"' :: rest)).map fun (s, rest) => (text s, rest)
    | '[' :: rest =>
      match depth with
      | 0 => none
      | depth + 1 =>
        (readBracketed (readValue most depth) ']' most rest).map fun (items, rest) =>
          (array items, rest)
    | '\x7b' :: rest =>
      match depth with
      | 0 => none
      | depth + 1 =>
        (readBracketed (readMember (readValue most depth)) '\x7d' most rest).map
          fun (members, rest) => (sortedObject members, rest)
    | cs => readNumber cs

-- The value of a whole text, nested no deeper than `depth`. A text has fewer items than
-- characters.
def parseNested? (depth : Nat) (s : String) : Option Json :=
  match readValue s.length depth s.toList with
  | some (value, rest) => if (skipSpace rest).isEmpty then some value else none
  | none => none

def parse? (s : String) : Option Json := parseNested? 127 s

end SqlCatalog.Json
