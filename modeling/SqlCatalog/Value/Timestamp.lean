import SqlCatalog.Text.CharClass
/-!
Dates with a time of day, to the nanosecond and with leap seconds, and their text. A second with a
billion nanoseconds or more is a leap second and is written as the second after it; of a text only
second 60 is read as one.
-/
namespace SqlCatalog

namespace Timestamp

def isLeapYear (year : Int) : Bool :=
  year % 4 == 0 && (year % 100 != 0 || year % 400 == 0)

def daysIn (year : Int) (month : Nat) : Nat :=
  if month = 2 then if isLeapYear year then 29 else 28
  else if month = 4 ∨ month = 6 ∨ month = 9 ∨ month = 11 then 30
  else 31

def leastYear : Int := -262143
def greatestYear : Int := 262142

def billion : Nat := 1000000000

def ValidDate (year : Int) (month day : Nat) : Prop :=
  leastYear ≤ year ∧ year ≤ greatestYear ∧ 1 ≤ month ∧ month ≤ 12 ∧ 1 ≤ day ∧
    day ≤ daysIn year month

-- Any second may have the nanoseconds of a leap second, not the 59th alone.
def ValidTime (hour minute second nanosecond : Nat) : Prop :=
  hour < 24 ∧ minute < 60 ∧ second < 60 ∧ nanosecond < 2 * billion

instance (year : Int) (month day : Nat) : Decidable (ValidDate year month day) :=
  inferInstanceAs (Decidable (_ ∧ _))

instance (hour minute second nanosecond : Nat) :
    Decidable (ValidTime hour minute second nanosecond) :=
  inferInstanceAs (Decidable (_ ∧ _))

end Timestamp

structure Timestamp where
  year : Int
  month : Nat
  day : Nat
  hour : Nat
  minute : Nat
  second : Nat
  nanosecond : Nat
  validDate : Timestamp.ValidDate year month day
  validTime : Timestamp.ValidTime hour minute second nanosecond
deriving DecidableEq

namespace Timestamp

def ofParts? (year : Int) (month day hour minute second nanosecond : Nat) : Option Timestamp :=
  if h : ValidDate year month day ∧ ValidTime hour minute second nanosecond then
    some ⟨year, month, day, hour, minute, second, nanosecond, h.1, h.2⟩
  else none

/-! ### Writing -/

def padded (width n : Nat) : List Char :=
  let digits := Nat.toDigits 10 n
  List.replicate (width - digits.length) '0' ++ digits

-- Four digits for the years from 0 to 9999; for others a sign in front of at least four.
def yearText (year : Int) : List Char :=
  if 0 ≤ year ∧ year ≤ 9999 then padded 4 year.natAbs
  else (if year < 0 then '-' else '+') :: padded 4 year.natAbs

-- The fraction of a second in nine digits, in six or three if the others are zero, or not at
-- all.
def fractionText (nanosecond : Nat) : List Char :=
  if nanosecond = 0 then []
  else if nanosecond % 1000000 = 0 then '.' :: padded 3 (nanosecond / 1000000)
  else if nanosecond % 1000 = 0 then '.' :: padded 6 (nanosecond / 1000)
  else '.' :: padded 9 nanosecond

def chars (t : Timestamp) : List Char :=
  let second := t.second + t.nanosecond / billion
  yearText t.year ++ '-' :: padded 2 t.month ++ '-' :: padded 2 t.day ++ ' ' ::
    padded 2 t.hour ++ ':' :: padded 2 t.minute ++ ':' :: padded 2 second ++
    fractionText (t.nanosecond % billion)

def text (t : Timestamp) : String := String.ofList t.chars

/-! ### Reading -/

def value (digits : List Char) : Nat :=
  digits.foldl (fun n c => n * 10 + (c.toNat - '0'.toNat)) 0

def digits? (width : Nat) (cs : List Char) : Option (Nat × List Char) :=
  let digits := (cs.take width).takeWhile Char.isDigit
  if digits.isEmpty then none else some (value digits, cs.drop digits.length)

def number? (width : Nat) (cs : List Char) : Option (Nat × List Char) :=
  digits? width (cs.dropWhile Text.isBlank)

-- The year, behind any white space: with a sign of any length, without one of four digits.
def year? (cs : List Char) : Option (Int × List Char) :=
  match cs.dropWhile Text.isBlank with
  | '-' :: rest => (digits? rest.length rest).map fun (n, rest) => (-(n : Int), rest)
  | '+' :: rest => (digits? rest.length rest).map fun (n, rest) => ((n : Int), rest)
  | rest => (digits? 4 rest).map fun (n, rest) => ((n : Int), rest)

def mark? (c : Char) : List Char → Option (List Char)
  | [] => none
  | d :: rest => if d = c then some rest else none

-- A fraction of a second, if a point stands here; digits behind the ninth count nothing.
def fraction? (cs : List Char) : Option (Nat × List Char) :=
  match cs with
  | '.' :: rest =>
    let digits := rest.takeWhile Char.isDigit
    if digits.isEmpty then none
    else
      let nine := digits.take 9
      some (value nine * Nat.pow 10 (9 - nine.length), rest.drop digits.length)
  | rest => some (0, rest)

def ofChars? (cs : List Char) : Option Timestamp := do
  let (year, cs) ← year? cs
  let (month, cs) ← number? 2 (← mark? '-' cs)
  let (day, cs) ← number? 2 (← mark? '-' cs)
  let (hour, cs) ← number? 2 cs
  let (minute, cs) ← number? 2 (← mark? ':' cs)
  let (second, cs) ← number? 2 (← mark? ':' cs)
  let (nanosecond, cs) ← fraction? cs
  if cs.isEmpty then
    if second = 60 then ofParts? year month day hour minute 59 (billion + nanosecond)
    else ofParts? year month day hour minute second nanosecond
  else none

def ofText? (s : String) : Option Timestamp := ofChars? s.toList

end Timestamp
end SqlCatalog
