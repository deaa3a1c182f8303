import SqlCatalog.Token.Lexer
/-!
Numbers in the writing of the database: digits, perhaps a point among them, perhaps a power of ten
behind them. They stand for whole numbers of 64 bits where they can, and for floating point numbers
where they cannot. Commands write numbers, and a text may be one as well.
-/
namespace SqlCatalog.Database

-- A number without its sign. The point keeps the digits behind it, and the power its `e`; either
-- may be missing.
structure Numeral where
  whole : List Char
  point : List Char
  power : List Char

def digitsValue (digits : List Char) : Nat :=
  digits.foldl (fun n c => n * 10 + (c.toNat - '0'.toNat)) 0

namespace Numeral

def ofChars? (cs : List Char) : Option Numeral :=
  let whole := cs.takeWhile Char.isDigit
  let point := Token.fraction (cs.drop whole.length)
  let rest := cs.drop (whole.length + point.length)
  let power := Token.exponent rest
  if power.length = rest.length ∧ (whole ++ point).any Char.isDigit then some ⟨whole, point, power⟩
  else none

def isWhole (n : Numeral) : Bool := n.point.isEmpty && n.power.isEmpty

def exponentValue : List Char → Int
  | _ :: '-' :: digits => -digitsValue digits
  | _ :: '+' :: digits => digitsValue digits
  | _ :: digits => digitsValue digits
  | [] => 0

-- The value of the digits as long as they fit a word surely, and how many are left over.
def significand (start : Nat) : List Char → Nat × Nat
  | [] => (start, 0)
  | c :: cs =>
    if start < 1844674407370955160 then significand (start * 10 + (c.toNat - '0'.toNat)) cs
    else (start, cs.length + 1)

-- The floating point number; digits left over count as zeros.
def magnitude (n : Numeral) : Float :=
  let fraction := n.point.drop 1
  let (digits, left) := significand 0 (n.whole ++ fraction)
  let power := exponentValue n.power + left - fraction.length
  let reach : Int := 400
  if digits = 0 ∨ power < -reach then 0.0
  else if reach < power then Float.ofScientific 1 false reach.toNat
  else Float.ofScientific digits (power < 0) power.natAbs

def integer? (n : Numeral) (negative : Bool) : Option Int64 :=
  let value : Int := digitsValue n.whole
  let value := if negative then -value else value
  if n.isWhole ∧ Int64.minValue.toInt ≤ value ∧ value ≤ Int64.maxValue.toInt then
    some (Int64.ofInt value)
  else none

end Numeral

-- The digits without the underscores between them; elsewhere no underscore may stand.
def ungrouped? (isDigit : Char → Bool) : List Char → Option (List Char)
  | [] => some []
  | a :: '_' :: b :: cs =>
    if isDigit a && isDigit b then (ungrouped? isDigit (b :: cs)).map (a :: ·) else none
  | c :: cs => if c = '_' ∨ cs = ['_'] then none else (ungrouped? isDigit cs).map (c :: ·)

-- The number that at most sixteen digits of base sixteen, zeros before them aside, stand for as
-- the bits of a word.
def wordOfHex? (digits : List Char) : Option Int64 := do
  let values ← digits.mapM Token.hexDigit?
  if values.isEmpty || 16 < (values.dropWhile (· == 0)).length then none
  else return Int64.ofNat (values.foldl (fun n value => n * 16 + value) 0)

end SqlCatalog.Database
