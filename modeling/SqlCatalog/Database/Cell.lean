import SqlCatalog.Value.Basic
import SqlCatalog.Database.Numeral
/-!
What a database stores, and how values are written to it and read back. Truth values are stored as
numbers, timestamps and JSON as texts.
-/
namespace SqlCatalog

namespace Database

inductive Cell where
  | null
  | integer (n : Int64)
  | real (x : Float)
  | text (s : String)
  | blob (bytes : List UInt8)

namespace Cell

instance : Inhabited Cell := ⟨null⟩

def toValue : Cell → Value
  | null => .null
  | integer n => .int n
  | real x => .float x
  | text s => .text s
  | blob bytes => .blob bytes

-- What is bound for a cell: there is no cell for what is not a number.
def bound : Cell → Cell
  | real x => if x.isNaN then null else real x
  | cell => cell

-- The cell of a number: whole if it is written so and fits, else a floating point number.
def ofNumeral (negative : Bool) (n : Numeral) : Cell :=
  match n.integer? negative with
  | some value => integer value
  | none => real (if negative then -n.magnitude else n.magnitude)

-- The number that a command writes, with the sign before it. In base sixteen the least number of
-- 64 bits cannot be written by a sign.
def ofLiteral? (negative : Bool) (spelling : List Char) : Option Cell :=
  match spelling with
  | '0' :: x :: digits =>
    if x = 'x' ∨ x = 'X' then do
      let digits ← ungrouped? (fun c => (Token.hexDigit? c).isSome) digits
      let value ← wordOfHex? digits
      if negative then
        if value = Int64.minValue then none else return integer (-value)
      else return integer value
    else decimal? spelling
  | _ => decimal? spelling
where
  decimal? (spelling : List Char) : Option Cell := do
    let digits ← ungrouped? Char.isDigit spelling
    return ofNumeral negative (← Numeral.ofChars? digits)

def isMargin (c : Char) : Bool := c == ' ' || ('\t' ≤ c && c ≤ '\r')

def ofText? (s : String) : Option Cell :=
  let cs := ((s.toList.dropWhile isMargin).reverse.dropWhile isMargin).reverse
  match cs with
  | '-' :: cs => (Numeral.ofChars? cs).map (ofNumeral true)
  | '+' :: cs => (Numeral.ofChars? cs).map (ofNumeral false)
  | cs => (Numeral.ofChars? cs).map (ofNumeral false)

def wholeFloat? (x : Float) : Option Int64 :=
  let n := x.toInt64
  if n.toFloat == x && Int64.minValue < n && n < Int64.maxValue then some n else none

def whole? : Cell → Option Int64
  | integer n => some n
  | real x => wholeFloat? x
  | text s =>
    match ofText? s with
    | some (integer n) => some n
    | some (real x) => wholeFloat? x
    | _ => none
  | null | blob _ => none

end Cell
end Database

namespace Value

def toCell : Value → Database.Cell
  | null => .null
  | bool b => .integer (if b then 1 else 0)
  | int n => .integer n
  | float x => .real x
  | text s => .text s
  | timestamp t => .text t.text
  | json j => .text j.compact
  | blob bytes => .blob bytes

end Value
end SqlCatalog
