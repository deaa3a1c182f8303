/-!
Floating point numbers in decimal. A positive finite number is `significand * 2 ^ power`; the
decimals that are read back as it form an interval around it, and `shortest` finds one of the
fewest digits there, the nearest of those. In the other direction `scaled?` is the value of a word
of digits times a power of ten.
-/
namespace SqlCatalog.Decimal

-- The numbers below a power of two lie closer to it than those above, unless it is the least of its
-- kind.
structure Binary where
  significand : Nat
  power : Int
  closeBelow : Bool
deriving DecidableEq

def Binary.ofBits (bits : UInt64) : Binary :=
  let leading : Nat := 0x10000000000000
  let exponent : Nat := bits.toNat / leading % 2048
  let fraction : Nat := bits.toNat % leading
  if exponent = 0 then ⟨fraction, -1074, false⟩
  else ⟨fraction + leading, (exponent : Int) - 1075, fraction == 0 && exponent != 1⟩

structure Scientific where
  number : Nat
  power : Int
deriving DecidableEq

def aligned (a : Nat) (i : Int) (b : Nat) (j : Int) : Nat × Nat :=
  (a * Nat.pow 2 i.toNat * Nat.pow 10 (-j).toNat, b * Nat.pow 10 j.toNat * Nat.pow 2 (-i).toNat)

namespace Binary

def covers (x : Binary) (d : Scientific) : Bool :=
  let quarter := x.power - 2
  let low := aligned (4 * x.significand - if x.closeBelow then 1 else 2) quarter d.number d.power
  let high := aligned (4 * x.significand + 2) quarter d.number d.power
  if x.significand % 2 = 0 then low.1 ≤ low.2 && high.2 ≤ high.1
  else low.1 < low.2 && high.2 < high.1

def magnitude (x : Binary) : Int :=
  let scale := 350
  let (value, unit) := aligned x.significand x.power 1 (-scale)
  (Nat.toDigits 10 (value / unit)).length - 1 - scale

-- On the grid of the multiples of `10 ^ power`, the neighbour of the number that is read back as
-- it; of two the nearer, and of two equally near the even one.
def onGrid? (x : Binary) (power : Int) : Option Scientific :=
  let (value, unit) := aligned x.significand x.power 1 power
  let below := value / unit
  let down : Scientific := ⟨below, power⟩
  let up : Scientific := ⟨below + 1, power⟩
  match x.covers down, x.covers up with
  | true, true =>
    let twice := 2 * (value % unit)
    if twice < unit ∨ (twice = unit ∧ below % 2 = 0) then some down else some up
  | true, false => some down
  | false, true => some up
  | false, false => none

def shortest (x : Binary) : Scientific :=
  let top := x.magnitude
  let found := (List.range 17).findSome? fun (digits : Nat) => x.onGrid? (top - (digits : Nat))
  found.getD ⟨x.significand, 0⟩

end Binary

def Scientific.digits (d : Scientific) : List Char × Int :=
  let all := Nat.toDigits 10 d.number
  ((all.reverse.dropWhile (· == '0')).reverse, all.length - 1 + d.power)

def plainFrom : Int := -5
def plainBelow : Int := 16

def positiveText (x : Binary) : List Char :=
  let (digits, top) := x.shortest.digits
  let zeros (n : Nat) : List Char := List.replicate n '0'
  if top < plainFrom ∨ plainBelow ≤ top then
    let fraction := if digits.tail.isEmpty then [] else '.' :: digits.tail
    digits.take 1 ++ fraction ++ ['e', if top < 0 then '-' else '+'] ++ Nat.toDigits 10 top.natAbs
  else if top < 0 then '0' :: '.' :: zeros (top.natAbs - 1) ++ digits
  else
    let whole := digits.take (top.toNat + 1)
    let fraction := digits.drop (top.toNat + 1)
    whole ++ zeros (top.toNat + 1 - digits.length) ++ '.' ::
      if fraction.isEmpty then ['0'] else fraction

def text (x : Float) : String :=
  let bits := x.toBits
  let magnitude := bits % 0x8000000000000000
  String.ofList ((if bits = magnitude then [] else ['-']) ++
    if magnitude = 0 then "0.0".toList else positiveText (.ofBits magnitude))

def powerOfTen (n : Nat) : Float := Float.ofScientific 1 false n

-- `none` where the result would be infinite.
def scaled? (significand : UInt64) (power : Int) : Option Float :=
  let x := significand.toFloat
  let n := power.natAbs
  if 0 ≤ power then
    if significand = 0 then some 0.0
    else if 308 < n then none
    else
      let y := x * powerOfTen n
      if y.isInf then none else some y
  else if n ≤ 308 then some (x / powerOfTen n)
  else if n ≤ 616 then some (x / powerOfTen 308 / powerOfTen (n - 308))
  else some 0.0

end SqlCatalog.Decimal
