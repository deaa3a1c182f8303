import SqlCatalog.Json.Printer
import SqlCatalog.Value.Timestamp
/-!
The values that parameters are bound to and rows are made of.
-/
namespace SqlCatalog

inductive Value where
  | null
  | bool (b : Bool)
  | int (n : Int64)
  | float (x : Float)
  | text (s : String)
  | timestamp (t : Timestamp)
  | json (j : Json)
  | blob (bytes : List UInt8)

namespace Value

instance : Inhabited Value := ⟨null⟩

def ofOption {α : Type} (encode : α → Value) : Option α → Value
  | none => null
  | some a => encode a

def isNull : Value → Bool
  | null => true
  | _ => false

def asInt? : Value → Option Int64
  | int n => some n
  | _ => none

def asText? : Value → Option String
  | text s => some s
  | _ => none

def asBool? : Value → Option Bool
  | bool b => some b
  | int n => if n = 1 then some true else if n = 0 then some false else none
  | _ => none

def asTimestamp? : Value → Option Timestamp
  | timestamp t => some t
  | text s => Timestamp.ofText? s
  | _ => none

def asFloat? : Value → Option Float
  | float x => some x
  | int n => some n.toFloat
  | _ => none

def asBlob? : Value → Option (List UInt8)
  | blob bytes => some bytes
  | _ => none

-- A timestamp is its text and a blob the list of its bytes; what is no finite number is null.
def toJson : Value → Json
  | null => .null
  | bool b => .bool b
  | int n => .int n.toInt
  | float x => .float x
  | text s => .text s
  | timestamp t => .text t.text
  | json j => j
  | blob bytes => .array (bytes.map fun byte => .nat byte.toNat)

-- Arrays and objects stay JSON; a whole number of more than 64 bits with sign becomes a floating
-- point number.
def ofJson : Json → Value
  | .null => null
  | .bool b => bool b
  | .number (.whole n _) =>
    if n ≤ Int64.maxValue.toInt then int (Int64.ofInt n) else float n.toNat.toUInt64.toFloat
  | .number (.float x _) => float x
  | .text s => text s
  | .array items => json (.array items)
  | .object members => json (.object members)

end Value
end SqlCatalog
