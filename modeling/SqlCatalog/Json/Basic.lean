import SqlCatalog.NameMap
/-!
JSON values. A number without fraction and exponent that fits 64 bits, signed or not, is a whole
number and keeps its value; every other number is a finite floating point number.
-/
namespace SqlCatalog

namespace Json

def WholeRange (n : Int) : Prop := Int64.minValue.toInt ≤ n ∧ n < UInt64.size

instance (n : Int) : Decidable (WholeRange n) := inferInstanceAs (Decidable (_ ∧ _))

inductive Number where
  | whole (n : Int) (inRange : WholeRange n)
  | float (x : Float) (finite : x.isFinite)

end Json

-- The members of an object stand in the order that they are written in.
inductive Json where
  | null
  | bool (b : Bool)
  | number (n : Json.Number)
  | text (s : String)
  | array (items : List Json)
  | object (members : List (String × Json))

namespace Json

instance : Inhabited Json := ⟨null⟩

def int (n : Int) : Json := if h : WholeRange n then number (.whole n h) else null

def float (x : Float) : Json := if h : x.isFinite then number (.float x h) else null

def nat (n : Nat) : Json := int n

def option {α : Type} (encode : α → Json) : Option α → Json
  | none => null
  | some a => encode a

-- An object with its members in increasing order, a later one replacing an earlier one of the
-- same name.
def sortedObject (members : List (String × Json)) : Json := object (Entries.ofList members)

end Json
end SqlCatalog
