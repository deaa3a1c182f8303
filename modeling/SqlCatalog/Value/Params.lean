import SqlCatalog.NameMap
import SqlCatalog.Value.Basic
/-!
Parameters: values under the names of markers. A name may be given with the colon of its marker; one
colon in front is dropped wherever a name is given.
-/
namespace SqlCatalog

structure Params where
  values : NameMap Value

namespace Params

def bareName (name : String) : String :=
  match name.toList with
  | ':' :: rest => String.ofList rest
  | _ => name

def empty : Params := ⟨.empty⟩

instance : Inhabited Params := ⟨empty⟩

def insert (p : Params) (name : String) (value : Value) : Params :=
  ⟨p.values.insert (bareName name) value⟩

-- Inserts a value, and tells the one that it takes the place of.
def replace (p : Params) (name : String) (value : Value) : Option Value × Params :=
  let (old, values) := p.values.replace (bareName name) value
  (old, ⟨values⟩)

def get? (p : Params) (name : String) : Option Value := p.values.get? (bareName name)

def size (p : Params) : Nat := p.values.size

def isEmpty (p : Params) : Bool := p.values.isEmpty

def toList (p : Params) : List (String × Value) := p.values.entries

def ofList (l : List (String × Value)) : Params := l.foldl (fun p e => p.insert e.1 e.2) empty

def ofJson? : Json → Option Params
  | .object members => some (ofList (members.map fun m => (m.1, Value.ofJson m.2)))
  | _ => none

def bind (p : Params) : List String → Except String (List Value)
  | [] => .ok []
  | name :: names =>
    match p.get? name with
    | some value => (p.bind names).map (value :: ·)
    | none => .error name

end Params

inductive Arguments where
  | single (params : Params)
  | batch (all : List Params)

namespace Arguments

instance : Inhabited Arguments := ⟨single .empty⟩

def isBatch : Arguments → Bool
  | single _ => false
  | batch _ => true

-- An argument by position, where there is one, takes the place of all keyword arguments.
def normalize (positional : Option Arguments) (keywords : Params) : Arguments :=
  positional.getD (single keywords)

end Arguments
end SqlCatalog
