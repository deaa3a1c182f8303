import SqlCatalog.Value.Basic
/-!
What statements answer with: rows under column names, a count of affected rows, and perhaps the id
of an inserted row.
-/
namespace SqlCatalog

-- A row keeps the column names that held when it was added.
structure Row where
  columns : List String
  values : List Value

namespace Row

def columnIndex? (r : Row) (name : String) : Option Nat := r.columns.idxOf? name

def get? (r : Row) (name : String) : Option Value :=
  match r.columnIndex? name with
  | some place => r.values[place]?
  | none => none

-- An object of the values by column name; a value without one goes by its place.
def toJson (r : Row) : Json :=
  Json.sortedObject (r.values.zipIdx.map fun (value, place) =>
    (r.columns[place]?.getD (toString place), value.toJson))

end Row

structure ResultSet where
  columns : Option (List String)
  rows : List Row
  rowsAffected : Nat
  lastRowId : Option Int64

namespace ResultSet

def empty : ResultSet := ⟨none, [], 0, none⟩

instance : Inhabited ResultSet := ⟨empty⟩

def affected (count : Nat) (lastRowId : Option Int64) : ResultSet :=
  ⟨none, [], count, lastRowId⟩

def setColumns (s : ResultSet) (names : List String) : ResultSet := { s with columns := some names }

-- Adds a row under the present column names, and counts it. Without column names there are none
-- from now on.
def addRow (s : ResultSet) (values : List Value) : ResultSet :=
  let names := s.columns.getD []
  { s with
    columns := some names
    rows := s.rows ++ [⟨names, values⟩]
    rowsAffected := s.rowsAffected + 1 }

def firstRow? (s : ResultSet) : Option Row := s.rows.head?

-- The rows if there are named columns, and a summary if not.
def toJson (s : ResultSet) : Json :=
  if s.columns.any fun names => !names.isEmpty then .array (s.rows.map Row.toJson)
  else
    Json.sortedObject
      [("rows_affected", .nat s.rowsAffected),
       ("last_insert_id", Json.option (fun id => .int id.toInt) s.lastRowId)]

end ResultSet

inductive Output where
  | rowId (id : Int64)
  | value (value : Option Value)
  | row (row : Option Row)
  | table (set : ResultSet)
  | script (sets : List ResultSet)
  | batch (outputs : List Output)

namespace Output

instance : Inhabited Output := ⟨batch []⟩

def asRowId? : Output → Option Int64
  | rowId id => some id
  | _ => none

def rowIds? : Output → Option (List Int64)
  | batch outputs => outputs.mapM asRowId?
  | rowId id => some [id]
  | _ => none

def asValue? : Output → Option Value
  | value v => v
  | _ => none

def asRow? : Output → Option Row
  | row r => r
  | _ => none

def asTable? : Output → Option ResultSet
  | table set => some set
  | _ => none

def asScript? : Output → Option (List ResultSet)
  | script sets => some sets
  | _ => none

def asBatch? : Output → Option (List Output)
  | batch outputs => some outputs
  | _ => none

def isNull : Output → Bool
  | value none | row none => true
  | _ => false

mutual

def toJson : Output → Json
  | rowId id => .int id.toInt
  | value v => Json.option Value.toJson v
  | row r => Json.option Row.toJson r
  | table set => set.toJson
  | script sets => .array (sets.map ResultSet.toJson)
  | batch outputs => .array (listToJson outputs)

def listToJson : List Output → List Json
  | [] => []
  | output :: rest => toJson output :: listToJson rest

end

end Output
end SqlCatalog
