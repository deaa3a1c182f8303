import SqlCatalog.Engine.Basic
import SqlCatalog.Operation.Basic
import SqlCatalog.Value.Params
/-!
Running an operation on an engine. All statements are bound before the first is executed; then they
are executed in order, and the first error ends the run. An insert is answered by the row id of its
first statement, which is settled before the others are executed.
-/
namespace SqlCatalog.Operation

variable {σ : Type}

structure Bound where
  sql : String
  values : List Value

def bindStatement (op : Operation) (p : Params) (c : CompiledSql) : Except Failure Bound :=
  match p.bind c.params with
  | .ok values => .ok ⟨c.sql, values⟩
  | .error parameter => .error (.missingParameter op.name parameter)

def bindStatements (op : Operation) (p : Params) : List CompiledSql → Except Failure (List Bound)
  | [] => .ok []
  | c :: cs =>
    match op.bindStatement p c with
    | .error failure => .error failure
    | .ok bound => (op.bindStatements p cs).map (bound :: ·)

def executeAll (e : Engine σ) (l : List Bound) : Action σ (List ResultSet) :=
  Action.each (fun bound => e.execute bound.sql bound.values) l

def askRowId (op : Operation) (e : Engine σ) : Action σ Int64 := do
  match ← e.lastRowId with
  | some id => pure id
  | none => .fail (.execution (.noRowId op.name))

-- The id of the row that an insert has just made. Where the answer carries ids, an insert that
-- affected no row has none: the one the connection remembers is that of an earlier insert.
def rowId (op : Operation) (e : Engine σ) (set : ResultSet) : Action σ Int64 := do
  if ← Action.gets e.reportsRowIds then
    match set.lastRowId with
    | some id => pure id
    | none =>
      if set.rowsAffected = 0 then .fail (.execution (.noRowInserted op.name))
      else op.askRowId e
  else op.askRowId e

def answer (op : Operation) (first : ResultSet) (others : List ResultSet) : Output :=
  match op.category with
  | .singleValue => .value (first.firstRow?.bind (·.values.head?))
  | .singleRow => .row first.firstRow?
  | .table => .table first
  | _ => .script (first :: others)

def runBound (op : Operation) (e : Engine σ) (first : Bound) (others : List Bound) :
    Action σ Output := do
  let set ← e.execute first.sql first.values
  if op.isInsert then
    let id ← op.rowId e set
    let _ ← executeAll e others
    return .rowId id
  else
    let sets ← executeAll e others
    return op.answer set sets

def runStatements (op : Operation) (e : Engine σ) (p : Params) : Action σ Output := do
  let first ← .ofExcept (op.bindStatement p op.first)
  let others ← .ofExcept (op.bindStatements p op.others)
  op.runBound e first others

-- Runs for one set of parameters; a script without parameters in one go, where that is
-- possible.
def runFor (op : Operation) (e : Engine σ) (p : Params) : Action σ Output := do
  let native ← Action.gets e.hasScripts
  match native, op.script with
  | true, some script => return .script (← e.executeScript script)
  | _, _ => op.runStatements e p

def run (op : Operation) (e : Engine σ) : Arguments → Action σ Output
  | .single p => op.runFor e p
  | .batch all => do return .batch (← Action.each (op.runFor e) all)

end SqlCatalog.Operation
