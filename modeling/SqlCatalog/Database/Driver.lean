import SqlCatalog.Database.Cell
import SqlCatalog.Engine.Basic
/-!
A database as it is used: what has to be known of one, and how texts of statements are run on it.
Texts are run one statement at a time or as a whole script.
-/
namespace SqlCatalog.Database

inductive Answer where
  | rows (columns : List String) (rows : List (List Cell))
  | changed

-- A database with connections of type `γ` that reads texts as statements of type `π`. Preparing a
-- statement is part of running it; one that is kept prepared runs as a new one does.
structure Driver (γ π : Type) where
  read : String → Except Problem π
  readAll : String → List π
  run : γ → π → List Cell → Except Problem Answer × γ
  runText : γ → String → Except Problem Unit × γ
  autocommit : γ → Bool
  lastRowId : γ → Int64
  changes : γ → Nat

structure Attached (γ : Type) where
  connection : γ
  cacheCapacity : Nat

-- The text begins with the word INSERT or REPLACE; a comment before it hides it.
def isInsertion (sql : String) : Bool :=
  let word := (sql.toList.dropWhile Text.isBlank).takeWhile Char.isAlpha
  let word := (String.ofList word).toLower
  word == "insert" || word == "replace"

namespace Attached

def onConnection {γ α : Type} (use : γ → Except Problem α × γ) : Action (Attached γ) α := fun h =>
  match use h.connection with
  | (.ok a, connection) => (.done a, { h with connection })
  | (.error problem, connection) => (.failed (.database problem), { h with connection })

end Attached

namespace Driver

variable {γ π : Type} (d : Driver γ π)

-- An answer as a set of results; for a statement without rows it is the count of the last change,
-- which the statement need not have made itself.
def resultSet (c : γ) (lastRowId : Option Int64) : Answer → ResultSet
  | .rows columns rows =>
    rows.foldl (fun set row => set.addRow (row.map Cell.toValue))
      (ResultSet.empty.setColumns columns)
  | .changed => .affected (d.changes c) lastRowId

def execute (c : γ) (sql : String) (values : List Value) : Except Problem ResultSet × γ :=
  match d.read sql with
  | .error problem => (.error problem, c)
  | .ok statement =>
    match d.run c statement (values.map Value.toCell) with
    | (.ok answer, c) =>
      let id := if 0 < d.changes c ∧ isInsertion sql then some (d.lastRowId c) else none
      (.ok (d.resultSet c id answer), c)
    | (.error problem, c) => (.error problem, c)

def runInScript (c : γ) (statement : π) : Except Problem ResultSet × γ :=
  match d.run c statement [] with
  | (.ok answer, c) => (.ok (d.resultSet c none answer), c)
  | (.error problem, c) => (.error problem, c)

def executeScript (sql : String) : Action (Attached γ) (List ResultSet) :=
  Action.each (fun statement => Attached.onConnection fun c => d.runInScript c statement)
    (d.readAll sql)

-- Runs a text, if a transaction is open: a script may have ended it itself.
def endTransaction (sql : String) (c : γ) : Except Problem Unit × γ :=
  if d.autocommit c then (.ok (), c) else d.runText c sql

def engine : Engine (Attached γ) where
  style _ := .sqlite
  hasTransactions _ := true
  hasScripts _ := true
  reportsRowIds _ := true
  cacheCapacity h := some h.cacheCapacity
  execute sql values := Attached.onConnection fun c => d.execute c sql values
  executeScript := d.executeScript
  lastRowId h :=
    let id := d.lastRowId h.connection
    (.done (if id = 0 then none else some id), h)
  begin := Attached.onConnection fun c => d.runText c "BEGIN"
  commit := Attached.onConnection (d.endTransaction "COMMIT")
  rollback h :=
    match d.endTransaction "ROLLBACK" h.connection with
    | (.ok (), connection) => (.ok (), { h with connection })
    | (.error problem, connection) => (.error (.database problem), { h with connection })

end Driver
end SqlCatalog.Database
