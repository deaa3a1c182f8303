import SqlCatalog.Database.Command
import SqlCatalog.Database.Driver
/-!
A connection to a database: its contents, the contents to go back to while a transaction is open,
the last row id and the count of the last change. A command that fails changes no contents, but the
ids of rows that it inserted before it failed have been the last.
-/
namespace SqlCatalog.Database

structure Table where
  keyName : String
  valueName : String
  rows : List (Int64 × Cell)

structure Contents where
  table : Option Table
  other : Bool

structure Connection where
  contents : Contents
  saved : Option Contents
  lastRowId : Int64
  changes : Nat

namespace Contents

def empty : Contents := ⟨none, false⟩

end Contents

namespace Connection

def start : Connection := ⟨.empty, none, 0, 0⟩

def autocommit (c : Connection) : Bool := c.saved.isNone

def putRow (id : Int64) (value : Cell) : List (Int64 × Cell) → List (Int64 × Cell)
  | [] => [(id, value)]
  | (i, v) :: rest =>
    if id < i then (id, value) :: (i, v) :: rest
    else if id = i then (id, value) :: rest
    else (i, v) :: putRow id value rest

def freeId (id : Int64) : List (Int64 × Cell) → Int64
  | [] => id
  | row :: rows => freeId (if row.1 = id then id + 1 else id) rows

-- The id that a row gets without asking for one: the one behind the largest, or any free one where
-- there is none behind it.
def freshId (rows : List (Int64 × Cell)) : Int64 :=
  match rows.getLast? with
  | none => 1
  | some (id, _) => if id = Int64.maxValue then freeId 0x4000000000000000 rows else id + 1

structure Insertion where
  rows : List (Int64 × Cell)
  ids : List Int64

def insertRow (conflict : Conflict) (parameters : List Cell) (done : Insertion) (row : NewRow) :
    Except Problem Insertion :=
  let value := row.value.cell parameters none
  let put (id : Int64) : Except Problem Insertion :=
    .ok ⟨putRow id value done.rows, done.ids ++ [id]⟩
  match row.key.elim .null fun key => key.cell parameters none with
  | .null => put (freshId done.rows)
  | key =>
    match key.whole? with
    | none => .error .notWhole
    | some id =>
      if (done.rows.lookup id).isSome then
        match conflict with
        | .fail => .error .keyTaken
        | .ignore => .ok done
        | .replace => put id
      else put id

def insertRows (conflict : Conflict) (parameters : List Cell) (done : Insertion) :
    List NewRow → Option Problem × Insertion
  | [] => (none, done)
  | row :: rows =>
    match insertRow conflict parameters done row with
    | .ok done => insertRows conflict parameters done rows
    | .error problem => (some problem, done)

def picks (parameters : List Cell) (key : Option Operand) (row : Int64 × Cell) : Bool :=
  match key with
  | none => true
  | some key => (key.cell parameters (some row)).whole? == some row.1

def withRows (c : Connection) (rows : List (Int64 × Cell)) (changes : Nat) : Connection :=
  let table := c.contents.table.map fun table => { table with rows }
  { c with contents := { c.contents with table }, changes }

def table? (c : Connection) : Except Problem Table :=
  match c.contents.table with
  | some table => .ok table
  | none => .error (.noSuchTable "t")

def check (c : Connection) (s : Command) : Except Problem Unit :=
  match s with
  | .createTable _ _ => if c.contents.table.isSome then .error (.tableExists "t") else .ok ()
  | .createOther => if c.contents.other then .error (.tableExists "u") else .ok ()
  | .insert _ _ _ | .update _ _ | .delete _ => c.table?.map fun _ => ()
  | .select selection =>
    match selection.source with
    | .nowhere => .ok ()
    | .table _ => c.table?.map fun _ => ()
  | .begin | .commit | .rollback => .ok ()

def termCell (parameters : List Cell) (count : Nat) (row : Option (Int64 × Cell)) : Term → Cell
  | .operand operand => operand.cell parameters row
  | .count => .integer (Int64.ofNat count)

def limited {α : Type} (limit : Option Cell) (rows : List α) : Except Problem (List α) :=
  match limit with
  | none => .ok rows
  | some cell =>
    match cell.whole? with
    | none => .error .notWhole
    | some n => .ok (if n < 0 then rows else rows.take n.toNatClampNeg)

def select (table : Table) (s : Selection) (parameters : List Cell) : Except Problem Answer := do
  let rows : List (Option (Int64 × Cell)) :=
    match s.source with
    | .nowhere => [none]
    | .table key => (table.rows.filter (picks parameters key)).map some
  let counts := s.items.any fun item => item.term matches .count
  let cells (row : Option (Int64 × Cell)) : List Cell :=
    s.items.map fun item => termCell parameters rows.length row item.term
  let selected := if counts then [cells none] else rows.map cells
  let labels := s.items.map fun item =>
    item.label.getD (if item.term matches .operand (.column .key) then table.keyName
      else table.valueName)
  let limit := s.limit.map fun limit => limit.cell parameters none
  return .rows labels (← limited limit selected)

def run (c : Connection) (s : Command) (parameters : List Cell) :
    Except Problem Answer × Connection :=
  let table := c.contents.table.getD ⟨"id", "v", []⟩
  match s with
  | .createTable keyName valueName =>
    let table : Table := ⟨keyName, valueName, []⟩
    (.ok .changed, { c with contents := { c.contents with table := some table } })
  | .createOther => (.ok .changed, { c with contents := { c.contents with other := true } })
  | .insert conflict new returning =>
    let (problem?, done) := insertRows conflict parameters ⟨table.rows, []⟩ new
    let c := { c with lastRowId := done.ids.getLast?.getD c.lastRowId }
    match problem? with
    | some problem => (.error problem, { c with changes := 0 })
    | none =>
      let after := c.withRows done.rows done.ids.length
      if returning then
        (.ok (.rows [table.keyName] (done.ids.map fun id => [.integer id])), after)
      else (.ok .changed, after)
  | .update value key =>
    let after := table.rows.map fun row =>
      if picks parameters key row then (row.1, value.cell parameters (some row)) else row
    (.ok .changed, c.withRows after (table.rows.countP (picks parameters key)))
  | .delete key =>
    let after := table.rows.filter fun row => !picks parameters key row
    (.ok .changed, c.withRows after (table.rows.length - after.length))
  | .select selection => (select table selection parameters, c)
  | .begin =>
    if c.autocommit then (.ok .changed, { c with saved := some c.contents })
    else (.error .alreadyInTransaction, c)
  | .commit =>
    if c.autocommit then (.error .noTransactionToCommit, c)
    else (.ok .changed, { c with saved := none })
  | .rollback =>
    match c.saved with
    | none => (.error .noTransactionToRollBack, c)
    | some contents => (.ok .changed, { c with contents, saved := none })

-- Prepares a statement and runs it. Where values are given, they have to be as many as its
-- parameters.
def runStatement (c : Connection) (ls : List Lexeme) (parameters : Option (List Cell)) :
    Except Problem Answer × Connection :=
  match Command.ofLexemes? ls with
  | none => (.error (.malformed (Lexeme.source ls)), c)
  | some s =>
    match c.check s with
    | .error problem => (.error problem, c)
    | .ok () =>
      let given := (parameters.map List.length).getD s.parameterCount
      if given = s.parameterCount then c.run s (parameters.getD [])
      else (.error (.wrongParameterCount given s.parameterCount), c)

def trimmed (cs : List Char) : List Char :=
  ((cs.dropWhile Text.isBlank).reverse.dropWhile Text.isBlank).reverse

def onlyStatement (sql : String) : Except Problem (List Lexeme) :=
  match statements (trimmed sql.toList) with
  | [] => .error .emptyStatement
  | [statement] => .ok statement
  | _ => .error (.malformed sql)

def runEach (c : Connection) : List (List Lexeme) → Except Problem Unit × Connection
  | [] => (.ok (), c)
  | statement :: rest =>
    match c.runStatement statement none with
    | (.error problem, c) => (.error problem, c)
    | (.ok _, c) => c.runEach rest

def driver : Driver Connection (List Lexeme) where
  read := onlyStatement
  readAll sql := statements sql.toList
  run c statement parameters := c.runStatement statement (some parameters)
  runText c sql := c.runEach (statements sql.toList)
  autocommit := autocommit
  lastRowId := lastRowId
  changes := changes

end Connection
end SqlCatalog.Database
