import SqlCatalog.Engine.Basic
/-!
An engine that has no database: its answers are laid down beforehand. Statements are answered by the
first reply that fits their text and is not used up.
-/
namespace SqlCatalog

namespace Scripted

inductive Answer where
  | set (set : ResultSet)
  | error (text : String)
  | crash (text : String)

structure Reply where
  contains : String
  times : Option Nat
  answer : Answer

inductive RowIds where
  | none
  | always (id : Int64)
  | counted

structure Behaviour where
  style : PlaceholderStyle
  hasTransactions : Bool
  hasScripts : Bool
  reportsRowIds : Bool
  cacheCapacity : Option Nat
  beginError : Option String
  commitError : Option String
  rollbackError : Option String
  rowIdError : Option String
  scriptError : Option String
  script : Option (List ResultSet)
  rowIds : RowIds
  replies : List Reply

structure State where
  behaviour : Behaviour
  used : List Nat
  inserts : Nat

def start (behaviour : Behaviour) : State := ⟨behaviour, behaviour.replies.map fun _ => 0, 0⟩

def occurs (pattern : List Char) : List Char → Bool
  | [] => pattern.isEmpty
  | c :: cs => pattern.isPrefixOf (c :: cs) || occurs pattern cs

-- The answer of the first reply that fits, and the uses after it.
def reply (sql : String) : List Reply → List Nat → Answer × List Nat
  | r :: rs, n :: used =>
    if occurs r.contains.toList sql.toList && r.times.all (n < ·) then (r.answer, (n + 1) :: used)
    else
      let (answer, used) := reply sql rs used
      (answer, n :: used)
  | _, used => (.set (.affected 0 none), used)

def execute (sql : String) (_ : List Value) : Action State ResultSet := fun s =>
  let inserts := if sql.startsWith "INSERT" then s.inserts + 1 else s.inserts
  let (answer, used) := reply sql s.behaviour.replies s.used
  let s := { s with used, inserts }
  match answer with
  | .set set => (.done set, s)
  | .error text => (.failed (.driver text), s)
  | .crash text => (.crashed text, s)

def failing {α : Type} (text : Option String) (action : Action State α) : Action State α :=
  match text with
  | some text => .fail (.driver text)
  | none => action

def executeScript (_ : String) : Action State (List ResultSet) := fun s =>
  failing s.behaviour.scriptError
    (match s.behaviour.script with
    | some sets => .pure sets
    | none => Engine.noScript) s

def lastRowId : Action State (Option Int64) := fun s =>
  failing s.behaviour.rowIdError
    (match s.behaviour.rowIds with
    | .none => Engine.noRowId
    | .always id => .pure (some id)
    | .counted => .pure (some (Int64.ofNat s.inserts))) s

def engine : Engine State where
  style s := s.behaviour.style
  hasTransactions s := s.behaviour.hasTransactions
  hasScripts s := s.behaviour.hasScripts
  reportsRowIds s := s.behaviour.reportsRowIds
  cacheCapacity s := s.behaviour.cacheCapacity
  execute := execute
  executeScript := executeScript
  lastRowId := lastRowId
  begin s := failing s.behaviour.beginError (.pure ()) s
  commit s := failing s.behaviour.commitError (.pure ()) s
  rollback s :=
    match s.behaviour.rollbackError with
    | some text => (.error (.driver text), s)
    | none => (.ok (), s)

end Scripted
end SqlCatalog
