import SqlCatalog.Engine.Action
import SqlCatalog.Operation.Marker
import SqlCatalog.Result.Basic
/-!
What operations need of a database connection, and a record of every call made to one.
-/
namespace SqlCatalog

-- A connection with states of type `σ`. Each call may answer, fail or crash, a rollback only
-- answer or fail.
structure Engine (σ : Type) where
  style : σ → PlaceholderStyle
  hasTransactions : σ → Bool
  hasScripts : σ → Bool
  -- The answer to an insert carries the id of the row.
  reportsRowIds : σ → Bool
  cacheCapacity : σ → Option Nat
  execute : String → List Value → Action σ ResultSet
  executeScript : String → Action σ (List ResultSet)
  lastRowId : Action σ (Option Int64)
  begin : Action σ Unit
  commit : Action σ Unit
  rollback : σ → Except Failure Unit × σ

namespace Engine

def noScript {σ : Type} : Action σ (List ResultSet) := .fail (.execution .scriptsUnsupported)

def noRowId {σ : Type} : Action σ (Option Int64) := .pure none

inductive Call where
  | execute (sql : String) (values : List Value)
  | executeScript (sql : String)
  | lastRowId
  | begin
  | commit
  | rollback

structure Traced (σ : Type) where
  state : σ
  calls : List Call

namespace Traced

variable {σ α : Type}

def record (call : Call) (action : Action σ α) : Action (Traced σ) α := fun t =>
  match action t.state with
  | (outcome, state) => (outcome, ⟨state, t.calls ++ [call]⟩)

end Traced

-- The engine with every call recorded, the failing ones too.
def traced {σ : Type} (e : Engine σ) : Engine (Traced σ) where
  style t := e.style t.state
  hasTransactions t := e.hasTransactions t.state
  hasScripts t := e.hasScripts t.state
  reportsRowIds t := e.reportsRowIds t.state
  cacheCapacity t := e.cacheCapacity t.state
  execute sql values := Traced.record (.execute sql values) (e.execute sql values)
  executeScript sql := Traced.record (.executeScript sql) (e.executeScript sql)
  lastRowId := Traced.record .lastRowId e.lastRowId
  begin := Traced.record .begin e.begin
  commit := Traced.record .commit e.commit
  rollback t :=
    match e.rollback t.state with
    | (result, state) => (result, ⟨state, t.calls ++ [.rollback]⟩)

end Engine
end SqlCatalog
