import Mathlib
import SqlCatalog.Database.Engine
import SqlCatalog.Proofs.Running
/-!
A script in one piece and its statements one by one. The database does the same either way, and the
answers differ in one thing only: what is inserted by a script in one piece has no row id
(`script_agrees_iff`).
-/
namespace SqlCatalog

namespace ResultSet

def withoutRowId (set : ResultSet) : ResultSet := { set with lastRowId := none }

theorem without_row_id_eq_iff (set : ResultSet) : set.withoutRowId = set ↔ set.lastRowId = none := by
  cases set with
  | mk columns rows rowsAffected lastRowId =>
    simp only [withoutRowId, mk.injEq, true_and]
    exact eq_comm

theorem without_row_ids_eq_iff (sets : List ResultSet) :
    sets.map withoutRowId = sets ↔ ∀ set ∈ sets, set.lastRowId = none := by
  induction sets with
  | nil => simp
  | cons set rest ih =>
    rw [List.map_cons, List.cons.injEq, ih, without_row_id_eq_iff]
    simp

theorem add_rows_columns (rows : List (List Value)) (set : ResultSet) (named : set.columns.isSome) :
    (rows.foldl addRow set).columns.isSome := by
  induction rows generalizing set with
  | nil => exact named
  | cons row rest ih => exact ih (set.addRow row) rfl

theorem add_rows_row_id (rows : List (List Value)) (set : ResultSet) :
    (rows.foldl addRow set).lastRowId = set.lastRowId := by
  induction rows generalizing set with
  | nil => rfl
  | cons row rest ih => exact ih (set.addRow row)

end ResultSet

namespace Database.Driver

open SqlCatalog.Action Operation ResultSet

variable {γ π : Type} (d : Driver γ π)

def Splits (script : String) (sqls : List String) : Prop :=
  sqls.map d.read = (d.readAll script).map .ok

def recorded : Driver (γ × List π) π where
  read := d.read
  readAll := d.readAll
  run c statement parameters :=
    match d.run c.1 statement parameters with
    | (result, after) => (result, after, c.2 ++ [statement])
  runText c sql :=
    match d.runText c.1 sql with
    | (result, after) => (result, after, c.2)
  autocommit c := d.autocommit c.1
  lastRowId c := d.lastRowId c.1
  changes c := d.changes c.1

def unbound (sqls : List String) : List Bound := sqls.map fun sql => ⟨sql, []⟩

theorem result_set_rows (c : γ) (id : Option Int64) (columns : List String)
    (rows : List (List Cell)) :
    d.resultSet c id (.rows columns rows) =
      (rows.map fun row => row.map Cell.toValue).foldl addRow (empty.setColumns columns) := by
  simp only [resultSet, List.foldl_map]

theorem result_set_without_row_id (c : γ) (id : Option Int64) (answer : Answer) :
    (d.resultSet c id answer).withoutRowId = d.resultSet c none answer := by
  cases answer with
  | rows columns rows =>
    rw [result_set_rows, result_set_rows, without_row_id_eq_iff, add_rows_row_id]
    rfl
  | changed => rfl

theorem result_set_row_id (c : γ) (id : Option Int64) (answer : Answer) :
    (d.resultSet c id answer).lastRowId = none ↔
      ((d.resultSet c id answer).columns = none → id = none) := by
  cases answer with
  | rows columns rows =>
    have named : (d.resultSet c id (.rows columns rows)).columns.isSome := by
      rw [result_set_rows]
      exact add_rows_columns _ _ rfl
    rw [result_set_rows] at named ⊢
    rw [add_rows_row_id]
    exact ⟨fun _ none => by simp [none] at named, fun _ => rfl⟩
  | changed => exact ⟨fun absent _ => absent, fun absent => absent rfl⟩

theorem run_in_script (sql : String) (statement : π) (reads : d.read sql = .ok statement) :
    (Attached.onConnection fun c => d.runInScript c statement) =
      (d.engine.execute sql []).mapped withoutRowId := by
  funext h
  rcases ran : d.run h.connection statement [] with ⟨result, after⟩
  cases result with
  | ok answer =>
    simp only [Attached.onConnection, runInScript, ran, mapped, engine, execute, reads,
      List.map_nil, Outcome.map, result_set_without_row_id]
  | error problem =>
    simp only [Attached.onConnection, runInScript, ran, mapped, engine, execute, reads,
      List.map_nil, Outcome.map]

theorem execute_row_id (c after : γ) (sql : String) (values : List Value) (set : ResultSet)
    (ran : d.execute c sql values = (.ok set, after)) :
    set.lastRowId = none ↔ (isInsertion sql = true → set.columns = none → set.rowsAffected = 0) := by
  cases reads : d.read sql with
  | error problem => simp [execute, reads] at ran
  | ok statement =>
    rcases answered : d.run c statement (values.map Value.toCell) with ⟨result, next⟩
    cases result with
    | error problem => simp [execute, reads, answered] at ran
    | ok answer =>
      simp only [execute, reads, answered, Prod.mk.injEq, Except.ok.injEq] at ran
      obtain ⟨rfl, rfl⟩ := ran
      rw [result_set_row_id]
      cases answer with
      | rows columns rows =>
        have named := add_rows_columns (rows.map fun row => row.map Cell.toValue)
          (empty.setColumns columns) rfl
        rw [result_set_rows]
        exact ⟨fun _ _ none => by simp [none] at named, fun _ none => by simp [none] at named⟩
      | changed =>
        by_cases inserts : isInsertion sql
        · by_cases changes : d.changes next = 0
          · simp [resultSet, affected, changes]
          · simp [resultSet, affected, inserts, changes, Nat.pos_of_ne_zero changes]
        · simp [inserts]

-- The induction is on the texts; what is read in each is the statement at its place in the script.
theorem run_each_in_script (sqls : List String) (statements : List π)
    (same : sqls.map d.read = statements.map .ok) :
    each (fun statement => Attached.onConnection fun c => d.runInScript c statement) statements =
      each (fun sql => (d.engine.execute sql []).mapped withoutRowId) sqls := by
  induction sqls generalizing statements with
  | nil =>
    cases statements with
    | nil => rfl
    | cons statement rest => cases same
  | cons sql sqls ih =>
    cases statements with
    | nil => cases same
    | cons statement statements =>
      simp only [List.map_cons, List.cons.injEq] at same
      simp only [each, run_in_script d sql statement same.1, ih statements same.2]

theorem execute_all_unbound (sqls : List String) :
    executeAll d.engine (unbound sqls) = each (fun sql => d.engine.execute sql []) sqls := by
  induction sqls with
  | nil => rfl
  | cons sql rest ih =>
    rw [executeAll] at ih
    simp only [executeAll, unbound, List.map_cons, each] at ih ⊢
    rw [ih]

theorem execute_script_eq (script : String) (sqls : List String) (splits : d.Splits script sqls) :
    d.engine.executeScript script =
      (executeAll d.engine (unbound sqls)).mapped (List.map withoutRowId) := by
  rw [execute_all_unbound, ← each_mapped]
  exact run_each_in_script d sqls (d.readAll script) splits

theorem execute_all_row_ids (sqls : List String) (h after : Attached γ) (sets : List ResultSet)
    (ran : executeAll d.engine (unbound sqls) h = (.done sets, after)) :
    (∀ set ∈ sets, set.lastRowId = none) ↔
      ∀ answered ∈ sqls.zip sets, isInsertion answered.1 = true → answered.2.columns = none →
        answered.2.rowsAffected = 0 := by
  induction sqls generalizing h sets with
  | nil =>
    cases ran
    simp
  | cons sql sqls ih =>
    obtain ⟨set, rest, between, rfl, head, tail⟩ := each_done_cons _ ran
    have first : set.lastRowId = none ↔
        (isInsertion sql = true → set.columns = none → set.rowsAffected = 0) := by
      rcases executed : d.execute h.connection sql [] with ⟨result, next⟩
      simp only [engine, Attached.onConnection, executed] at head
      cases result with
      | error problem => cases head
      | ok answer =>
        cases head
        exact execute_row_id d h.connection next sql [] set executed
    simp only [List.zip_cons_cons, List.forall_mem_cons, first, ih between rest tail]

theorem run_for_script (op : Operation) (script : String) (whole : op.script = some script)
    (p : Params) : op.runFor d.engine p = (d.engine.executeScript script).mapped .script := by
  funext h
  have native : d.engine.hasScripts h = true := rfl
  change (gets d.engine.hasScripts >>= _) h = _
  simp only [bind_apply, gets, native, whole, mapped]
  rcases d.engine.executeScript script h with ⟨outcome, after⟩
  cases outcome <;> rfl

-- An operation with a script is run in one piece. The database is left as it is by the statements
-- one by one, they fail where those fail, having run the same statements up to there, and answer the
-- same but for the row ids. So the answers agree just if no statement that begins with INSERT or
-- REPLACE and returns no columns has affected rows.
theorem script_agrees_iff (op : Operation) (script : String) (whole : op.script = some script)
    (splits : d.Splits script (op.statements.map (·.sql))) (p : Params) (h : Attached γ) :
    let sqls := op.statements.map (·.sql)
    op.runFor d.engine p h = ((d.engine.executeScript script).mapped .script) h ∧
    d.engine.executeScript script h =
      ((executeAll d.engine (unbound sqls)).mapped (List.map withoutRowId)) h ∧
    (∀ seen, (d.recorded.engine.executeScript script ⟨(h.connection, seen), h.cacheCapacity⟩).2 =
      (executeAll d.recorded.engine (unbound sqls) ⟨(h.connection, seen), h.cacheCapacity⟩).2) ∧
    (d.engine.executeScript script h = executeAll d.engine (unbound sqls) h ↔
      ∀ sets after, executeAll d.engine (unbound sqls) h = (.done sets, after) →
        ∀ answered ∈ sqls.zip sets, isInsertion answered.1 = true →
          answered.2.columns = none → answered.2.rowsAffected = 0) := by
  intro sqls
  have same := execute_script_eq d script sqls splits
  have sameRecorded := execute_script_eq d.recorded script sqls splits
  refine ⟨by rw [run_for_script d op script whole p], by rw [same], ?_, ?_⟩
  · intro seen
    rw [sameRecorded]
    rfl
  · rw [same]
    rcases ran : executeAll d.engine (unbound sqls) h with ⟨outcome, last⟩
    simp only [mapped, ran]
    cases outcome with
    | done sets =>
      simp only [Outcome.map, Prod.mk.injEq, Outcome.done.injEq, and_true]
      rw [without_row_ids_eq_iff, execute_all_row_ids d sqls h last sets ran]
      constructor
      · rintro none sets' after ⟨rfl, rfl⟩
        exact none
      · intro none
        exact none sets last ⟨rfl, rfl⟩
    | failed failure => simp [Outcome.map]
    | crashed text => simp [Outcome.map]

end Database.Driver

namespace Database.Connection

open Driver Operation

def withTable : Connection := { start with contents := ⟨some ⟨"id", "v", []⟩, false⟩ }

def refill : Operation where
  name := "refill"
  category := .script
  style := .sqlite
  first := ⟨"DELETE FROM t", []⟩
  others := [⟨"INSERT INTO t (v) VALUES (7)", []⟩]
  script := some "DELETE FROM t;\nINSERT INTO t (v) VALUES (7);"
  script_bare := by simp

theorem refill_splits : driver.Splits "DELETE FROM t;\nINSERT INTO t (v) VALUES (7);"
    (refill.statements.map (·.sql)) := by
  cbv

theorem script_agrees_iff_refill :
    refill.script = some "DELETE FROM t;\nINSERT INTO t (v) VALUES (7);" ∧
    driver.Splits "DELETE FROM t;\nINSERT INTO t (v) VALUES (7);" (refill.statements.map (·.sql)) ∧
    driver.engine.executeScript "DELETE FROM t;\nINSERT INTO t (v) VALUES (7);" ⟨withTable, 100⟩ =
      ((executeAll driver.engine (unbound (refill.statements.map (·.sql)))).mapped
        (List.map ResultSet.withoutRowId)) ⟨withTable, 100⟩ :=
  ⟨rfl, refill_splits,
    (script_agrees_iff driver refill _ rfl refill_splits .empty ⟨withTable, 100⟩).2.1⟩

def rowIds : Outcome (List ResultSet) → List (Option Int64)
  | .done sets => sets.map (·.lastRowId)
  | .failed _ => []
  | .crashed _ => []

theorem refill_loses_row_id :
    driver.engine.executeScript "DELETE FROM t;\nINSERT INTO t (v) VALUES (7);" ⟨withTable, 100⟩ ≠
      executeAll driver.engine (unbound (refill.statements.map (·.sql))) ⟨withTable, 100⟩ := by
  have native : rowIds (driver.engine.executeScript
      "DELETE FROM t;\nINSERT INTO t (v) VALUES (7);" ⟨withTable, 100⟩).1 = [none, none] := by
    cbv
  have plain : rowIds (executeAll driver.engine
      (unbound (refill.statements.map (·.sql))) ⟨withTable, 100⟩).1 = [none, some 1] := by
    cbv
  intro same
  rw [same, plain] at native
  exact absurd native (by decide)

end Database.Connection
end SqlCatalog
