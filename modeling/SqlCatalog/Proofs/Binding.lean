import Mathlib.Data.List.Basic
import Mathlib.Data.List.Find
import SqlCatalog.Engine.Scripted
import SqlCatalog.Proofs.Running
/-!
Parameters are bound for all statements of an operation before the first is executed. Where a name
of its markers has no value, the first such name is all that a run comes to, and the engine is not
called (`missing_parameter`).
-/
namespace SqlCatalog

open SqlCatalog.Action

variable {σ α : Type}

-- Only later appearances are left out, so what is found first is the same.
theorem find_first_appearances [DecidableEq α] (wanted : α → Bool) (l : List α) :
    (firstAppearances l).find? wanted = l.find? wanted := by
  induction l with
  | nil => rfl
  | cons a rest ih =>
    cases holds : wanted a with
    | true => rw [firstAppearances, List.find?_cons_of_pos holds, List.find?_cons_of_pos holds]
    | false =>
      have unwanted : ¬ wanted a = true := by simp [holds]
      rw [firstAppearances, List.find?_cons_of_neg unwanted, List.find?_cons_of_neg unwanted,
        List.find?_filter, ← ih]
      apply List.find?_congr
      intro b _
      by_cases same : b = a
      · simp [same, holds]
      · simp [same]

namespace Params

theorem get?_insert (p : Params) (name key : String) (value : Value) :
    (p.insert name value).get? key = if bareName key = bareName name then some value else p.get? key :=
  NameMap.get?_insert p.values (bareName name) (bareName key) value

def firstMissing? (p : Params) (names : List String) : Option String :=
  names.find? fun name => (p.get? name).isNone

def boundTo (p : Params) (c : CompiledSql) : Operation.Bound := ⟨c.sql, c.params.filterMap p.get?⟩

theorem first_missing_cons_some (p : Params) (name : String) (names : List String) (value : Value)
    (given : p.get? name = some value) :
    p.firstMissing? (name :: names) = p.firstMissing? names := by
  have present : ¬ (p.get? name).isNone = true := by simp [given]
  exact List.find?_cons_of_neg present

theorem first_missing_cons_none (p : Params) (name : String) (names : List String)
    (missing : p.get? name = none) : p.firstMissing? (name :: names) = some name := by
  have absent : (p.get? name).isNone = true := by simp [missing]
  exact List.find?_cons_of_pos absent

theorem bind_eq (p : Params) (names : List String) :
    p.bind names = match p.firstMissing? names with
      | some name => .error name
      | none => .ok (names.filterMap p.get?) := by
  induction names with
  | nil => rfl
  | cons name names ih =>
    cases given : p.get? name with
    | none => simp only [bind, given, first_missing_cons_none p name names given]
    | some value =>
      simp only [bind, given, first_missing_cons_some p name names value given, ih,
        List.filterMap_cons_some given]
      cases p.firstMissing? names <;> rfl

theorem first_missing_append (p : Params) (names more : List String) :
    p.firstMissing? (names ++ more) = (p.firstMissing? names).or (p.firstMissing? more) :=
  List.find?_append

theorem first_missing_none_iff (p : Params) (names : List String) :
    p.firstMissing? names = none ↔ ∀ name ∈ names, p.get? name ≠ none := by
  simp [firstMissing?, Option.ne_none_iff_isSome]

theorem values_of_bound (p : Params) (names : List String) (given : p.firstMissing? names = none) :
    (names.filterMap p.get?).map some = names.map p.get? := by
  induction names with
  | nil => rfl
  | cons name names ih =>
    cases found : p.get? name with
    | none =>
      rw [first_missing_cons_none p name names found] at given
      cases given
    | some value =>
      rw [first_missing_cons_some p name names value found] at given
      rw [List.filterMap_cons_some found, List.map_cons, List.map_cons, found, ih given]

theorem first_missing_congr (p q : Params) (names : List String)
    (same : ∀ name ∈ names, q.get? name = p.get? name) :
    q.firstMissing? names = p.firstMissing? names := by
  apply List.find?_congr
  intro name member
  rw [same name member]

theorem bound_to_congr (p q : Params) (c : CompiledSql)
    (same : ∀ name ∈ c.params, q.get? name = p.get? name) : q.boundTo c = p.boundTo c := by
  rw [boundTo, boundTo, List.filterMap_congr same]

end Params

namespace Operation

variable (op : Operation) (p : Params)

theorem bind_statement_eq (c : CompiledSql) :
    op.bindStatement p c = match p.firstMissing? c.params with
      | some name => .error (.missingParameter op.name name)
      | none => .ok (p.boundTo c) := by
  rw [bindStatement, Params.bind_eq]
  cases p.firstMissing? c.params <;> rfl

theorem bind_statements_eq (cs : List CompiledSql) :
    op.bindStatements p cs = match p.firstMissing? (cs.flatMap (·.params)) with
      | some name => .error (.missingParameter op.name name)
      | none => .ok (cs.map p.boundTo) := by
  induction cs with
  | nil => rfl
  | cons c cs ih =>
    rw [bindStatements, bind_statement_eq, List.flatMap_cons, Params.first_missing_append]
    cases p.firstMissing? c.params with
    | some name => rfl
    | none =>
      simp only [ih, Option.none_or]
      cases p.firstMissing? (cs.flatMap (·.params)) <;> rfl

theorem first_missing_names :
    p.firstMissing? op.paramNames =
      (p.firstMissing? op.first.params).or (p.firstMissing? (op.others.flatMap (·.params))) := by
  rw [← Params.first_missing_append]
  exact find_first_appearances _ _

theorem run_statements_eq (e : Engine σ) :
    op.runStatements e p = match p.firstMissing? op.paramNames with
      | some name => fail (.missingParameter op.name name)
      | none => op.runBound e (p.boundTo op.first) (op.others.map p.boundTo) := by
  rw [runStatements, bind_statement_eq, bind_statements_eq, first_missing_names]
  cases p.firstMissing? op.first.params with
  | some name => rfl
  | none => cases p.firstMissing? (op.others.flatMap (·.params)) <;> rfl

theorem param_mem_names (c : CompiledSql) (statement : c ∈ op.statements) (name : String)
    (member : name ∈ c.params) : name ∈ op.paramNames :=
  mem_first_appearances.mpr (List.mem_flatMap.mpr ⟨c, statement, member⟩)

theorem run_statements_congr (q : Params) (e : Engine σ)
    (same : ∀ name ∈ op.paramNames, q.get? name = p.get? name) :
    op.runStatements e q = op.runStatements e p := by
  have bound (c : CompiledSql) (statement : c ∈ op.statements) : q.boundTo c = p.boundTo c :=
    Params.bound_to_congr p q c fun name member =>
      same name (op.param_mem_names c statement name member)
  have first : q.boundTo op.first = p.boundTo op.first := bound op.first List.mem_cons_self
  have others : op.others.map q.boundTo = op.others.map p.boundTo :=
    List.map_congr_left fun c member => bound c (List.mem_cons_of_mem _ member)
  rw [run_statements_eq, run_statements_eq, Params.first_missing_congr p q op.paramNames same,
    first, others]

theorem run_for_cases (e : Engine σ) (s : σ) :
    (e.hasScripts s = false ∨ op.script = none) ∧ op.runFor e p s = op.runStatements e p s ∨
      ∃ text, e.hasScripts s = true ∧ op.script = some text ∧
        op.runFor e p s = (e.executeScript text >>= fun sets => pure (.script sets)) s := by
  cases scripts : e.hasScripts s with
  | false => exact .inl ⟨.inl rfl, by simp [runFor, bind_apply, gets, scripts]⟩
  | true =>
    cases whole : op.script with
    | none => exact .inl ⟨.inr rfl, by simp [runFor, bind_apply, gets, scripts, whole]⟩
    | some text => exact .inr ⟨text, rfl, rfl, by simp [runFor, bind_apply, gets, scripts, whole]⟩

theorem run_for_bare (e : Engine σ) (bare : op.script = none) :
    op.runFor e p = op.runStatements e p := by
  funext s
  rcases op.run_for_cases p e s with ⟨-, same⟩ | ⟨text, -, whole, -⟩
  · exact same
  · rw [bare] at whole
    cases whole

end Operation

structure Engine.Avoids (kind : Failure → Prop) (e : Engine σ) : Prop where
  execute : ∀ sql values, Action.Avoids kind (e.execute sql values)
  executeScript : ∀ sql, Action.Avoids kind (e.executeScript sql)
  lastRowId : Action.Avoids kind e.lastRowId

theorem Engine.Traced.record_avoids {kind : Failure → Prop} (call : Engine.Call)
    (action : Action σ α) (avoids : Action.Avoids kind action) :
    Action.Avoids kind (record call action) := by
  intro t failure ended
  exact avoids t.state failure ended

theorem Engine.traced_avoids {kind : Failure → Prop} (e : Engine σ) (avoids : e.Avoids kind) :
    e.traced.Avoids kind where
  execute sql values := Traced.record_avoids _ _ (avoids.execute sql values)
  executeScript sql := Traced.record_avoids _ _ (avoids.executeScript sql)
  lastRowId := Traced.record_avoids _ _ avoids.lastRowId

namespace Operation

section Avoids

variable (op : Operation) (e : Engine σ) {kind : Failure → Prop}

theorem ask_row_id_avoids (avoids : e.Avoids kind)
    (other : ∀ problem, ¬ kind (.execution problem)) : Action.Avoids kind (op.askRowId e) := by
  apply avoids_bind avoids.lastRowId
  intro id
  cases id with
  | none => exact avoids_fail _ (other _)
  | some id => exact avoids_pure id

theorem row_id_avoids (set : ResultSet) (avoids : e.Avoids kind)
    (other : ∀ problem, ¬ kind (.execution problem)) : Action.Avoids kind (op.rowId e set) := by
  apply avoids_bind (avoids_gets e.reportsRowIds)
  intro reports
  cases reports with
  | false => exact op.ask_row_id_avoids e avoids other
  | true =>
    simp only [if_true]
    cases set.lastRowId with
    | some id => exact avoids_pure id
    | none =>
      by_cases unchanged : set.rowsAffected = 0
      · simp only [if_pos unchanged]
        exact avoids_fail _ (other _)
      · simp only [if_neg unchanged]
        exact op.ask_row_id_avoids e avoids other

theorem run_bound_avoids (first : Bound) (others : List Bound) (avoids : e.Avoids kind)
    (other : ∀ problem, ¬ kind (.execution problem)) :
    Action.Avoids kind (op.runBound e first others) := by
  have rest : Action.Avoids kind (executeAll e others) :=
    avoids_each _ others fun bound _ => avoids.execute bound.sql bound.values
  apply avoids_bind (avoids.execute first.sql first.values)
  intro set
  by_cases inserts : op.isInsert
  · simp only [if_pos inserts]
    apply avoids_bind (op.row_id_avoids e set avoids other)
    exact fun id => avoids_bind rest fun _ => avoids_pure _
  · simp only [if_neg inserts]
    exact avoids_bind rest fun _ => avoids_pure _

end Avoids

-- A script in one piece has no markers, so nothing is missing where one is run.
theorem run_for_missing (op : Operation) (e : Engine σ) (p : Params) (parameter : String)
    (missing : p.firstMissing? op.paramNames = some parameter) :
    op.runFor e p = fail (.missingParameter op.name parameter) := by
  have stops : op.runStatements e p = fail (.missingParameter op.name parameter) := by
    rw [run_statements_eq, missing]
  funext s
  change (gets e.hasScripts >>= _) s = _
  rw [bind_apply]
  cases scripts : e.hasScripts s with
  | false => simp only [gets, scripts, stops]
  | true =>
    cases whole : op.script with
    | none => simp only [gets, scripts, stops]
    | some text =>
      have named := List.mem_of_find?_eq_some missing
      obtain ⟨c, statement, member⟩ := List.mem_flatMap.mp (mem_first_appearances.mp named)
      rw [op.script_bare (by simp [whole]) c statement] at member
      cases member

theorem run_for_avoids (op : Operation) (e : Engine σ) (p : Params) {kind : Failure → Prop}
    (avoids : e.Avoids kind) (other : ∀ problem, ¬ kind (.execution problem))
    (given : p.firstMissing? op.paramNames = none) : Action.Avoids kind (op.runFor e p) := by
  have plain : Action.Avoids kind (op.runStatements e p) := by
    rw [run_statements_eq, given]
    exact op.run_bound_avoids e _ _ avoids other
  apply avoids_bind (avoids_gets e.hasScripts)
  intro native
  cases native with
  | false => exact plain
  | true =>
    cases op.script with
    | none => exact plain
    | some text => exact avoids_bind (avoids.executeScript text) fun sets => avoids_pure _

theorem run_for_congr (op : Operation) (e : Engine σ) (p q : Params)
    (same : ∀ name ∈ op.paramNames, q.get? name = p.get? name) :
    op.runFor e q = op.runFor e p := by
  unfold runFor
  rw [op.run_statements_congr p q e same]

-- One run, for an engine that has no errors of missing parameters itself. There is such an error just
-- if a name has no value; it tells the first such name over all statements, and neither the state nor
-- the calls have changed. Other names do not matter.
theorem missing_parameter (op : Operation) (e : Engine σ) (p : Params) (t : Engine.Traced σ)
    (own : e.Avoids fun failure => ∃ operation parameter,
      failure = .missingParameter operation parameter) :
    ((∃ operation parameter, (op.run e.traced (.single p) t).1 =
        .failed (.missingParameter operation parameter)) ↔
      ∃ name ∈ op.paramNames, p.get? name = none) ∧
    (∀ before parameter after, op.paramNames = before ++ parameter :: after →
      (∀ name ∈ before, p.get? name ≠ none) → p.get? parameter = none →
      op.run e.traced (.single p) t = (.failed (.missingParameter op.name parameter), t)) ∧
    ∀ q, (∀ name ∈ op.paramNames, q.get? name = p.get? name) →
      op.run e.traced (.single q) t = op.run e.traced (.single p) t := by
  have stops (parameter : String) (missing : p.firstMissing? op.paramNames = some parameter) :
      op.run e.traced (.single p) t = (.failed (.missingParameter op.name parameter), t) := by
    rw [run, op.run_for_missing e.traced p parameter missing, fail]
  refine ⟨⟨?_, ?_⟩, ?_, ?_⟩
  · rintro ⟨operation, parameter, ended⟩
    by_contra complete
    have given : p.firstMissing? op.paramNames = none := by
      rw [Params.first_missing_none_iff]
      exact fun name member absent => complete ⟨name, member, absent⟩
    have avoids := op.run_for_avoids e.traced p (e.traced_avoids own) (by simp) given
    exact avoids t _ ended ⟨operation, parameter, rfl⟩
  · rintro ⟨name, member, absent⟩
    cases missing : p.firstMissing? op.paramNames with
    | none => exact absurd absent ((p.first_missing_none_iff _).mp missing name member)
    | some parameter => exact ⟨op.name, parameter, by rw [stops parameter missing]⟩
  · intro before parameter after split given absent
    apply stops
    apply List.find?_eq_some_iff_append.mpr
    refine ⟨by simp [absent], before, after, split, ?_⟩
    intro name member
    simpa [Option.ne_none_iff_isSome] using given name member
  · intro q same
    rw [run, run, op.run_for_congr e.traced p q same]

end Operation

namespace Scripted

theorem failing_avoids {kind : Failure → Prop} (driver : ∀ text, ¬ kind (.driver text))
    (text : Option String) (action : Action State α) (avoids : Action.Avoids kind action) :
    Action.Avoids kind (failing text action) := by
  cases text with
  | none => exact avoids
  | some text => exact avoids_fail _ (driver text)

theorem engine_avoids {kind : Failure → Prop} (driver : ∀ text, ¬ kind (.driver text))
    (other : ∀ problem, ¬ kind (.execution problem)) : engine.Avoids kind where
  execute sql values := by
    intro s failure ended
    change (execute sql values s).1 = _ at ended
    rcases replied : reply sql s.behaviour.replies s.used with ⟨answer, used⟩
    simp only [execute, replied] at ended
    cases answer <;> cases ended
    exact driver _
  executeScript sql := by
    intro s failure ended
    refine failing_avoids driver s.behaviour.scriptError _ ?_ s failure ended
    cases s.behaviour.script with
    | none => exact avoids_fail _ (other _)
    | some sets => exact avoids_pure sets
  lastRowId := by
    intro s failure ended
    refine failing_avoids driver s.behaviour.rowIdError _ ?_ s failure ended
    cases s.behaviour.rowIds <;> exact avoids_pure _

end Scripted

def silent : Scripted.Behaviour where
  style := .sqlite
  hasTransactions := false
  hasScripts := true
  reportsRowIds := false
  cacheCapacity := none
  beginError := none
  commitError := none
  rollbackError := none
  rowIdError := none
  scriptError := none
  script := none
  rowIds := .none
  replies := []

namespace Operation

def transfer : Operation where
  name := "transfer"
  category := .script
  style := .sqlite
  first := ⟨"UPDATE t SET v = ?1", ["amount"]⟩
  others := [⟨"UPDATE t SET v = ?1 WHERE id = ?2", ["amount", "target"]⟩]
  script := none
  script_bare := by simp

theorem missing_parameter_transfer :
    let p := Params.empty.insert "amount" (.int 5)
    let e := Scripted.engine.traced
    let t : Engine.Traced Scripted.State := ⟨Scripted.start silent, []⟩
    (∀ name ∈ ["amount"], p.get? name ≠ none) ∧ p.get? "target" = none ∧
    transfer.run e (.single p) t = (.failed (.missingParameter "transfer" "target"), t) ∧
    transfer.run e (.single (p.insert "unused" (.int 6))) t = transfer.run e (.single p) t := by
  intro p e t
  have given : ∀ name ∈ ["amount"], p.get? name ≠ none := by decide
  have absent : p.get? "target" = none := by decide
  have names : transfer.paramNames = ["amount"] ++ "target" :: [] := by decide
  obtain ⟨-, first, others⟩ := missing_parameter transfer Scripted.engine p t
    (Scripted.engine_avoids (by simp) (by simp))
  refine ⟨given, absent, first _ _ _ names given absent, others _ ?_⟩
  intro name member
  have different : Params.bareName name ≠ Params.bareName "unused" := by
    rw [names] at member
    revert name
    decide
  rw [Params.get?_insert, if_neg different]

end Operation
end SqlCatalog
