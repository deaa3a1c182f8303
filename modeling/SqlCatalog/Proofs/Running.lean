import SqlCatalog.Operation.Run
import SqlCatalog.Proofs.Action
/-!
What running an operation comes to: every statement of every element of the arguments, bound first
and then executed in order (`run_done`), whether or not scripts go to the engine in one piece. What
each call to the engine keeps, the whole run keeps (`run_leads`).
-/
namespace SqlCatalog

variable {σ : Type}

-- The sets of parameters that an operation is run for, in order.
def Arguments.elements : Arguments → List Params
  | .single p => [p]
  | .batch all => all

namespace Operation

open SqlCatalog.Action

-- The statements of all elements, each with its values, in the order of their execution.
def boundFor (op : Operation) : List Params → Except Failure (List Bound)
  | [] => .ok []
  | p :: ps =>
    match op.bindStatements p op.statements with
    | .error failure => .error failure
    | .ok bound => (op.boundFor ps).map (bound ++ ·)

theorem bind_statement_sql (op : Operation) (p : Params) (c : CompiledSql) (bound : Bound)
    (binds : op.bindStatement p c = .ok bound) : bound.sql = c.sql := by
  unfold bindStatement at binds
  cases values : p.bind c.params with
  | error parameter => simp [values] at binds
  | ok values' =>
    simp only [values, Except.ok.injEq] at binds
    rw [← binds]

theorem bind_statements_cons (op : Operation) (p : Params) (c : CompiledSql) (cs : List CompiledSql)
    (first : Bound) (others : List Bound) (head : op.bindStatement p c = .ok first)
    (tail : op.bindStatements p cs = .ok others) :
    op.bindStatements p (c :: cs) = .ok (first :: others) := by
  simp only [bindStatements, head, tail, Except.map]

theorem bind_statements_sql (op : Operation) (p : Params) (cs : List CompiledSql)
    (bounds : List Bound) (binds : op.bindStatements p cs = .ok bounds) :
    bounds.map (·.sql) = cs.map (·.sql) := by
  induction cs generalizing bounds with
  | nil =>
    cases binds
    rfl
  | cons c rest ih =>
    cases head : op.bindStatement p c with
    | error failure => simp [bindStatements, head] at binds
    | ok first =>
      cases tail : op.bindStatements p rest with
      | error failure => simp [bindStatements, head, tail, Except.map] at binds
      | ok others =>
        rw [bind_statements_cons op p c rest first others head tail, Except.ok.injEq] at binds
        rw [← binds, List.map_cons, List.map_cons, ih others tail,
          bind_statement_sql op p c first head]

theorem bound_for_cons (op : Operation) (p : Params) (ps : List Params) (bound rest : List Bound)
    (head : op.bindStatements p op.statements = .ok bound) (tail : op.boundFor ps = .ok rest) :
    op.boundFor (p :: ps) = .ok (bound ++ rest) := by
  simp only [boundFor, head, tail, Except.map]

section Leads

variable (op : Operation) (e : Engine σ) {before broken : σ → Prop}

theorem ask_row_id_leads (breaks : ∀ s, before s → broken s)
    (asks : Leads before e.lastRowId (fun _ => before) broken) :
    Leads before (op.askRowId e) (fun _ => before) broken := by
  refine leads_bind asks fun id => ?_
  cases id with
  | none => exact leads_fail _ breaks
  | some id => exact leads_pure id fun _ holds => holds

theorem row_id_leads (set : ResultSet) (breaks : ∀ s, before s → broken s)
    (asks : Leads before e.lastRowId (fun _ => before) broken) :
    Leads before (op.rowId e set) (fun _ => before) broken := by
  refine leads_bind (leads_gets e.reportsRowIds) fun reports => ?_
  cases reports with
  | false => exact ask_row_id_leads op e breaks asks
  | true =>
    cases carried : set.lastRowId with
    | some id =>
      simp only [if_true]
      exact leads_pure id fun _ holds => holds
    | none =>
      simp only [if_true]
      by_cases unchanged : set.rowsAffected = 0
      · rw [if_pos unchanged]
        exact leads_fail _ breaks
      · rw [if_neg unchanged]
        exact ask_row_id_leads op e breaks asks

theorem execute_all_leads (bounds : List Bound)
    (executes : ∀ bound ∈ bounds,
      Leads before (e.execute bound.sql bound.values) (fun _ => before) broken) :
    Leads before (executeAll e bounds) (fun _ => before) broken :=
  leads_each _ bounds executes

theorem run_bound_leads (first : Bound) (others : List Bound) (breaks : ∀ s, before s → broken s)
    (executes : ∀ bound ∈ first :: others,
      Leads before (e.execute bound.sql bound.values) (fun _ => before) broken)
    (asks : Leads before e.lastRowId (fun _ => before) broken) :
    Leads before (op.runBound e first others) (fun _ => before) broken := by
  have rest : Leads before (executeAll e others) (fun _ => before) broken :=
    execute_all_leads e others fun bound member => executes bound (by simp [member])
  refine leads_bind (executes first (by simp)) fun set => ?_
  by_cases inserts : op.isInsert
  · rw [if_pos inserts]
    refine leads_bind (row_id_leads op e set breaks asks) fun id => ?_
    exact leads_bind rest fun _ => leads_pure _ fun _ holds => holds
  · rw [if_neg inserts]
    exact leads_bind rest fun _ => leads_pure _ fun _ holds => holds

theorem run_statements_leads (p : Params) (breaks : ∀ s, before s → broken s)
    (executes : ∀ c ∈ op.statements, ∀ values,
      Leads before (e.execute c.sql values) (fun _ => before) broken)
    (asks : Leads before e.lastRowId (fun _ => before) broken) :
    Leads before (op.runStatements e p) (fun _ => before) broken := by
  refine leads_checked breaks fun first head => ?_
  refine leads_checked breaks fun others tail => ?_
  refine run_bound_leads op e first others breaks (fun bound member => ?_) asks
  have binds := bind_statements_cons op p op.first op.others first others head tail
  have texts := bind_statements_sql op p op.statements (first :: others) binds
  have listed : bound.sql ∈ op.statements.map (·.sql) := by
    rw [← texts]
    exact List.mem_map_of_mem member
  obtain ⟨c, member, same⟩ := List.mem_map.mp listed
  rw [← same]
  exact executes c member bound.values

theorem run_for_leads (p : Params) (breaks : ∀ s, before s → broken s)
    (executes : ∀ c ∈ op.statements, ∀ values,
      Leads before (e.execute c.sql values) (fun _ => before) broken)
    (script : ∀ text, op.script = some text →
      Leads before (e.executeScript text) (fun _ => before) broken)
    (asks : Leads before e.lastRowId (fun _ => before) broken) :
    Leads before (op.runFor e p) (fun _ => before) broken := by
  have plain := run_statements_leads op e p breaks executes asks
  refine leads_bind (leads_gets e.hasScripts) fun native => ?_
  cases native with
  | false => exact plain
  | true =>
    cases whole : op.script with
    | none => exact plain
    | some text => exact leads_bind (script text whole) fun _ => leads_pure _ fun _ holds => holds

theorem run_leads (args : Arguments) (breaks : ∀ s, before s → broken s)
    (executes : ∀ c ∈ op.statements, ∀ values,
      Leads before (e.execute c.sql values) (fun _ => before) broken)
    (script : ∀ text, op.script = some text →
      Leads before (e.executeScript text) (fun _ => before) broken)
    (asks : Leads before e.lastRowId (fun _ => before) broken) :
    Leads before (op.run e args) (fun _ => before) broken := by
  cases args with
  | single p => exact run_for_leads op e p breaks executes script asks
  | batch all =>
    refine leads_bind (leads_each _ all fun p _ => ?_) fun _ => leads_pure _ fun _ holds => holds
    exact run_for_leads op e p breaks executes script asks

end Leads

section Done

variable (op : Operation) (e : Engine σ) {s after : σ}

theorem row_id_quiet (set : ResultSet) (quiet : ∀ s, (e.lastRowId s).2 = s) (id : Int64)
    (ran : op.rowId e set s = (.done id, after)) : after = s := by
  have kept : Leads (· = s) (op.rowId e set) (fun _ => (· = s)) fun _ => True := by
    refine row_id_leads op e set (fun _ _ => trivial) ?_
    intro t same
    rcases asked : e.lastRowId t with ⟨outcome, next⟩
    have unchanged : next = t := by simpa only [asked] using quiet t
    cases outcome with
    | done id => exact unchanged.trans same
    | failed failure => trivial
    | crashed text => trivial
  have result := kept s rfl
  rw [ran] at result
  exact result

theorem run_bound_done (first : Bound) (others : List Bound) (output : Output)
    (quiet : ∀ s, (e.lastRowId s).2 = s)
    (ran : op.runBound e first others s = (.done output, after)) :
    ∃ sets, executeAll e (first :: others) s = (.done sets, after) := by
  obtain ⟨set, between, head, rest⟩ := bind_done ran
  by_cases inserts : op.isInsert
  · rw [if_pos inserts] at rest
    obtain ⟨id, same, settled, rest⟩ := bind_done rest
    obtain ⟨sets, last, tail, answered⟩ := bind_done rest
    have unchanged := row_id_quiet op e set quiet id settled
    cases unchanged
    cases answered
    exact ⟨set :: sets, each_cons_done _ head tail⟩
  · rw [if_neg inserts] at rest
    obtain ⟨sets, last, tail, answered⟩ := bind_done rest
    cases answered
    exact ⟨set :: sets, each_cons_done _ head tail⟩

theorem run_statements_done (p : Params) (output : Output) (quiet : ∀ s, (e.lastRowId s).2 = s)
    (ran : op.runStatements e p s = (.done output, after)) :
    ∃ bounds sets, op.bindStatements p op.statements = .ok bounds ∧
      executeAll e bounds s = (.done sets, after) := by
  obtain ⟨first, bound, head, rest⟩ := bind_done ran
  obtain ⟨headBinds, rfl⟩ := of_except_done head
  obtain ⟨others, allBound, tail, running⟩ := bind_done rest
  obtain ⟨tailBinds, rfl⟩ := of_except_done tail
  obtain ⟨sets, executed⟩ := run_bound_done op e first others output quiet running
  exact ⟨first :: others, sets,
    bind_statements_cons op p op.first op.others first others headBinds tailBinds, executed⟩

-- A script in one piece does what its statements do one by one.
def ScriptExecutes (op : Operation) (e : Engine σ) : Prop :=
  ∀ text, op.script = some text → ∀ p s sets after, e.executeScript text s = (.done sets, after) →
    ∃ bounds sets, op.bindStatements p op.statements = .ok bounds ∧
      executeAll e bounds s = (.done sets, after)

theorem run_for_done (p : Params) (output : Output) (quiet : ∀ s, (e.lastRowId s).2 = s)
    (script : ScriptExecutes op e) (ran : op.runFor e p s = (.done output, after)) :
    ∃ bounds sets, op.bindStatements p op.statements = .ok bounds ∧
      executeAll e bounds s = (.done sets, after) := by
  obtain ⟨native, same, looked, rest⟩ := bind_done ran
  cases looked
  cases scripts : e.hasScripts s with
  | false =>
    rw [scripts] at rest
    exact run_statements_done op e p output quiet rest
  | true =>
    rw [scripts] at rest
    cases whole : op.script with
    | none =>
      rw [whole] at rest
      exact run_statements_done op e p output quiet rest
    | some text =>
      rw [whole] at rest
      obtain ⟨sets, last, executed, answered⟩ := bind_done rest
      cases answered
      exact script text whole p s sets after executed

theorem each_run_done (elements : List Params) (outputs : List Output)
    (quiet : ∀ s, (e.lastRowId s).2 = s) (script : ScriptExecutes op e)
    (ran : each (op.runFor e) elements s = (.done outputs, after)) :
    ∃ bounds sets, op.boundFor elements = .ok bounds ∧
      executeAll e bounds s = (.done sets, after) := by
  induction elements generalizing s outputs with
  | nil =>
    cases ran
    exact ⟨[], [], rfl, rfl⟩
  | cons p ps ih =>
    obtain ⟨output, rest, between, -, head, tail⟩ := each_done_cons _ ran
    obtain ⟨first, firstSets, firstBinds, firstRan⟩ := run_for_done op e p output quiet script head
    obtain ⟨others, otherSets, othersBind, othersRan⟩ := ih rest tail
    exact ⟨first ++ others, firstSets ++ otherSets,
      bound_for_cons op p ps first others firstBinds othersBind,
      each_append_done _ firstRan othersRan⟩

theorem run_done (args : Arguments) (output : Output) (quiet : ∀ s, (e.lastRowId s).2 = s)
    (script : ScriptExecutes op e) (ran : op.run e args s = (.done output, after)) :
    ∃ bounds sets, op.boundFor args.elements = .ok bounds ∧
      executeAll e bounds s = (.done sets, after) := by
  cases args with
  | single p =>
    obtain ⟨bounds, sets, binds, executed⟩ := run_for_done op e p output quiet script ran
    refine ⟨bounds ++ [], sets, bound_for_cons op p [] bounds [] binds rfl, ?_⟩
    rw [List.append_nil]
    exact executed
  | batch all =>
    obtain ⟨outputs, last, each, answered⟩ := bind_done ran
    cases answered
    exact each_run_done op e all outputs quiet script each

end Done

end Operation
end SqlCatalog
