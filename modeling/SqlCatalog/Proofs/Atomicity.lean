import SqlCatalog.Proofs.Calling
import SqlCatalog.Proofs.Database
import SqlCatalog.Proofs.Script
/-!
A call on a database does all of its statements or nothing (`call_atomic`).
-/
namespace SqlCatalog

open Database Session SqlCatalog.Action

variable {γ π τ ν ρ α : Type}

namespace Operation

theorem bind_bare (op : Operation) (p : Params) (cs : List CompiledSql)
    (bare : ∀ c ∈ cs, c.params = []) :
    op.bindStatements p cs = .ok (Driver.unbound (cs.map (·.sql))) := by
  induction cs with
  | nil => rfl
  | cons c rest ih =>
    have head : op.bindStatement p c = .ok ⟨c.sql, []⟩ := by
      simp only [bindStatement, bare c (by simp), Params.bind]
    have tail := ih fun next member => bare next (by simp [member])
    exact bind_statements_cons op p c rest _ _ head tail

-- A database that cuts the script of an operation, if it has one, into its statements.
def Divides (d : Driver γ π) (op : Operation) : Prop :=
  ∀ script, op.script = some script → d.Splits script (op.statements.map (·.sql))

def Plain (d : Driver γ π) (control : π → Prop) (op : Operation) : Prop :=
  ∀ c ∈ op.statements, ∀ statement, d.read c.sql = .ok statement → ¬ control statement

theorem script_executes (d : Driver γ π) (op : Operation) (divides : op.Divides d) :
    op.ScriptExecutes d.engine := by
  intro text whole p h sets after ran
  rw [d.execute_script_eq text _ (divides text whole)] at ran
  have binds := op.bind_bare p op.statements (op.script_bare (by rw [whole]; rfl))
  rcases plain : executeAll d.engine (Driver.unbound (op.statements.map (·.sql))) h with
    ⟨outcome, last⟩
  simp only [mapped, plain, Prod.mk.injEq] at ran
  obtain ⟨answered, rfl⟩ := ran
  cases outcome with
  | done answers => exact ⟨_, answers, binds, plain⟩
  | failed failure => cases answered
  | crashed text => cases answered

theorem plain_script (d : Driver γ π) (control : π → Prop) (op : Operation)
    (plain : op.Plain d control) (divides : op.Divides d) (script : String) (whole : op.script = some script) :
    ∀ statement ∈ d.readAll script, ¬ control statement := by
  intro statement member
  have listed : Except.ok statement ∈ (op.statements.map (·.sql)).map d.read := by
    rw [divides script whole]
    exact List.mem_map_of_mem member
  rw [List.map_map] at listed
  obtain ⟨c, member, reads⟩ := List.mem_map.mp listed
  exact plain c member statement reads

end Operation

namespace Database.Driver

variable (d : Driver γ π) {tables : γ → τ} {saved : γ → Option τ} {control : π → Prop}

abbrev Inside (saved : γ → Option τ) (before : τ) (h : Attached γ) : Prop :=
  saved h.connection = some before

abbrev Recoverable (tables : γ → τ) (saved : γ → Option τ) (before : τ) (h : Attached γ) : Prop :=
  Undoable tables saved before h.connection

theorem run_leads (restores : Restores d tables saved control) (before : τ) (statement : π)
    (plain : ¬ control statement) (parameters : List Cell) (c : γ) (inside : saved c = some before) :
    match d.run c statement parameters with
    | (.ok _, after) => saved after = some before
    | (.error _, after) => Undoable tables saved before after := by
  rcases ran : d.run c statement parameters with ⟨result, after⟩
  cases result with
  | ok answer => exact restores.run_done c after statement parameters answer before plain inside ran
  | error problem =>
    exact restores.run_failed c after statement parameters problem before plain inside ran

theorem execute_leads (restores : Restores d tables saved control) (before : τ) (sql : String)
    (plain : ∀ statement, d.read sql = .ok statement → ¬ control statement) (values : List Value) :
    Leads (Inside saved before) (d.engine.execute sql values) (fun _ => Inside saved before)
      (Recoverable tables saved before) := by
  intro h inside
  cases reads : d.read sql with
  | error problem =>
    simp only [engine, Attached.onConnection, execute, reads]
    exact .inl inside
  | ok statement =>
    have step := d.run_leads restores before statement (plain statement reads)
      (values.map Value.toCell) h.connection inside
    rcases ran : d.run h.connection statement (values.map Value.toCell) with ⟨result, after⟩
    rw [ran] at step
    cases result <;> simpa only [engine, Attached.onConnection, execute, reads, ran] using step

theorem execute_script_leads (restores : Restores d tables saved control) (before : τ)
    (script : String) (plain : ∀ statement ∈ d.readAll script, ¬ control statement) :
    Leads (Inside saved before) (d.engine.executeScript script) (fun _ => Inside saved before)
      (Recoverable tables saved before) := by
  refine leads_each _ _ fun statement member => ?_
  intro h inside
  have step := d.run_leads restores before statement (plain statement member) [] h.connection inside
  rcases ran : d.run h.connection statement [] with ⟨result, after⟩
  rw [ran] at step
  cases result <;> simpa only [Attached.onConnection, runInScript, ran] using step

theorem last_row_id_leads (before : τ) :
    Leads (Inside saved before) d.engine.lastRowId (fun _ => Inside saved before)
      (Recoverable tables saved before) := by
  intro h inside
  exact inside

theorem operation_leads (restores : Restores d tables saved control) (before : τ) (op : Operation)
    (plain : op.Plain d control) (divides : op.Divides d) (args : Arguments) :
    Leads (Inside saved before) (op.run d.engine args) (fun _ => Inside saved before)
      (Recoverable tables saved before) := by
  refine op.run_leads d.engine args (fun h inside => .inl inside) ?_ ?_ (d.last_row_id_leads before)
  · intro c member values
    exact d.execute_leads restores before c.sql (plain c member) values
  · intro script whole
    exact d.execute_script_leads restores before script
      (op.plain_script d control plain divides script whole)

theorem engine_begin_restores (restores : Restores d tables saved control) (h : Attached γ)
    (closed : d.autocommit h.connection = true) :
    match d.engine.begin h with
    | (.done (), after) => Inside saved (tables h.connection) after
    | (.failed _, after) => tables after.connection = tables h.connection
    | (.crashed _, after) => tables after.connection = tables h.connection := by
  have idle := (restores.autocommit_iff h.connection).mp closed
  rcases d.engine_begin_cases h with ⟨after, ran, same⟩ | ⟨problem, after, ran, same⟩
  · rw [same]
    exact (restores.begin_done h.connection after idle ran).2
  · rw [same]
    exact restores.begin_failed h.connection after problem idle ran

theorem inside_busy (restores : Restores d tables saved control) (before : τ) (h : Attached γ)
    (inside : Inside saved before h) : d.autocommit h.connection = false := by
  rw [← Bool.not_eq_true, restores.autocommit_iff, inside]
  simp

theorem engine_rollback_restores (restores : Restores d tables saved control) (before : τ)
    (h : Attached γ) (recoverable : Recoverable tables saved before h) :
    tables (d.engine.rollback h).2.connection = before := by
  rcases recoverable with inside | ⟨idle, restored⟩
  · have busy := d.inside_busy restores before h inside
    obtain ⟨after, rolled, restored⟩ := restores.rollback_done h.connection before inside
    rw [d.engine_rollback_busy h after busy rolled]
    exact restored
  · have closed := (restores.autocommit_iff h.connection).mpr idle
    rw [d.engine_rollback_idle h closed]
    exact restored

theorem engine_commit_restores (restores : Restores d tables saved control) (before : τ)
    (h : Attached γ) (inside : Inside saved before h) :
    match d.engine.commit h with
    | (.done (), after) => tables after.connection = tables h.connection
    | (.failed _, after) => Recoverable tables saved before after
    | (.crashed _, after) => Recoverable tables saved before after := by
  have busy := d.inside_busy restores before h inside
  rcases d.engine_commit_cases h with
    ⟨idle, same⟩ | ⟨-, after, ran, same⟩ | ⟨-, problem, after, ran, same⟩
  · rw [busy] at idle
    cases idle
  · rw [same]
    exact restores.commit_done h.connection after ran
  · rw [same]
    exact restores.commit_failed h.connection after problem before inside ran

end Database.Driver

namespace Session

variable (d : Driver γ π) {tables : γ → τ} {saved : γ → Option τ} {control : π → Prop}

theorem roll_back_restores (restores : Restores d tables saved control) (before : τ)
    (warning : Failure → Warning) (s : Session (Attached γ) ρ)
    (recoverable : Undoable tables saved before s.connection.connection) :
    tables (s.rollBack d.engine warning).connection.connection = before := by
  rw [roll_back_connection]
  exact d.engine_rollback_restores restores before s.connection recoverable

theorem commit_scope_restores (restores : Restores d tables saved control) (before : τ)
    (s : Session (Attached γ) ρ) (inside : saved s.connection.connection = some before) :
    match commitScope d.engine s with
    | (.done (), after) =>
      tables after.connection.connection = tables s.connection.connection
    | (.failed _, after) => tables after.connection.connection = before
    | (.crashed _, after) => tables after.connection.connection = before := by
  have step := d.engine_commit_restores restores before s.connection inside
  rcases committed : d.engine.commit s.connection with ⟨outcome, connection⟩
  rw [committed] at step
  cases outcome with
  | done =>
    rw [commit_scope_done d.engine s connection committed]
    exact step
  | failed failure =>
    rw [commit_scope_failed d.engine s failure connection committed]
    exact roll_back_restores d restores before _ _ step
  | crashed text =>
    rw [commit_scope_crashed d.engine s text connection committed]
    exact roll_back_restores d restores before _ _ step

-- An answer keeps the transaction open, so the commit is what decides; anything else is undone.
theorem close_scope_restores (restores : Restores d tables saved control) (before : τ)
    (outcome : Outcome α) (s : Session (Attached γ) ρ)
    (ended : match outcome with
      | .done _ => saved s.connection.connection = some before
      | .failed _ => Undoable tables saved before s.connection.connection
      | .crashed _ => Undoable tables saved before s.connection.connection) :
    match closeScope d.engine outcome s with
    | (.done _, after) =>
      outcome.isDone = true ∧ tables after.connection.connection = tables s.connection.connection
    | (.failed _, after) => tables after.connection.connection = before
    | (.crashed _, after) => tables after.connection.connection = before := by
  cases outcome with
  | done a =>
    have step := commit_scope_restores d restores before s ended
    rcases committed : commitScope d.engine s with ⟨outcome, after⟩
    rw [committed] at step
    cases outcome with
    | done => simpa only [closeScope, committed, Outcome.isDone, true_and] using step
    | failed failure => simpa only [closeScope, committed] using step
    | crashed text => simpa only [closeScope, committed] using step
  | failed failure => exact roll_back_restores d restores before _ s ended
  | crashed text => exact roll_back_restores d restores before _ s ended

theorem refused_restores (restores : Restores d tables saved control)
    (s : Session (Attached γ) ρ) (closed : d.autocommit s.connection.connection = true)
    (refused : Refused d.engine s) :
    tables (d.engine.begin s.connection).2.connection = tables s.connection.connection := by
  have beginning := d.engine_begin_restores restores s.connection closed
  have notBegun := refused.2
  rcases began : d.engine.begin s.connection with ⟨start, next⟩
  rw [began] at beginning notBegun
  cases start with
  | done => cases notBegun
  | failed failure => exact beginning
  | crashed text => exact beginning

theorem accepted_restores (restores : Restores d tables saved control)
    (s : Session (Attached γ) ρ) (closed : d.autocommit s.connection.connection = true)
    (accepted : ¬ Refused d.engine s) :
    ∃ begun, d.engine.begin s.connection = (.done (), begun) ∧
      Driver.Inside saved (tables s.connection.connection) begun := by
  have beginning := d.engine_begin_restores restores s.connection closed
  rcases began : d.engine.begin s.connection with ⟨start, begun⟩
  rw [began] at beginning
  cases start with
  | done => exact ⟨begun, rfl, beginning⟩
  | failed failure => exact absurd ⟨rfl, by rw [began]; rfl⟩ accepted
  | crashed text => exact absurd ⟨rfl, by rw [began]; rfl⟩ accepted

theorem transaction_restores (restores : Restores d tables saved control)
    (body : Action (Attached γ) α) (s : Session (Attached γ) ρ)
    (closed : d.autocommit s.connection.connection = true)
    (leads : Leads (Driver.Inside saved (tables s.connection.connection)) body
      (fun _ => Driver.Inside saved (tables s.connection.connection))
      (Driver.Recoverable tables saved (tables s.connection.connection))) :
    match transaction d.engine (onConnection body) s with
    | (.done _, after) => ∃ begun executed a, d.engine.begin s.connection = (.done (), begun) ∧
        body begun = (.done a, executed) ∧
        tables after.connection.connection = tables executed.connection
    | (.failed _, after) => tables after.connection.connection = tables s.connection.connection
    | (.crashed _, after) =>
      tables after.connection.connection = tables s.connection.connection := by
  cases scope : s.scope with
  | «open» => simp only [transaction_busy d.engine _ s scope]
  | idle =>
    by_cases refused : Refused d.engine s
    · obtain ⟨outcome, notDone, same⟩ := transaction_refused d.engine s scope refused
      have unchanged := refused_restores d restores s closed refused
      rw [same]
      cases outcome with
      | done a => cases notDone
      | failed failure => exact unchanged
      | crashed text => exact unchanged
    · obtain ⟨begun, began, inside⟩ := accepted_restores d restores s closed refused
      rw [transaction_opened d.engine _ s scope refused, opened_begun d.engine s begun rfl began]
      have step := leads begun inside
      rcases ran : body begun with ⟨outcome, executed⟩
      rw [ran] at step
      simp only [onConnection, ran]
      have closing := close_scope_restores d restores (tables s.connection.connection) outcome
        { s with connection := executed, scope := .«open» } (by cases outcome <;> exact step)
      rcases ended : closeScope d.engine outcome
        { s with connection := executed, scope := .«open» } with ⟨answer, after⟩
      rw [ended] at closing
      cases answer with
      | done value =>
        obtain ⟨a, rfl⟩ := (Outcome.is_done_iff outcome).mp closing.1
        exact ⟨begun, executed, a, began, ran, closing.2⟩
      | failed failure => exact closing
      | crashed text => exact closing

end Session

namespace Catalog

variable (d : Driver γ π) {tables : γ → τ} {saved : γ → Option τ} {control : π → Prop}

def RunsAll (op : Operation) (args : Arguments) (before executed : Attached γ) : Prop :=
  ∃ begun bounds sets, d.engine.begin before = (.done (), begun) ∧
    op.boundFor args.elements = .ok bounds ∧
    Operation.executeAll d.engine bounds begun = (.done sets, executed)

-- A call on a database whose rollbacks restore its tables: an answer has run every statement of
-- every element in order, and after anything else the tables are what they were. The statements are
-- not to control transactions, and the database is to cut scripts as the operation does.
theorem call_atomic (restores : Restores d tables saved control) (files : FileView)
    (name : String) (args : Arguments) (s : Catalog (Attached γ) ν)
    (closed : d.autocommit s.connection.connection = true)
    (plain : ∀ op found, operation files name s = (.done op, found) → op.Plain d control)
    (divides : ∀ op found, operation files name s = (.done op, found) → op.Divides d) :
    match call d.engine files name args s with
    | (.done _, after) => ∃ op found executed, operation files name s = (.done op, found) ∧
        ((args = .batch [] ∧ executed = s.connection) ∨ RunsAll d op args s.connection executed) ∧
        tables after.connection.connection = tables executed.connection
    | (.failed _, after) => tables after.connection.connection = tables s.connection.connection
    | (.crashed _, after) =>
      tables after.connection.connection = tables s.connection.connection := by
  obtain ⟨found, same, -, ways⟩ := call_cases d.engine files name args s
  rcases ways with ⟨failure, -, called⟩ | ⟨op, looked, empty, called⟩ | ⟨op, looked, -, called⟩
  · rw [called]
    exact congrArg (fun h => tables h.connection) same
  · rw [called]
    exact ⟨op, found, s.connection, looked, .inl ⟨empty, rfl⟩, by rw [same]⟩
  · rw [called]
    have leads := d.operation_leads restores (tables found.connection.connection) op
      (plain op found looked) (divides op found looked) args
    have step := transaction_restores d restores (op.run d.engine args) found
      (by rw [same]; exact closed) leads
    rcases ran : Session.transaction d.engine (onConnection (op.run d.engine args)) found with
      ⟨answer, after⟩
    rw [ran, same] at step
    cases answer with
    | done output =>
      obtain ⟨begun, executed, value, began, body, kept⟩ := step
      obtain ⟨bounds, sets, binds, all⟩ := op.run_done d.engine args value (fun _ => rfl)
        (op.script_executes d (divides op found looked)) body
      exact ⟨op, found, executed, looked, .inr ⟨begun, bounds, sets, began, binds, all⟩, kept⟩
    | failed failure => exact step
    | crashed text => exact step

end Catalog

namespace Database.Connection

open Driver

def catalogOf (op : Operation) : Catalog Handle Unit :=
  let inventory := Inventory.empty ⟨.postgres, .sqlite⟩ none
  Session.start ⟨withTable, 100⟩
    ⟨{ inventory with entries := inventory.entries.insert op.name (.compiled op) }, .standard, ()⟩

theorem plain_of_all (op : Operation)
    (all : (op.statements.all fun c =>
      match driver.read c.sql with
      | .ok statement => !isControl statement
      | .error _ => true) = true) : op.Plain driver (isControl ·) := by
  intro c member statement reads
  have plain := List.all_eq_true.mp all c member
  rw [reads] at plain
  simpa using plain

def fillTwice : Operation where
  name := "fill_twice"
  category := .script
  style := .sqlite
  first := ⟨"INSERT INTO t (id, v) VALUES (1, 7)", []⟩
  others := [⟨"INSERT INTO t (id, v) VALUES (1, 8)", []⟩]
  script := some "INSERT INTO t (id, v) VALUES (1, 7);\nINSERT INTO t (id, v) VALUES (1, 8);"
  script_bare := by simp

theorem call_atomic_fill_twice :
    let called := Catalog.call driver.engine .empty "fill_twice" (.single .empty)
      (catalogOf fillTwice)
    driver.autocommit withTable = true ∧ fillTwice.Plain driver (isControl ·) ∧
    fillTwice.Divides driver ∧ called.1.isDone = false ∧
    called.2.connection.connection.contents = withTable.contents := by
  intro called
  have plain : fillTwice.Plain driver (isControl ·) := plain_of_all fillTwice (by cbv)
  have divides : fillTwice.Divides driver := by
    rintro script ⟨⟩
    simp only [Driver.Splits]
    cbv
  have fails : called.1.isDone = false := by
    simp only [called]
    cbv
  have step := Catalog.call_atomic driver restores .empty "fill_twice" (.single .empty)
    (catalogOf fillTwice) rfl (by rintro op found ⟨⟩; exact plain)
    (by rintro op found ⟨⟩; exact divides)
  refine ⟨rfl, plain, divides, fails, ?_⟩
  rcases ran : called with ⟨outcome, after⟩
  rw [ran] at fails
  simp only [called] at ran
  rw [ran] at step
  cases outcome with
  | done output => cases fails
  | failed failure => exact step
  | crashed text => exact step

-- The database takes the brackets for one name, from the first statement to the last.
def bracketed : Operation where
  name := "bracketed"
  category := .script
  style := .sqlite
  first := ⟨"SELECT 1 AS [a", []⟩
  others := [⟨"INSERT INTO t (v) VALUES (7)", []⟩, ⟨"SELECT 2 AS b]", []⟩]
  script := some "SELECT 1 AS [a;\nINSERT INTO t (v) VALUES (7);\nSELECT 2 AS b];"
  script_bare := by simp

theorem bracketed_runs_nothing :
    Restores driver contents saved (isControl ·) ∧ driver.autocommit withTable = true ∧
    bracketed.Plain driver (isControl ·) ∧
    (Catalog.call driver.engine .empty "bracketed" (.single .empty)
      (catalogOf bracketed)).1.isDone = true ∧
    ¬ ∃ executed, Catalog.RunsAll driver bracketed (.single .empty) ⟨withTable, 100⟩ executed := by
  refine ⟨restores, rfl, plain_of_all bracketed (by cbv), by cbv, ?_⟩
  rintro ⟨executed, begun, bounds, sets, -, binds, all⟩
  cases binds
  obtain ⟨set, rest, between, -, first, -⟩ := Action.each_done_cons _ all
  change driver.engine.execute "SELECT 1 AS [a" [] begun = _ at first
  have unknown : (driver.read "SELECT 1 AS [a").toOption.bind Command.ofLexemes? = none := by cbv
  cases reads : driver.read "SELECT 1 AS [a" with
  | error problem => simp [Driver.engine, Attached.onConnection, execute, reads] at first
  | ok statement =>
    rw [reads] at unknown
    have meaning : Command.ofLexemes? statement = none := unknown
    simp only [Driver.engine, Attached.onConnection, execute, reads] at first
    simp [driver, runStatement, meaning] at first

end Database.Connection
end SqlCatalog
