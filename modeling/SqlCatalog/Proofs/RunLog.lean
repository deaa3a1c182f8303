import Mathlib
import SqlCatalog.Proofs.Binding
/-!
What a run of an operation asks of the engine, and what comes back. `Ran` says it for one set of
parameters: the statements in order, and behind the first statement of an insert what settles the row
id. For all elements of the arguments the executions are a beginning of the statements of every
element; a run that is answered has executed all of them, and one that is not has stopped at the first
thing that failed (`run_log`).
-/
namespace SqlCatalog

open SqlCatalog.Action

variable {σ α β : Type}

def Arguments.Wraps : Arguments → List Output → Output → Prop
  | .single _, outputs, output => outputs = [output]
  | .batch _, outputs, output => output = .batch outputs

theorem Arguments.wraps_row_ids (args : Arguments) (ids : List Int64) (output : Output)
    (wraps : args.Wraps (ids.map .rowId) output) : output.rowIds? = some ids := by
  cases args with
  | single p =>
    obtain ⟨id, rfl, rfl⟩ := List.map_eq_singleton_iff.mp wraps
    rfl
  | batch all =>
    cases wraps
    change (ids.map .rowId).mapM Output.asRowId? = some ids
    induction ids with
    | nil => rfl
    | cons id ids ih => simp only [List.map_cons, List.mapM_cons, ih, Output.asRowId?]; rfl

/-! ### Exchanges -/

namespace Engine

inductive Exchange where
  | execute (sql : String) (values : List Value) (outcome : Outcome ResultSet)
  | executeScript (sql : String) (outcome : Outcome (List ResultSet))
  | lastRowId (outcome : Outcome (Option Int64))
  | begin (outcome : Outcome Unit)
  | commit (outcome : Outcome Unit)
  | rollback (result : Except Failure Unit)

namespace Exchange

def ending : Exchange → Outcome Unit
  | execute _ _ outcome => outcome.ending
  | executeScript _ outcome => outcome.ending
  | lastRowId outcome => outcome.ending
  | begin outcome => outcome
  | commit outcome => outcome
  | rollback (.ok ()) => .done ()
  | rollback (.error failure) => .failed failure

def succeeds : Exchange → Bool
  | lastRowId (.done none) => false
  | exchange => exchange.ending.isDone

def isScript : Exchange → Bool
  | executeScript _ _ => true
  | _ => false

def execution? : Exchange → Option (String × List (Option Value))
  | execute sql values _ => some (sql, values.map some)
  | _ => none

def set? : Exchange → Option ResultSet
  | execute _ _ (.done set) => some set
  | _ => none

end Exchange

def executions (log : List Exchange) : List (String × List (Option Value)) :=
  log.filterMap Exchange.execution?

def results (log : List Exchange) : List ResultSet := log.filterMap Exchange.set?

def AllSucceed (log : List Exchange) : Prop := ∀ x ∈ log, x.succeeds = true

theorem all_succeed_nil : AllSucceed [] := by
  intro x member
  cases member

theorem all_succeed_cons {x : Exchange} {log : List Exchange} (head : x.succeeds = true)
    (rest : AllSucceed log) : AllSucceed (x :: log) :=
  List.forall_mem_cons.mpr ⟨head, rest⟩

theorem all_succeed_append {log more : List Exchange} (first : AllSucceed log)
    (second : AllSucceed more) : AllSucceed (log ++ more) :=
  List.forall_mem_append.mpr ⟨first, second⟩

theorem executions_append (log more : List Exchange) :
    executions (log ++ more) = executions log ++ executions more := List.filterMap_append

theorem results_append (log more : List Exchange) :
    results (log ++ more) = results log ++ results more := List.filterMap_append

theorem executions_execute (sql : String) (values : List Value) (outcome : Outcome ResultSet)
    (log : List Exchange) :
    executions (.execute sql values outcome :: log) = (sql, values.map some) :: executions log := rfl

theorem results_execute (sql : String) (values : List Value) (set : ResultSet)
    (log : List Exchange) :
    results (.execute sql values (.done set) :: log) = set :: results log := rfl

structure Logged (σ : Type) where
  state : σ
  log : List Exchange

namespace Logged

def record (exchange : Outcome α → Exchange) (action : Action σ α) : Action (Logged σ) α := fun t =>
  match action t.state with
  | (outcome, state) => (outcome, ⟨state, t.log ++ [exchange outcome]⟩)

end Logged

def logged (e : Engine σ) : Engine (Logged σ) where
  style t := e.style t.state
  hasTransactions t := e.hasTransactions t.state
  hasScripts t := e.hasScripts t.state
  reportsRowIds t := e.reportsRowIds t.state
  cacheCapacity t := e.cacheCapacity t.state
  execute sql values := Logged.record (.execute sql values) (e.execute sql values)
  executeScript sql := Logged.record (.executeScript sql) (e.executeScript sql)
  lastRowId := Logged.record .lastRowId e.lastRowId
  begin := Logged.record .begin e.begin
  commit := Logged.record .commit e.commit
  rollback t :=
    match e.rollback t.state with
    | (result, state) => (result, ⟨state, t.log ++ [.rollback result]⟩)

end Engine

namespace Action

open Engine

def Adds (action : Action (Logged σ) α) (t : Logged σ)
    (account : List Exchange → Outcome α → Prop) : Prop :=
  ∃ log, (action t).2.log = t.log ++ log ∧ account log (action t).1

theorem adds_record (exchange : Outcome α → Exchange) (action : Action σ α) (t : Logged σ) :
    Adds (Logged.record exchange action) t fun log outcome =>
      outcome = (action t.state).1 ∧ log = [exchange outcome] :=
  ⟨[exchange (action t.state).1], rfl, rfl, rfl⟩

theorem adds_nothing {action : Action (Logged σ) α} {t : Logged σ}
    {account : List Exchange → Outcome α → Prop} {outcome : Outcome α}
    (ends : action t = (outcome, t)) (holds : account [] outcome) : Adds action t account := by
  refine ⟨[], ?_, ?_⟩
  · rw [ends, List.append_nil]
  · rw [ends]
    exact holds

theorem adds_congr {action other : Action (Logged σ) α} {t : Logged σ}
    {account : List Exchange → Outcome α → Prop} (same : action t = other t)
    (adds : Adds other t account) : Adds action t account := by
  rw [Adds, same]
  exact adds

theorem adds_bind {x : Action (Logged σ) α} {f : α → Action (Logged σ) β} {t : Logged σ}
    {part : List Exchange → Outcome α → Prop} {whole : List Exchange → Outcome β → Prop}
    (head : Adds x t part)
    (tail : ∀ a next log, x t = (.done a, next) → part log (.done a) →
      Adds (f a) next fun rest outcome => whole (log ++ rest) outcome)
    (stops : ∀ log outcome result, part log outcome → outcome.isDone = false →
      result.ending = outcome.ending → whole log result) : Adds (x >>= f) t whole := by
  obtain ⟨log, grown, holds⟩ := head
  rcases ran : x t with ⟨outcome, next⟩
  rw [ran] at grown holds
  cases outcome with
  | done a =>
    obtain ⟨rest, more, all⟩ := tail a next log ran holds
    refine ⟨log ++ rest, ?_, ?_⟩
    · rw [bind_apply, ran, more, grown, List.append_assoc]
    · rw [bind_apply, ran]
      exact all
  | failed failure =>
    refine ⟨log, ?_, ?_⟩
    · rw [bind_apply, ran]
      exact grown
    · rw [bind_apply, ran]
      exact stops log _ _ holds rfl rfl
  | crashed text =>
    refine ⟨log, ?_, ?_⟩
    · rw [bind_apply, ran]
      exact grown
    · rw [bind_apply, ran]
      exact stops log _ _ holds rfl rfl

end Action

namespace Operation

open Engine

/-! ### Statements one after the other -/

inductive InTurn : List Bound → List Exchange → Outcome (List ResultSet) → Prop where
  | nil : InTurn [] [] (.done [])
  | stop {bound : Bound} {others : List Bound} {outcome : Outcome ResultSet}
      {result : Outcome (List ResultSet)} (stops : outcome.isDone = false)
      (same : result.ending = outcome.ending) :
      InTurn (bound :: others) [.execute bound.sql bound.values outcome] result
  | next {bound : Bound} {others : List Bound} {set : ResultSet} {log : List Exchange}
      {outcome : Outcome (List ResultSet)} (rest : InTurn others log outcome) :
      InTurn (bound :: others) (.execute bound.sql bound.values (.done set) :: log)
        (outcome.map (set :: ·))

theorem execute_all_logged (e : Engine σ) (bounds : List Bound) (t : Logged σ) :
    Adds (executeAll e.logged bounds) t (InTurn bounds) := by
  induction bounds generalizing t with
  | nil => exact adds_nothing rfl .nil
  | cons bound others ih =>
    apply adds_bind (adds_record (.execute bound.sql bound.values) _ t)
    · rintro set next log - ⟨-, rfl⟩
      apply adds_bind (ih next)
      · rintro sets last log - rest
        apply adds_nothing rfl
        rw [List.append_nil]
        exact .next rest
      · intro log outcome result rest stopped same
        rw [Outcome.eq_map_of_ending (set :: ·) stopped same]
        exact .next rest
    · rintro log outcome result ⟨-, rfl⟩ stopped same
      exact .stop stopped same

def Bound.execution (bound : Bound) : String × List (Option Value) :=
  (bound.sql, bound.values.map some)

theorem in_turn_executions {bounds : List Bound} {log : List Exchange}
    {outcome : Outcome (List ResultSet)} (executed : InTurn bounds log outcome) :
    log.map Exchange.execution? <+: bounds.map fun bound => some bound.execution := by
  induction executed with
  | nil => exact List.prefix_refl _
  | stop stops same => exact List.cons_prefix_cons.mpr ⟨rfl, List.nil_prefix⟩
  | next rest ih => exact List.cons_prefix_cons.mpr ⟨rfl, ih⟩

theorem in_turn_prefix {bounds : List Bound} {log : List Exchange}
    {outcome : Outcome (List ResultSet)} (executed : InTurn bounds log outcome) :
    executions log <+: bounds.map Bound.execution := by
  have behind := (in_turn_executions executed).filterMap id
  simpa [executions, List.filterMap_map, Function.comp_def] using behind

theorem in_turn_done {bounds : List Bound} {log : List Exchange} {sets : List ResultSet}
    {outcome : Outcome (List ResultSet)} (executed : InTurn bounds log outcome)
    (answered : outcome = .done sets) :
    executions log = bounds.map Bound.execution ∧ AllSucceed log ∧
      results log = sets ∧ sets.length = bounds.length := by
  induction executed generalizing sets with
  | nil =>
    cases answered
    exact ⟨rfl, all_succeed_nil, rfl, rfl⟩
  | stop stopped same => exact absurd answered (Outcome.ne_done_of_ending stopped same sets)
  | @next bound others set log outcome rest ih =>
    obtain ⟨tail, rfl, rfl⟩ := Outcome.done_of_map answered
    obtain ⟨executed, succeeded, answers, counted⟩ := ih rfl
    refine ⟨congrArg (bound.execution :: ·) executed, ?_, congrArg (set :: ·) answers, ?_⟩
    · exact all_succeed_cons rfl succeeded
    · rw [List.length_cons, List.length_cons, counted]

theorem in_turn_stopped {bounds : List Bound} {log : List Exchange}
    {outcome : Outcome (List ResultSet)} (executed : InTurn bounds log outcome)
    (stopped : outcome.isDone = false) :
    ∃ earlier last, log = earlier ++ [last] ∧ AllSucceed earlier ∧
      last.ending = outcome.ending := by
  induction executed with
  | nil => cases stopped
  | @stop bound others outcome result stops same =>
    exact ⟨[], .execute bound.sql bound.values outcome, rfl, all_succeed_nil, same.symm⟩
  | @next bound others set log outcome rest ih =>
    rw [Outcome.map_done] at stopped
    obtain ⟨earlier, last, rfl, succeeded, ends⟩ := ih stopped
    refine ⟨.execute bound.sql bound.values (.done set) :: earlier, last, rfl, ?_, ?_⟩
    · exact all_succeed_cons rfl succeeded
    · rw [ends, Outcome.ending_map]

/-! ### One run -/

def AsksRowId (reports : Bool) (set : ResultSet) : Prop :=
  reports = true → set.lastRowId = none ∧ set.rowsAffected ≠ 0

-- How the row id of an insert is settled that was answered with `set`, where the engine's answers carry
-- ids as `reports` says.
inductive Settles (op : Operation) (reports : Bool) (set : ResultSet) :
    List Exchange → Outcome Int64 → Prop where
  | carried {id : Int64} (reported : reports = true) (known : set.lastRowId = some id) :
      Settles op reports set [] (.done id)
  | unchanged (reported : reports = true) (unknown : set.lastRowId = none)
      (unaffected : set.rowsAffected = 0) :
      Settles op reports set [] (.failed (.execution (.noRowInserted op.name)))
  | told {id : Int64} (asks : AsksRowId reports set) :
      Settles op reports set [.lastRowId (.done (some id))] (.done id)
  | untold (asks : AsksRowId reports set) :
      Settles op reports set [.lastRowId (.done none)] (.failed (.execution (.noRowId op.name)))
  | stop {outcome : Outcome (Option Int64)} {result : Outcome Int64} (asks : AsksRowId reports set)
      (stops : outcome.isDone = false) (same : result.ending = outcome.ending) :
      Settles op reports set [.lastRowId outcome] result

inductive Ran (op : Operation) (reports : Bool) (first : Bound) (others : List Bound) :
    List Exchange → Outcome Output → Prop where
  | unanswered {outcome : Outcome ResultSet} {result : Outcome Output}
      (stops : outcome.isDone = false) (same : result.ending = outcome.ending) :
      Ran op reports first others [.execute first.sql first.values outcome] result
  | unsettled {set : ResultSet} {lookup : List Exchange} {outcome : Outcome Int64}
      {result : Outcome Output} (inserts : op.isInsert = true)
      (settles : op.Settles reports set lookup outcome) (stops : outcome.isDone = false)
      (same : result.ending = outcome.ending) :
      Ran op reports first others (.execute first.sql first.values (.done set) :: lookup) result
  | inserted {set : ResultSet} {lookup log : List Exchange} {id : Int64}
      {outcome : Outcome (List ResultSet)} (inserts : op.isInsert = true)
      (settles : op.Settles reports set lookup (.done id)) (rest : InTurn others log outcome) :
      Ran op reports first others (.execute first.sql first.values (.done set) :: (lookup ++ log))
        (outcome.map fun _ => .rowId id)
  | answered {set : ResultSet} {log : List Exchange} {outcome : Outcome (List ResultSet)}
      (plain : op.isInsert = false) (rest : InTurn others log outcome) :
      Ran op reports first others (.execute first.sql first.values (.done set) :: log)
        (outcome.map (op.answer set))

section Soundness

variable (op : Operation) (e : Engine σ)

theorem ask_row_id_logged {reports : Bool} {set : ResultSet} (asks : AsksRowId reports set)
    (t : Logged σ) : Adds (op.askRowId e.logged) t (op.Settles reports set) := by
  apply adds_bind (adds_record .lastRowId _ t)
  · rintro id next log - ⟨-, rfl⟩
    cases id with
    | none => exact adds_nothing rfl (.untold asks)
    | some id => exact adds_nothing rfl (.told asks)
  · rintro log outcome result ⟨-, rfl⟩ stopped same
    exact .stop asks stopped same

theorem row_id_logged (set : ResultSet) (t : Logged σ) :
    Adds (op.rowId e.logged set) t (op.Settles (e.reportsRowIds t.state) set) := by
  have looked : e.logged.reportsRowIds t = e.reportsRowIds t.state := rfl
  cases reports : e.reportsRowIds t.state with
  | false =>
    have asked : op.rowId e.logged set t = op.askRowId e.logged t := by
      simp [rowId, bind_apply, gets, looked, reports]
    exact adds_congr asked (op.ask_row_id_logged e (by simp [AsksRowId]) t)
  | true =>
    cases known : set.lastRowId with
    | some id =>
      have carried : op.rowId e.logged set t = (.done id, t) := by
        simp [rowId, bind_apply, gets, looked, reports, known, pure_apply]
      exact adds_nothing carried (.carried rfl known)
    | none =>
      by_cases unaffected : set.rowsAffected = 0
      · have refused : op.rowId e.logged set t =
            (.failed (.execution (.noRowInserted op.name)), t) := by
          simp [rowId, bind_apply, gets, looked, reports, known, unaffected, fail]
        exact adds_nothing refused (.unchanged rfl known unaffected)
      · have asked : op.rowId e.logged set t = op.askRowId e.logged t := by
          simp [rowId, bind_apply, gets, looked, reports, known, unaffected]
        exact adds_congr asked (op.ask_row_id_logged e (fun _ => ⟨known, unaffected⟩) t)

theorem run_bound_logged (first : Bound) (others : List Bound) (t : Logged σ) :
    Adds (op.runBound e.logged first others) t
      (op.Ran (e.reportsRowIds (e.execute first.sql first.values t.state).2) first others) := by
  apply adds_bind (adds_record (.execute first.sql first.values) _ t)
  · rintro set next log ran ⟨-, rfl⟩
    have state : next.state = (e.execute first.sql first.values t.state).2 :=
      (congrArg (fun result => result.2.state) ran).symm
    rw [← state]
    cases inserts : op.isInsert with
    | true =>
      simp only [if_true]
      apply adds_bind (op.row_id_logged e set next)
      · rintro id between lookup - settles
        apply adds_bind (execute_all_logged e others between)
        · rintro sets last rest - executed
          apply adds_nothing rfl
          rw [List.append_nil]
          change op.Ran _ first others (_ :: (lookup ++ rest)) _
          exact .inserted inserts settles executed
        · intro rest outcome result executed stopped same
          rw [Outcome.eq_map_of_ending (fun _ => .rowId id) stopped same]
          change op.Ran _ first others (_ :: (lookup ++ rest)) _
          exact .inserted inserts settles executed
      · intro lookup outcome result settles stopped same
        exact .unsettled inserts settles stopped same
    | false =>
      simp only [Bool.false_eq_true, if_false]
      apply adds_bind (execute_all_logged e others next)
      · rintro sets last rest - executed
        apply adds_nothing rfl
        rw [List.append_nil]
        exact .answered inserts executed
      · intro rest outcome result executed stopped same
        rw [Outcome.eq_map_of_ending (op.answer set) stopped same]
        exact .answered inserts executed
  · rintro log outcome result ⟨-, rfl⟩ stopped same
    exact .unanswered stopped same

end Soundness

/-! ### What is executed and what is answered -/

def plan (op : Operation) (p : Params) : List (String × List (Option Value)) :=
  op.statements.map fun c => (c.sql, c.params.map p.get?)

def Answers (op : Operation) (sets : List ResultSet) (output : Output) : Prop :=
  match op.category with
  | .singleInsert | .multiInsert => ∃ id, output = .rowId id
  | .singleValue => ∃ set, sets.head? = some set ∧
      output = .value (set.firstRow?.bind (·.values.head?))
  | .singleRow => ∃ set, sets.head? = some set ∧ output = .row set.firstRow?
  | .table => ∃ set, sets.head? = some set ∧ output = .table set
  | .script => output = .script sets

structure Completed (op : Operation) (p : Params) (part : List Exchange × Output) : Prop where
  executed : executions part.1 = op.plan p
  succeeded : AllSucceed part.1
  counted : (results part.1).length = op.statements.length
  answered : op.Answers (results part.1) part.2

-- The log of a run for these elements that stops before its end. All that is behind it has succeeded
-- but for the last exchange, whose error it ends with; or no row id results from the answer to an
-- insert; or the next element has no value for some name.
inductive Stopped (op : Operation) (elements : List Params) : List Exchange → Outcome Unit → Prop where
  | call {earlier : List Exchange} {last : Exchange} (succeeded : AllSucceed earlier)
      (stops : last.ending.isDone = false) : Stopped op elements (earlier ++ [last]) last.ending
  | untold {earlier : List Exchange} (inserts : op.isInsert = true)
      (succeeded : AllSucceed earlier) :
      Stopped op elements (earlier ++ [.lastRowId (.done none)])
        (.failed (.execution (.noRowId op.name)))
  | unchanged {earlier : List Exchange} {values : List Value} {set : ResultSet}
      (inserts : op.isInsert = true) (succeeded : AllSucceed earlier)
      (unknown : set.lastRowId = none) (unaffected : set.rowsAffected = 0) :
      Stopped op elements (earlier ++ [.execute op.first.sql values (.done set)])
        (.failed (.execution (.noRowInserted op.name)))
  | unbound {log : List Exchange} {before later : List Params} {p : Params} {parameter : String}
      (split : elements = before ++ p :: later) (succeeded : AllSucceed log)
      (executed : executions log = before.flatMap op.plan)
      (missing : p.firstMissing? op.paramNames = some parameter) :
      Stopped op elements log (.failed (.missingParameter op.name parameter))

section One

variable {op : Operation} {reports : Bool} {first : Bound} {others : List Bound}
  {log : List Exchange} {outcome : Outcome Output}

theorem plan_bound (op : Operation) (p : Params) (given : p.firstMissing? op.paramNames = none) :
    (op.statements.map p.boundTo).map Bound.execution = op.plan p := by
  rw [List.map_map, plan]
  apply List.map_congr_left
  intro c statement
  have complete : p.firstMissing? c.params = none := by
    rw [Params.first_missing_none_iff] at given ⊢
    exact fun name member => given name (op.param_mem_names c statement name member)
  change (c.sql, (c.params.filterMap p.get?).map some) = _
  rw [Params.values_of_bound p c.params complete]

theorem answers_insert_iff (inserts : op.isInsert = true) (sets : List ResultSet)
    (output : Output) : op.Answers sets output ↔ ∃ id, output = .rowId id := by
  unfold isInsert at inserts
  unfold Answers
  cases category : op.category with
  | singleInsert | multiInsert => exact Iff.rfl
  | singleValue | singleRow | table | script =>
    rw [category] at inserts
    cases inserts

theorem answer_answers (plain : op.isInsert = false) (set : ResultSet) (sets : List ResultSet) :
    op.Answers (set :: sets) (op.answer set sets) := by
  unfold isInsert at plain
  unfold Answers answer
  cases category : op.category with
  | singleInsert | multiInsert =>
    rw [category] at plain
    cases plain
  | singleValue | singleRow | table => exact ⟨set, rfl, rfl⟩
  | script => rfl

theorem settles_lookup {set : ResultSet} {lookup : List Exchange} {outcome : Outcome Int64}
    (settles : op.Settles reports set lookup outcome) :
    executions lookup = [] ∧ results lookup = [] ∧
      (outcome.isDone = true → AllSucceed lookup) := by
  cases settles with
  | carried | unchanged => exact ⟨rfl, rfl, fun _ => all_succeed_nil⟩
  | told asks => exact ⟨rfl, rfl, fun _ => all_succeed_cons rfl all_succeed_nil⟩
  | untold asks => exact ⟨rfl, rfl, nofun⟩
  | stop asks stops same =>
    refine ⟨rfl, rfl, fun answered => ?_⟩
    rw [Outcome.not_done_of_ending stops same] at answered
    cases answered

theorem executions_settled {set : ResultSet} {lookup : List Exchange} {result : Outcome Int64}
    (settles : op.Settles reports set lookup result) (rest : List Exchange) :
    executions (lookup ++ rest) = executions rest := by
  rw [executions_append, (settles_lookup settles).1, List.nil_append]

theorem results_settled {set : ResultSet} {lookup : List Exchange} {result : Outcome Int64}
    (settles : op.Settles reports set lookup result) (rest : List Exchange) :
    results (lookup ++ rest) = results rest := by
  rw [results_append, (settles_lookup settles).2.1, List.nil_append]

theorem ran_prefix (ran : op.Ran reports first others log outcome) :
    executions log <+: (first :: others).map Bound.execution := by
  cases ran with
  | unanswered stops same => exact List.cons_prefix_cons.mpr ⟨rfl, List.nil_prefix⟩
  | unsettled inserts settles stops same =>
    rw [executions_execute, (settles_lookup settles).1]
    exact List.cons_prefix_cons.mpr ⟨rfl, List.nil_prefix⟩
  | inserted inserts settles executed =>
    rw [executions_execute, executions_settled settles]
    exact List.cons_prefix_cons.mpr ⟨rfl, in_turn_prefix executed⟩
  | answered plain executed => exact List.cons_prefix_cons.mpr ⟨rfl, in_turn_prefix executed⟩

theorem ran_done {output : Output} (ran : op.Ran reports first others log (.done output)) :
    executions log = (first :: others).map Bound.execution ∧ AllSucceed log ∧
      (results log).length = others.length + 1 ∧ op.Answers (results log) output := by
  generalize ended : Outcome.done output = outcome at ran
  cases ran with
  | unanswered stops same | unsettled inserts settles stops same =>
    exact absurd ended.symm (Outcome.ne_done_of_ending stops same output)
  | @inserted set lookup rest id answer inserts settles executed =>
    obtain ⟨sets, rfl, rfl⟩ := Outcome.done_of_map ended.symm
    obtain ⟨all, succeeded, answers, counted⟩ := in_turn_done executed rfl
    obtain ⟨-, -, settled⟩ := settles_lookup settles
    rw [executions_execute, executions_settled settles, all, results_execute,
      results_settled settles, answers]
    refine ⟨rfl, ?_, congrArg (· + 1) counted, ?_⟩
    · exact all_succeed_cons rfl (all_succeed_append (settled rfl) succeeded)
    · exact (answers_insert_iff inserts _ _).mpr ⟨id, rfl⟩
  | @answered set rest answer plain executed =>
    obtain ⟨sets, rfl, rfl⟩ := Outcome.done_of_map ended.symm
    obtain ⟨all, succeeded, answers, counted⟩ := in_turn_done executed rfl
    rw [executions_execute, all, results_execute, answers]
    refine ⟨rfl, all_succeed_cons rfl succeeded, congrArg (· + 1) counted, ?_⟩
    exact answer_answers plain set sets

theorem ran_stopped (elements : List Params) (sql : first.sql = op.first.sql)
    (ran : op.Ran reports first others log outcome) (stopped : outcome.isDone = false) :
    op.Stopped elements log outcome.ending := by
  -- Whatever comes first succeeds; what stops the run is at the end.
  have call {earlier : List Exchange} {last : Exchange} (succeeded : AllSucceed earlier)
      (ends : last.ending = outcome.ending) :
      op.Stopped elements (earlier ++ [last]) outcome.ending := by
    rw [← ends]
    apply Stopped.call succeeded
    rw [ends, Outcome.ending_done, stopped]
  cases ran with
  | unanswered stops same => exact call all_succeed_nil same.symm
  | @unsettled set lookup settled result inserts settles stops same =>
    have head : AllSucceed [.execute first.sql first.values (.done set)] :=
      all_succeed_cons rfl all_succeed_nil
    cases settles with
    | carried | told => cases stops
    | unchanged reported unknown unaffected =>
      rw [same, sql]
      change op.Stopped elements ([] ++ [_]) _
      exact .unchanged inserts all_succeed_nil unknown unaffected
    | untold asks =>
      rw [same]
      exact .untold inserts head
    | stop asks broken ends =>
      exact call head (ends.symm.trans same.symm)
  | @inserted set lookup rest id answer inserts settles executed =>
    rw [Outcome.map_done] at stopped
    obtain ⟨earlier, last, rfl, succeeded, ends⟩ := in_turn_stopped executed stopped
    obtain ⟨-, -, settled⟩ := settles_lookup settles
    have behind := all_succeed_append (settled rfl) succeeded
    rw [← List.append_assoc]
    exact call (all_succeed_cons rfl behind) (ends.trans (Outcome.ending_map _ _).symm)
  | @answered set rest answer plain executed =>
    rw [Outcome.map_done] at stopped
    obtain ⟨earlier, last, rfl, succeeded, ends⟩ := in_turn_stopped executed stopped
    exact call (all_succeed_cons rfl succeeded) (ends.trans (Outcome.ending_map _ _).symm)

end One

/-! ### All elements -/

structure AccountsOne (op : Operation) (p : Params) (log : List Exchange)
    (outcome : Outcome Output) : Prop where
  ordered : executions log <+: op.plan p
  done : ∀ output, outcome = .done output → op.Completed p (log, output)
  stopped : outcome.isDone = false → ∀ later, op.Stopped (p :: later) log outcome.ending

structure Accounts (op : Operation) (elements : List Params) (log : List Exchange)
    (outcome : Outcome (List Output)) : Prop where
  ordered : executions log <+: elements.flatMap op.plan
  done : ∀ outputs, outcome = .done outputs → ∃ parts, List.Forall₂ op.Completed elements parts ∧
    log = parts.flatMap (·.1) ∧ outputs = parts.map (·.2)
  stopped : outcome.isDone = false → op.Stopped elements log outcome.ending

def Scriptless (log : List Exchange) : Prop := ∀ x ∈ log, x.isScript = false

section Accounts

variable {op : Operation} {p : Params} {elements : List Params} {log rest : List Exchange}

theorem stopped_behind {part : List Exchange × Output} {outcome : Outcome Unit}
    (head : op.Completed p part) (stops : op.Stopped elements rest outcome) :
    op.Stopped (p :: elements) (part.1 ++ rest) outcome := by
  cases stops with
  | call succeeded stops =>
    rw [← List.append_assoc]
    exact .call (all_succeed_append head.succeeded succeeded) stops
  | untold inserts succeeded =>
    rw [← List.append_assoc]
    exact .untold inserts (all_succeed_append head.succeeded succeeded)
  | unchanged inserts succeeded unknown unaffected =>
    rw [← List.append_assoc]
    exact .unchanged inserts (all_succeed_append head.succeeded succeeded) unknown unaffected
  | @unbound log before later q parameter split succeeded executed missing =>
    have more : p :: elements = (p :: before) ++ q :: later := congrArg (p :: ·) split
    refine .unbound more (all_succeed_append head.succeeded succeeded) ?_ missing
    rw [executions_append, head.executed, executed, List.flatMap_cons]

theorem accounts_nil : op.Accounts [] [] (.done []) where
  ordered := List.prefix_refl _
  done outputs answered := by
    cases answered
    exact ⟨[], .nil, rfl, rfl⟩
  stopped := nofun

theorem accounts_next {output : Output} {outcome : Outcome (List Output)}
    (head : op.Completed p (log, output)) (tail : op.Accounts elements rest outcome) :
    op.Accounts (p :: elements) (log ++ rest) (outcome.map (output :: ·)) where
  ordered := by
    rw [executions_append, head.executed, List.flatMap_cons]
    exact (List.prefix_append_right_inj _).mpr tail.ordered
  done outputs answered := by
    obtain ⟨others, rfl, rfl⟩ := Outcome.done_of_map answered
    obtain ⟨parts, completed, rfl, rfl⟩ := tail.done others rfl
    exact ⟨(log, output) :: parts, .cons head completed, rfl, rfl⟩
  stopped unanswered := by
    rw [Outcome.map_done] at unanswered
    rw [Outcome.ending_map]
    exact stopped_behind head (tail.stopped unanswered)

theorem accounts_stop {outcome : Outcome Output} {result : Outcome (List Output)}
    (head : op.AccountsOne p log outcome) (stops : outcome.isDone = false)
    (same : result.ending = outcome.ending) : op.Accounts (p :: elements) log result where
  ordered := head.ordered.trans (List.prefix_append _ _)
  done outputs answered := absurd answered (Outcome.ne_done_of_ending stops same outputs)
  stopped _ := by
    rw [same]
    exact head.stopped stops elements

end Accounts

variable (op : Operation) (e : Engine σ)

theorem run_statements_logged (p : Params) (t : Logged σ) :
    Adds (op.runStatements e.logged p) t (op.AccountsOne p) := by
  rw [run_statements_eq]
  cases missing : p.firstMissing? op.paramNames with
  | some parameter =>
    apply adds_nothing rfl
    refine ⟨List.nil_prefix, nofun, fun _ later => ?_⟩
    exact .unbound (List.nil_append _).symm all_succeed_nil rfl missing
  | none =>
    obtain ⟨log, grown, ran⟩ :=
      op.run_bound_logged e (p.boundTo op.first) (op.others.map p.boundTo) t
    have bound := op.plan_bound p missing
    refine ⟨log, grown, ?_, ?_, ?_⟩
    · rw [← bound]
      exact ran_prefix ran
    · intro output answered
      rw [answered] at ran
      obtain ⟨executed, succeeded, counted, answers⟩ := ran_done ran
      rw [List.length_map] at counted
      exact ⟨executed.trans bound, succeeded, counted, answers⟩
    · exact fun stopped later => ran_stopped (p :: later) rfl ran stopped

theorem run_for_logged (p : Params) (t : Logged σ) :
    Adds (op.runFor e.logged p) t fun log outcome => Scriptless log → op.AccountsOne p log outcome := by
  rcases op.run_for_cases p e.logged t with ⟨-, same⟩ | ⟨text, -, -, native⟩
  · obtain ⟨log, grown, accounts⟩ := op.run_statements_logged e p t
    exact adds_congr same ⟨log, grown, fun _ => accounts⟩
  · have unplain {outcome : Outcome (List ResultSet)} {more : List Exchange} {result : Outcome Output}
        (plain : Scriptless (.executeScript text outcome :: more)) :
        op.AccountsOne p (.executeScript text outcome :: more) result := by
      have script := plain _ List.mem_cons_self
      cases script
    apply adds_congr native
    apply adds_bind (adds_record (.executeScript text) _ t)
    · rintro sets next log - ⟨-, rfl⟩
      exact adds_nothing rfl unplain
    · rintro log outcome result ⟨-, rfl⟩ stopped same
      exact unplain

theorem each_run_logged (elements : List Params) (t : Logged σ) :
    Adds (each (op.runFor e.logged) elements) t fun log outcome =>
      Scriptless log → op.Accounts elements log outcome := by
  induction elements generalizing t with
  | nil => exact adds_nothing rfl fun _ => accounts_nil
  | cons p elements ih =>
    apply adds_bind (op.run_for_logged e p t)
    · rintro output next log - head
      have split {rest : List Exchange} (plain : Scriptless (log ++ rest)) : Scriptless log ∧ Scriptless rest :=
        List.forall_mem_append.mp plain
      apply adds_bind (ih next)
      · rintro outputs last rest - tail
        apply adds_nothing rfl
        intro plain
        rw [List.append_nil] at plain ⊢
        obtain ⟨first, second⟩ := split plain
        exact accounts_next ((head first).done output rfl) (tail second)
      · intro rest outcome result tail stopped same plain
        obtain ⟨first, second⟩ := split plain
        rw [Outcome.eq_map_of_ending (output :: ·) stopped same]
        exact accounts_next ((head first).done output rfl) (tail second)
    · intro log outcome result head stopped same plain
      exact accounts_stop (head plain) stopped same

theorem run_logged (op : Operation) (e : Engine σ) (args : Arguments) (t : Logged σ) :
    Adds (op.run e.logged args) t fun log outcome => Scriptless log →
      executions log <+: args.elements.flatMap op.plan ∧
      (outcome.isDone = false → op.Stopped args.elements log outcome.ending) ∧
      ∀ output, outcome = .done output → ∃ parts, List.Forall₂ op.Completed args.elements parts ∧
        log = parts.flatMap (·.1) ∧ args.Wraps (parts.map (·.2)) output := by
  cases args with
  | single p =>
    obtain ⟨log, grown, accounts⟩ := op.run_for_logged e p t
    refine ⟨log, grown, fun plain => ?_⟩
    obtain ⟨ordered, done, stopped⟩ := accounts plain
    have only : Arguments.elements (.single p) = [p] := rfl
    rw [only, List.flatMap_singleton]
    refine ⟨ordered, fun unanswered => stopped unanswered [], fun output answered => ?_⟩
    refine ⟨[(log, output)], .cons (done output answered) .nil, ?_, rfl⟩
    exact (List.append_nil log).symm
  | batch all =>
    apply adds_bind (op.each_run_logged e all t)
    · rintro outputs next log - accounts
      apply adds_nothing rfl
      intro plain
      rw [List.append_nil] at plain ⊢
      obtain ⟨ordered, done, -⟩ := accounts plain
      refine ⟨ordered, nofun, fun output answered => ?_⟩
      cases answered
      obtain ⟨parts, completed, logged, rfl⟩ := done outputs rfl
      exact ⟨parts, completed, logged, rfl⟩
    · intro log outcome result accounts stopped same plain
      obtain ⟨ordered, -, stops⟩ := accounts plain
      refine ⟨ordered, fun _ => ?_, fun output answered => ?_⟩
      · rw [same]
        exact stops stopped
      · exact absurd answered (Outcome.ne_done_of_ending stopped same output)

theorem completed_log {op : Operation} {elements : List Params}
    {parts : List (List Exchange × Output)} (completed : List.Forall₂ op.Completed elements parts) :
    executions (parts.flatMap (·.1)) = elements.flatMap op.plan ∧
      AllSucceed (parts.flatMap (·.1)) := by
  induction completed with
  | nil => exact ⟨rfl, all_succeed_nil⟩
  | cons head rest ih =>
    obtain ⟨executed, succeeded⟩ := ih
    rw [List.flatMap_cons, List.flatMap_cons, executions_append, head.executed, executed]
    exact ⟨rfl, all_succeed_append head.succeeded succeeded⟩

theorem completed_ids {op : Operation} {elements : List Params}
    {parts : List (List Exchange × Output)} (inserts : op.isInsert = true)
    (completed : List.Forall₂ op.Completed elements parts) :
    ∃ ids : List Int64, parts.map (·.2) = ids.map .rowId ∧ ids.length = elements.length := by
  induction completed with
  | nil => exact ⟨[], rfl, rfl⟩
  | cons head rest ih =>
    obtain ⟨ids, outputs, counted⟩ := ih
    obtain ⟨id, given⟩ := (answers_insert_iff inserts _ _).mp head.answered
    refine ⟨id :: ids, ?_, congrArg (· + 1) counted⟩
    rw [List.map_cons, List.map_cons, given, outputs]

-- A run that hands no script over in one piece. Its executions are a beginning of the statements of
-- every element, each with what its own markers stand for. If it is not answered it has stopped at
-- the first thing that failed. If it is, all statements have been executed, and the output is made of
-- one output for each element, of the kind that the category has.
theorem run_log (op : Operation) (e : Engine σ) (args : Arguments) (s : σ)
    (plain : Scriptless (op.run e.logged args ⟨s, []⟩).2.log) :
    let ran := op.run e.logged args ⟨s, []⟩
    executions ran.2.log <+: args.elements.flatMap op.plan ∧
    (ran.1.isDone = false → op.Stopped args.elements ran.2.log ran.1.ending) ∧
    ∀ output, ran.1 = .done output →
      executions ran.2.log = args.elements.flatMap op.plan ∧ AllSucceed ran.2.log ∧
      ∃ parts, List.Forall₂ op.Completed args.elements parts ∧
        ran.2.log = parts.flatMap (·.1) ∧ args.Wraps (parts.map (·.2)) output ∧
        (op.isInsert = true → ∃ ids, parts.map (·.2) = ids.map .rowId ∧
          output.rowIds? = some ids ∧ ids.length = args.elements.length) := by
  intro ran
  obtain ⟨log, grown, accounts⟩ := op.run_logged e args ⟨s, []⟩
  have same : ran.2.log = log := grown
  rw [same]
  obtain ⟨ordered, stopped, done⟩ := accounts (same ▸ plain)
  refine ⟨ordered, stopped, fun output answered => ?_⟩
  obtain ⟨parts, completed, rfl, wraps⟩ := done output answered
  obtain ⟨executed, succeeded⟩ := completed_log completed
  refine ⟨executed, succeeded, parts, completed, rfl, wraps, fun inserts => ?_⟩
  obtain ⟨ids, outputs, counted⟩ := completed_ids inserts completed
  rw [outputs] at wraps
  exact ⟨ids, outputs, args.wraps_row_ids ids output wraps, counted⟩

end Operation

def counting : Scripted.Behaviour := { silent with rowIds := .counted }

namespace Operation

open Engine

def enlist : Operation where
  name := "enlist"
  category := .multiInsert
  style := .sqlite
  first := ⟨"INSERT INTO t (v) VALUES (?1)", ["v"]⟩
  others := [⟨"INSERT INTO u (v) VALUES (?1)", ["v"]⟩]
  script := none
  script_bare := by simp

theorem run_log_enlist :
    let p := Params.empty.insert "v" (.int 5)
    let q := Params.empty.insert "v" (.int 6)
    let ran := enlist.run Scripted.engine.logged (.batch [p, q]) ⟨Scripted.start counting, []⟩
    Scriptless ran.2.log ∧ ran.1 = .done (.batch [.rowId 1, .rowId 3]) ∧
    executions ran.2.log =
      [("INSERT INTO t (v) VALUES (?1)", [some (.int 5)]),
        ("INSERT INTO u (v) VALUES (?1)", [some (.int 5)]),
        ("INSERT INTO t (v) VALUES (?1)", [some (.int 6)]),
        ("INSERT INTO u (v) VALUES (?1)", [some (.int 6)])] := by
  intro p q ran
  have plain : Scriptless ran.2.log := by
    have none : ran.2.log.all (fun x => !x.isScript) = true := by cbv
    simpa [Scriptless] using none
  obtain ⟨-, -, done⟩ := run_log enlist Scripted.engine (.batch [p, q]) (Scripted.start counting) plain
  have answered : ran.1 = .done (.batch [.rowId 1, .rowId 3]) := by cbv
  obtain ⟨executed, -⟩ := done _ answered
  exact ⟨plain, answered, executed⟩

end Operation
end SqlCatalog
