import SqlCatalog.Proofs.Calling
import SqlCatalog.Proofs.RunLog
/-!
The row id of an insert is settled behind its first statement and before its second: carried by the
answer to the first, or asked for once. What comes after it can fail the run, but not change the id
(`row_id_settled`).
-/
namespace SqlCatalog

open Engine

variable {σ ν : Type}

namespace Operation

def settledId? : Outcome ResultSet → List Exchange → Option Int64
  | .done set, [] => set.lastRowId
  | .done _, [.lastRowId (.done id)] => id
  | _, _ => none

-- What comes behind the first statement of an insert, where the answers of the engine carry ids as
-- `reports` says: `lookup` and then `rest`, and how the run ends.
structure SettledFirst (reports : Bool) (others : List Bound) (answer : Outcome ResultSet)
    (lookup rest : List Exchange) (outcome : Outcome Output) : Prop where
  once : lookup = [] ∨ ∃ told, lookup = [.lastRowId told]
  asked : lookup ≠ [] ↔ ∃ set, answer = .done set ∧
    (reports = true → set.lastRowId = none ∧ set.rowsAffected ≠ 0)
  executed : rest.map Exchange.execution? <+: others.map fun bound => some bound.execution
  untold : settledId? answer lookup = none → rest = [] ∧ outcome.isDone = false
  told : ∀ output, outcome = .done output →
    ∃ id, settledId? answer lookup = some id ∧ output = .rowId id

section Settled

variable {op : Operation} {reports : Bool} {first : Bound} {others : List Bound}
  {set : ResultSet} {answer : Outcome ResultSet} {lookup rest log : List Exchange}
  {outcome : Outcome Output} {settled : Outcome Int64}

theorem settles_id_iff (settles : op.Settles reports set lookup settled) (id : Int64) :
    settledId? (.done set) lookup = some id ↔ settled = .done id := by
  cases settles with
  | carried reported known => simp [settledId?, known]
  | unchanged reported unknown unaffected => simp [settledId?, unknown]
  | told asks => simp [settledId?]
  | untold asks => simp [settledId?]
  | @stop told result asks stops same =>
    have untold := Outcome.ne_done_of_ending stops same id
    cases told with
    | done id => cases stops
    | failed | crashed => simp [settledId?, untold]

theorem settles_once (settles : op.Settles reports set lookup settled) :
    lookup = [] ∨ ∃ told, lookup = [.lastRowId told] := by
  cases settles with
  | carried | unchanged => exact .inl rfl
  | told | untold | stop => exact .inr ⟨_, rfl⟩

theorem settles_asks_iff (settles : op.Settles reports set lookup settled) :
    lookup ≠ [] ↔ AsksRowId reports set := by
  cases settles with
  | carried reported known => simp [AsksRowId, reported, known]
  | unchanged reported unknown unaffected => simp [AsksRowId, reported, unaffected]
  | told asks | untold asks | stop asks => simp [asks]

theorem settles_asked_iff (settles : op.Settles reports set lookup settled) :
    lookup ≠ [] ↔ ∃ given, Outcome.done set = .done given ∧
      (reports = true → given.lastRowId = none ∧ given.rowsAffected ≠ 0) := by
  rw [settles_asks_iff settles]
  simp [AsksRowId]

theorem ran_settled (inserts : op.isInsert = true)
    (ran : op.Ran reports first others log outcome) :
    ∃ answer lookup rest, log = .execute first.sql first.values answer :: (lookup ++ rest) ∧
      SettledFirst reports others answer lookup rest outcome := by
  cases ran with
  | @unanswered answer result stops same =>
    refine ⟨answer, [], [], rfl, .inl rfl, ?_, List.nil_prefix,
      fun _ => ⟨rfl, Outcome.not_done_of_ending stops same⟩, ?_⟩
    · constructor
      · intro asked
        exact absurd rfl asked
      · rintro ⟨set, rfl, -⟩
        cases stops
    · exact fun output answered => absurd answered (Outcome.ne_done_of_ending stops same output)
  | @unsettled set lookup settled result _ settles stops same =>
    refine ⟨.done set, lookup, [], by rw [List.append_nil], settles_once settles, ?_,
      List.nil_prefix, fun _ => ⟨rfl, Outcome.not_done_of_ending stops same⟩, ?_⟩
    · exact settles_asked_iff settles
    · exact fun output answered => absurd answered (Outcome.ne_done_of_ending stops same output)
  | @inserted set lookup rest id sets _ settles executed =>
    have known := (settles_id_iff settles id).mpr rfl
    refine ⟨.done set, lookup, rest, rfl, settles_once settles, ?_, in_turn_executions executed,
      fun unknown => ?_, fun output answered => ⟨id, known, ?_⟩⟩
    · exact settles_asked_iff settles
    · rw [known] at unknown
      cases unknown
    · obtain ⟨_, -, rfl⟩ := Outcome.done_of_map answered
      rfl
  | answered plain rest =>
    rw [inserts] at plain
    cases plain

end Settled

theorem insert_script (name : String) (l : StatementList) (style : PlaceholderStyle)
    (inserts : (ofStatements name l style).isInsert = true) :
    (ofStatements name l style).script = none := by
  have category : Category.ofStatements l ≠ .script := by
    intro script
    change (Category.ofStatements l).isInsert = true at inserts
    rw [script] at inserts
    cases inserts
  simp [ofStatements, category]

theorem run_insert_logged (op : Operation) (e : Engine σ) (p : Params) (t : Logged σ)
    (bare : op.script = none) (given : p.firstMissing? op.paramNames = none) :
    Action.Adds (op.run e.logged (.single p)) t
      (op.Ran (e.reportsRowIds (e.execute (p.boundTo op.first).sql (p.boundTo op.first).values
        t.state).2) (p.boundTo op.first) (op.others.map p.boundTo)) := by
  rw [run, run_for_bare op p e.logged bare, run_statements_eq, given]
  exact op.run_bound_logged e (p.boundTo op.first) (op.others.map p.boundTo) t

theorem settled_lookup_unique {reports : Bool} {others : List Bound}
    {answer : Outcome ResultSet} {lookup rest more : List Exchange} {other : List Exchange}
    {outcome result : Outcome Output}
    (one : SettledFirst reports others answer lookup rest outcome)
    (two : SettledFirst reports others answer other more result)
    (alike : lookup <+: other ++ more) : lookup = other := by
  have asked : lookup ≠ [] ↔ other ≠ [] := one.asked.trans two.asked.symm
  rcases one.once with rfl | ⟨told, rfl⟩
  · rcases two.once with rfl | ⟨answer, rfl⟩
    · rfl
    · exact absurd rfl (asked.mpr (List.cons_ne_nil _ _))
  · rcases two.once with rfl | ⟨answer, rfl⟩
    · exact absurd rfl (asked.mp (List.cons_ne_nil _ _))
    · obtain ⟨same, -⟩ := List.cons_prefix_cons.mp alike
      rw [same]

theorem settled_lookup_told {reports : Bool} {others : List Bound} {answer : Outcome ResultSet}
    {lookup rest more : List Exchange} {outcome : Outcome Output}
    {told : Outcome (Option Int64)} (settled : SettledFirst reports others answer lookup rest outcome)
    (log : lookup ++ rest = .lastRowId told :: more) : lookup = [.lastRowId told] := by
  rcases settled.once with rfl | ⟨asked, rfl⟩
  · have executed := settled.executed
    rw [List.nil_append] at log
    rw [log] at executed
    cases others with
    | nil => cases List.prefix_nil.mp executed
    | cons bound others => cases (List.cons_prefix_cons.mp executed).1
  · cases log
    rfl

end Operation

namespace Catalog

theorem call_rolled_back (e : Engine σ) (files : FileView) (name : String) (p : Params)
    (c found : Catalog (Logged σ) ν) (op : Operation)
    (known : operation files name c = (.done op, found)) (idle : c.scope = .idle)
    (accepted : ¬ Session.Refused e.logged found)
    (fails : (op.run e.logged (.single p) (Session.opened e.logged found).connection).1.isDone =
      false) :
    (call e.logged files name (.single p) c).1.isDone = false ∧
      ∃ result, (call e.logged files name (.single p) c).2.connection.log =
        (op.run e.logged (.single p) (Session.opened e.logged found).connection).2.log ++
          [.rollback result] := by
  have free : found.scope = .idle := by
    rw [← idle, ← (operation_connection files name c).2, known]
  rw [call_transaction e.logged files name (.single p) c found op known (by simp),
    Session.transaction_opened e.logged _ found free accepted]
  have stops : (Session.onConnection (op.run e.logged (.single p))
      (Session.opened e.logged found)).1.isDone = false := fails
  obtain ⟨same, undone⟩ := Session.close_scope_undone e.logged _
    (Session.onConnection (op.run e.logged (.single p)) (Session.opened e.logged found)).2 stops
  rw [same, undone]
  exact ⟨fails, _, rfl⟩

end Catalog

namespace Operation

-- One run of an insert whose markers all have values, on any engine that is logged. The id depends on
-- the exchanges up to the settling alone.
theorem row_id_settled (name : String) (l : StatementList) (style : PlaceholderStyle) (p : Params)
    (e : Engine σ) (t : Logged σ) (inserts : (ofStatements name l style).isInsert = true)
    (binds : ∀ key ∈ (ofStatements name l style).paramNames, p.get? key ≠ none) :
    let op := ofStatements name l style
    let first := p.boundTo op.first
    let ran := op.run e.logged (.single p) t
    let reports := e.reportsRowIds (e.execute first.sql first.values t.state).2
    ∃ answer lookup rest,
      ran.2.log = t.log ++ .execute first.sql first.values answer :: (lookup ++ rest) ∧
      SettledFirst reports (op.others.map p.boundTo) answer lookup rest ran.1 ∧
      -- Without an id the scope of the call is rolled back.
      (settledId? answer lookup = none →
        ∀ (ν : Type) (files : FileView) (key : String) (c found : Catalog (Logged σ) ν),
          Catalog.operation files key c = (.done op, found) → c.scope = .idle →
          ¬ Session.Refused e.logged found → (Session.opened e.logged found).connection = t →
          (Catalog.call e.logged files key (.single p) c).1.isDone = false ∧
          ∃ result, (Catalog.call e.logged files key (.single p) c).2.connection.log =
            ran.2.log ++ [.rollback result]) ∧
      -- Another engine that has begun like this one gives the same id.
      ∀ (τ : Type) (other : Engine τ) (u : Logged τ),
        other.reportsRowIds (other.execute first.sql first.values u.state).2 = reports →
        u.log ++ .execute first.sql first.values answer :: lookup <+:
          (op.run other.logged (.single p) u).2.log →
        ∀ output result, ran.1 = .done output →
          (op.run other.logged (.single p) u).1 = .done result → result = output := by
  intro op first ran reports
  have bare := insert_script name l style inserts
  have given := (p.first_missing_none_iff op.paramNames).mpr binds
  obtain ⟨log, grown, account⟩ := op.run_insert_logged e p t bare given
  obtain ⟨answer, lookup, rest, rfl, settled⟩ := ran_settled inserts account
  refine ⟨answer, lookup, rest, grown, settled, ?_, ?_⟩
  · rintro untold ν files key c found known idle accepted rfl
    exact Catalog.call_rolled_back e files key p c found op known idle accepted
      (settled.untold untold).2
  · intro τ other u sameReports begins output result answered also
    obtain ⟨more, added, told⟩ := op.run_insert_logged other p u bare given
    obtain ⟨reply, question, tail, rfl, second⟩ := ran_settled inserts told
    rw [added, List.prefix_append_right_inj] at begins
    obtain ⟨same, alike⟩ := List.cons_prefix_cons.mp begins
    cases same
    have second : SettledFirst reports (op.others.map p.boundTo) answer question tail
        (op.run other.logged (.single p) u).1 := by
      rw [← sameReports]
      exact second
    have asked := settled_lookup_unique settled second alike
    obtain ⟨id, known, rfl⟩ := settled.told output answered
    obtain ⟨again, found, rfl⟩ := second.told result also
    rw [asked, found] at known
    cases known
    rfl

def intoTable (table : String) : Statement where
  tokens := [.word "INSERT" none, .blank .space, .word "INTO" none, .blank .space, .word table none,
    .blank .space, .leftParen, .word "v" none, .rightParen, .blank .space, .word "VALUES" none,
    .blank .space, .leftParen, .colon, .word "v" none, .rightParen]
  tokens_squeezed := rfl
  tokens_ne_nil := by simp

def enlistStatements : StatementList := ⟨"enlist", [intoTable "t", intoTable "u"], by simp⟩

theorem enlist_compiles : ofStatements "enlist" enlistStatements .sqlite = enlist := by
  decide +kernel

def enlisting (behaviour : Scripted.Behaviour) : Catalog (Logged Scripted.State) Unit :=
  let inventory := Inventory.empty ⟨.sqlite, .sqlite⟩ none
  Session.start ⟨Scripted.start behaviour, []⟩
    ⟨{ inventory with entries := inventory.entries.insert "enlist" (.compiled enlist) }, .standard, ()⟩

def unvarying : Scripted.Behaviour := { silent with rowIds := .always 1 }

theorem row_id_settled_enlist :
    let op := ofStatements "enlist" enlistStatements .sqlite
    let p := Params.empty.insert "v" (.int 5)
    let e := Scripted.engine.logged
    let counted := op.run e (.single p) ⟨Scripted.start counting, []⟩
    let same := op.run e (.single p) ⟨Scripted.start unvarying, []⟩
    let untold := Catalog.call e .empty "enlist" (.single p) (enlisting silent)
    op.isInsert = true ∧ (∀ key ∈ op.paramNames, p.get? key ≠ none) ∧
    counted.1 = .done (.rowId 1) ∧ same.1.isDone = true ∧ same.1 = counted.1 ∧
    untold.1.isDone = false ∧
    ∃ result, untold.2.connection.log = [.execute "INSERT INTO t (v) VALUES (?1)" [.int 5]
      (.done (.affected 0 none)), .lastRowId (.done none), .rollback result] := by
  intro op p e counted same untold
  have inserts : op.isInsert = true := by
    simp only [op, enlist_compiles]
    rfl
  have binds : ∀ key ∈ op.paramNames, p.get? key ≠ none := by
    simp only [op, enlist_compiles]
    decide
  have answered : counted.1 = .done (.rowId 1) := by
    simp only [counted, op, enlist_compiles]
    cbv
  have also : same.1.isDone = true := by
    simp only [same, op, enlist_compiles]
    cbv
  have alike : same.2.log = counted.2.log := by
    simp only [same, counted, op, enlist_compiles]
    cbv
  have silently : (op.run e (.single p) ⟨Scripted.start silent, []⟩).2.log =
      [.execute "INSERT INTO t (v) VALUES (?1)" [.int 5] (.done (.affected 0 none)),
        .lastRowId (.done none)] := by
    simp only [op, enlist_compiles]
    cbv
  refine ⟨inserts, binds, answered, also, ?_, ?_⟩
  · obtain ⟨answer, lookup, rest, log, -, -, agrees⟩ :=
      row_id_settled "enlist" enlistStatements .sqlite p Scripted.engine
        ⟨Scripted.start counting, []⟩ inserts binds
    obtain ⟨result, ended⟩ := (Outcome.is_done_iff same.1).mp also
    have equal := agrees _ Scripted.engine ⟨Scripted.start unvarying, []⟩ rfl
      ⟨rest, log.symm.trans alike.symm⟩ _ result answered ended
    rw [ended, answered, equal]
  · obtain ⟨answer, lookup, rest, log, settled, undone, -⟩ :=
      row_id_settled "enlist" enlistStatements .sqlite p Scripted.engine
        ⟨Scripted.start silent, []⟩ inserts binds
    obtain ⟨-, behind⟩ := List.cons_eq_cons.mp (silently.symm.trans log)
    have asked := settled_lookup_told settled behind.symm
    have unknown : settledId? answer lookup = none := by
      rw [asked]
      cases answer <;> rfl
    have known : Catalog.operation .empty "enlist" (enlisting silent) =
        (.done op, enlisting silent) := by
      simp only [op, enlist_compiles]
      rfl
    have accepted : ¬ Session.Refused e (enlisting silent) := fun refused => by cases refused.1
    obtain ⟨fails, result, undoing⟩ := undone unknown Unit .empty "enlist" (enlisting silent) _
      known rfl accepted rfl
    rw [silently] at undoing
    exact ⟨fails, result, undoing⟩

end Operation
end SqlCatalog
