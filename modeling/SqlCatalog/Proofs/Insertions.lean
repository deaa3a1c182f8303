import SqlCatalog.Proofs.Atomicity
import SqlCatalog.Proofs.InsertionTexts
/-!
The row id that a call of an insertion is answered with. It is the id of the last row that the
statement has inserted, but for two kinds of statements: one that returns rows and whose last row has
the id 0 is taken for one without an id, and one that inserts none and updates rows instead is
answered with the id of an earlier insertion (`insertion_answered_iff`).
-/
namespace SqlCatalog

open Database Session SqlCatalog.Action

variable {σ ρ γ π τ ν α : Type}

theorem ResultSet.add_rows_affected (rows : List (List Value)) (set : ResultSet) :
    (rows.foldl addRow set).rowsAffected = set.rowsAffected + rows.length := by
  induction rows generalizing set with
  | nil => rfl
  | cons row rest ih =>
    rw [List.foldl_cons, ih, List.length_cons]
    change set.rowsAffected + 1 + rest.length = _
    omega

theorem Session.close_scope_outcome (e : Engine σ) (outcome : Outcome α) (s : Session σ ρ) :
    match (closeScope e outcome s).1 with
    | .done a => outcome = .done a
    | .failed failure => outcome = .failed failure ∨
        (outcome.isDone = true ∧ (e.commit s.connection).1 = .failed failure)
    | .crashed text => outcome = .crashed text ∨
        (outcome.isDone = true ∧ (e.commit s.connection).1 = .crashed text) := by
  cases outcome with
  | done a =>
    rcases committed : e.commit s.connection with ⟨result, connection⟩
    cases result with
    | done =>
      simp only [closeScope, commit_scope_done e s connection committed]
    | failed failure =>
      simp only [closeScope, commit_scope_failed e s failure connection committed]
      exact .inr ⟨rfl, trivial⟩
    | crashed text =>
      simp only [closeScope, commit_scope_crashed e s text connection committed]
      exact .inr ⟨rfl, trivial⟩
  | failed failure => exact .inl rfl
  | crashed text => exact .inl rfl

namespace Database

namespace Answer

def returning : Answer → Bool
  | .rows _ _ => true
  | .changed => false

def count (d : Driver γ π) (after : γ) : Answer → Nat
  | .rows _ all => all.length
  | .changed => d.changes after

end Answer

structure Inserted (d : Driver γ π) (saved : γ → Option τ) (ids : List Int64) (updated : Nat)
    (c after : γ) (sql : String) (answer : Answer) : Prop where
  spelled : isInsertion sql = true
  still : saved after = saved c
  counted : answer.count d after = ids.length + updated
  last : d.lastRowId after = ids.getLast?.getD (d.lastRowId c)

-- What is known of insertions: changes are counted, those that an insertion makes to present rows
-- too, and the id of the row that was inserted last is kept. `inserted` and `updated` tell what a
-- statement does that is run.
structure Inserts (d : Driver γ π) (saved : γ → Option τ)
    (inserted : γ → π → List Cell → List Int64) (updated : γ → π → List Cell → Nat) : Prop where
  begin_alone : ∀ c after, d.runText c "BEGIN" = (.ok (), after) → d.autocommit c = true
  run_done : ∀ c after sql statement cells answer, BeginsInsert sql → d.read sql = .ok statement →
    d.run c statement cells = (.ok answer, after) →
    Inserted d saved (inserted c statement cells) (updated c statement cells) c after sql answer

end Database

namespace Operation

def rowAnswer (name : String) (returning : Bool) (count : Nat) (last : Int64) : Outcome Int64 :=
  if count = 0 then .failed (.execution (.noRowInserted name))
  else if returning = true ∧ last = 0 then .failed (.execution (.noRowId name))
  else .done last

theorem ask_row_id_answer (op : Operation) (d : Driver γ π) (h : Attached γ) :
    op.askRowId d.engine h =
      (if d.lastRowId h.connection = 0 then .failed (.execution (.noRowId op.name))
        else .done (d.lastRowId h.connection), h) := by
  have asked : d.engine.lastRowId h =
      (.done (if d.lastRowId h.connection = 0 then none else some (d.lastRowId h.connection)), h) :=
    rfl
  rw [askRowId, bind_apply, asked]
  by_cases unset : d.lastRowId h.connection = 0
  · rw [if_pos unset, if_pos unset]
    rfl
  · rw [if_neg unset, if_neg unset]
    rfl

theorem row_id_answer (op : Operation) (d : Driver γ π) (h : Attached γ) (answer : Answer) :
    let id := if 0 < d.changes h.connection then some (d.lastRowId h.connection) else none
    op.rowId d.engine (d.resultSet h.connection id answer) h =
      (rowAnswer op.name answer.returning (answer.count d h.connection)
        (d.lastRowId h.connection), h) := by
  intro id
  have reports : d.engine.reportsRowIds h = true := rfl
  cases answer with
  | rows columns rows =>
    have carried : (d.resultSet h.connection id (.rows columns rows)).lastRowId = none := by
      rw [Driver.result_set_rows, ResultSet.add_rows_row_id]
      rfl
    have affected :
        (d.resultSet h.connection id (.rows columns rows)).rowsAffected = rows.length := by
      rw [Driver.result_set_rows, ResultSet.add_rows_affected, List.length_map]
      exact Nat.zero_add _
    rw [rowId, bind_apply]
    simp only [gets, reports, if_true, carried, affected]
    by_cases empty : rows.length = 0
    · simp [rowAnswer, Answer.count, empty, Action.fail]
    · rw [if_neg empty, ask_row_id_answer]
      simp [rowAnswer, Answer.count, Answer.returning, empty]
  | changed =>
    rw [rowId, bind_apply]
    by_cases unchanged : d.changes h.connection = 0
    · simp [gets, reports, id, unchanged, Driver.resultSet, ResultSet.affected, rowAnswer,
        Answer.count, Action.fail]
    · simp [gets, reports, id, unchanged, Nat.pos_of_ne_zero unchanged, Driver.resultSet,
        ResultSet.affected, rowAnswer, Answer.count, Answer.returning, pure_apply]

structure Executed (op : Operation) (d : Driver γ π) (p : Params) (before begun : Attached γ)
    (statement : π) (values : List Value) (answer : Answer) (after : γ) : Prop where
  begins : d.engine.begin before = (.done (), begun)
  binds : op.bindStatement p op.first = .ok ⟨op.first.sql, values⟩
  reads : d.read op.first.sql = .ok statement
  runs : d.run begun.connection statement (values.map Value.toCell) = (.ok answer, after)

theorem run_insertion {op : Operation} {d : Driver γ π} {p : Params} {before begun : Attached γ}
    {statement : π} {values : List Value} {answer : Answer} {after : γ}
    (executed : op.Executed d p before begun statement values answer after)
    (inserts : op.isInsert = true) (single : op.others = []) (unscripted : op.script = none)
    (spelled : isInsertion op.first.sql = true) :
    op.run d.engine (.single p) begun =
      ((rowAnswer op.name answer.returning (answer.count d after) (d.lastRowId after)).map .rowId,
        { begun with connection := after }) := by
  have ran : d.engine.execute op.first.sql values begun =
      (.done (d.resultSet after
        (if 0 < d.changes after then some (d.lastRowId after) else none) answer),
        { begun with connection := after }) := by
    simp only [Driver.engine, Attached.onConnection, Driver.execute, executed.reads, executed.runs,
      spelled, and_true]
  have identified := op.row_id_answer d { begun with connection := after } answer
  dsimp only at identified
  have given {β : Type} (b : β) : Action.ofExcept (.ok b) begun = (.done b, begun) := rfl
  change (gets d.engine.hasScripts >>= _) begun = _
  simp only [bind_apply, gets, unscripted, runStatements, executed.binds, single, bindStatements,
    given, runBound, ran, inserts, if_true, identified]
  cases rowAnswer op.name answer.returning (answer.count d after) (d.lastRowId after) <;> rfl

theorem row_answer_cases (name : String) (returning : Bool) (count : Nat) (last : Int64) :
    (count = 0 ∧ rowAnswer name returning count last = .failed (.execution (.noRowInserted name))) ∨
    (count ≠ 0 ∧ returning = true ∧ last = 0 ∧
      rowAnswer name returning count last = .failed (.execution (.noRowId name))) ∨
    (count ≠ 0 ∧ ¬ (returning = true ∧ last = 0) ∧
      rowAnswer name returning count last = .done last) := by
  unfold rowAnswer
  by_cases none : count = 0
  · exact .inl ⟨none, if_pos none⟩
  · rw [if_neg none]
    by_cases unset : returning = true ∧ last = 0
    · exact .inr (.inl ⟨none, unset.1, unset.2, if_pos unset⟩)
    · exact .inr (.inr ⟨none, unset, if_neg unset⟩)

theorem row_answer_right (name : String) (returning : Bool) {count updated : Nat} {last before : Int64}
    {ids : List Int64} (counted : count = ids.length + updated)
    (kept : last = ids.getLast?.getD before) :
    ((∃ id, rowAnswer name returning count last = .done id ∧ (ids ≠ [] → ids.getLast? = some id)) ∨
      ∃ problem, rowAnswer name returning count last = .failed (.execution problem)) ∧
    (((rowAnswer name returning count last).isDone = true ↔ ids ≠ []) ↔
      (returning = true → ids.getLast? ≠ some 0) ∧
      (ids = [] → updated = 0 ∨ (returning = true ∧ before = 0))) := by
  have own (held : ids ≠ []) : ids.getLast? = some last := by
    obtain ⟨id, ends⟩ := Option.ne_none_iff_exists'.mp (mt List.getLast?_eq_none_iff.mp held)
    rw [kept, ends]
    rfl
  have other (empty : ids = []) : last = before := by
    rw [kept, empty]
    rfl
  rcases row_answer_cases name returning count last with
    ⟨zero, said⟩ | ⟨-, returns, unset, said⟩ | ⟨some, set, said⟩
  · rw [said]
    obtain ⟨length, none⟩ := Nat.add_eq_zero_iff.mp (counted.symm.trans zero)
    have empty := List.length_eq_zero_iff.mp length
    refine ⟨.inr ⟨_, rfl⟩, iff_of_true (by simp [Outcome.isDone, empty]) ⟨?_, fun _ => .inl none⟩⟩
    simp [empty]
  · rw [said]
    refine ⟨.inr ⟨_, rfl⟩, ?_⟩
    by_cases empty : ids = []
    · refine iff_of_true (by simp [Outcome.isDone, empty]) ⟨by simp [empty], fun _ => .inr ?_⟩
      exact ⟨returns, (other empty).symm.trans unset⟩
    · refine iff_of_false (by simp [Outcome.isDone, empty]) fun both => ?_
      exact both.1 returns (by rw [own empty, unset])
  · rw [said]
    refine ⟨.inl ⟨last, rfl, own⟩, ?_⟩
    by_cases empty : ids = []
    · refine iff_of_false (by simp [Outcome.isDone, empty]) fun both => ?_
      rcases both.2 empty with none | ⟨returns, unset⟩
      · exact some (counted.trans (by rw [none, empty]; rfl))
      · exact set ⟨returns, (other empty).trans unset⟩
    · refine iff_of_true (by simp [Outcome.isDone, empty]) ⟨fun returns zero => ?_, ?_⟩
      · rw [own empty] at zero
        exact set ⟨returns, Option.some.inj zero⟩
      · exact fun none => absurd none empty

end Operation

namespace Catalog

variable (d : Driver γ π) {tables : γ → τ} {saved : γ → Option τ} {control : π → Prop}

-- What a call for one insertion is to come to, where rows with these ids are inserted: the id of the
-- last one, and the rows stay; if there is none then an error, and nothing stays. Whatever it is, a
-- commit that fails ends the call with its own error.
def AnswersInsertion (tables : γ → τ) (before after : Attached γ) (ids : List Int64) :
    Outcome Output × Catalog (Attached γ) ν → Prop
  | (.done output, final) =>
    (∃ id, ids.getLast? = some id ∧ output = .rowId id) ∧
      tables final.connection.connection = tables after.connection
  | (.failed failure, final) =>
    tables final.connection.connection = tables before.connection ∧
      ((ids = [] ∧ ∃ problem, failure = .execution problem) ∨
        (ids ≠ [] ∧ (d.engine.commit after).1 = .failed failure))
  | (.crashed _, _) => False

theorem commit_failure (h : Attached γ) :
    match (d.engine.commit h).1 with
    | .done () => True
    | .failed failure => ∃ problem, failure = .database problem
    | .crashed _ => False := by
  rcases d.engine_commit_cases h with
    ⟨-, same⟩ | ⟨-, after, -, same⟩ | ⟨-, problem, after, -, same⟩
  · rw [same]
    trivial
  · rw [same]
    trivial
  · rw [same]
    exact ⟨problem, rfl⟩

section Ending

variable {before : Attached γ} {ids : List Int64} {s : Catalog (Attached γ) ν}

theorem id_answers_iff (restores : Restores d tables saved control) {id : Int64}
    (inside : saved s.connection.connection = some (tables before.connection))
    (last : ids ≠ [] → ids.getLast? = some id) :
    AnswersInsertion d tables before s.connection ids
      (closeScope d.engine (.done (.rowId id)) s) ↔ ids ≠ [] := by
  have commits := commit_failure d s.connection
  have ends := close_scope_outcome d.engine (.done (Output.rowId id)) s
  have leaves := close_scope_restores d restores (tables before.connection)
    (.done (Output.rowId id)) s inside
  rcases closed : closeScope d.engine (.done (Output.rowId id)) s with ⟨answer, final⟩
  rw [closed] at ends leaves
  cases answer with
  | done output =>
    cases ends
    by_cases none : ids = []
    · simp [AnswersInsertion, none]
    · simp [AnswersInsertion, none, last none, leaves.2]
  | failed failure =>
    have failed := (ends.resolve_left nofun).2
    rw [failed] at commits
    obtain ⟨problem, rfl⟩ := commits
    by_cases none : ids = []
    · simp [AnswersInsertion, none]
    · exact iff_of_true ⟨leaves, .inr ⟨none, failed⟩⟩ none
  | crashed text =>
    have crashed := (ends.resolve_left nofun).2
    rw [crashed] at commits
    exact commits.elim

theorem problem_answers_iff (restores : Restores d tables saved control) {problem : RunProblem}
    (inside : saved s.connection.connection = some (tables before.connection)) :
    AnswersInsertion d tables before s.connection ids
      (closeScope d.engine (.failed (.execution problem)) s) ↔ ids = [] := by
  have ends := close_scope_outcome d.engine (.failed (.execution problem) : Outcome Output) s
  have leaves := close_scope_restores d restores (tables before.connection)
    (.failed (.execution problem) : Outcome Output) s (.inl inside)
  rcases closed : closeScope d.engine (.failed (.execution problem) : Outcome Output) s with
    ⟨answer, final⟩
  rw [closed] at ends leaves
  cases answer with
  | done output => cases ends
  | failed failure =>
    cases ends.resolve_right fun both => nomatch both.1
    by_cases none : ids = []
    · exact iff_of_true ⟨leaves, .inl ⟨none, problem, rfl⟩⟩ none
    · refine iff_of_false ?_ none
      rintro ⟨-, empty | ⟨-, failed⟩⟩
      · exact none empty.1
      · have commits := commit_failure d s.connection
        rw [failed] at commits
        obtain ⟨other, different⟩ := commits
        cases different
  | crashed text => cases ends.resolve_right fun both => nomatch both.1

theorem answers_insertion_iff (restores : Restores d tables saved control) {outcome : Outcome Int64}
    (inside : saved s.connection.connection = some (tables before.connection))
    (ran : (∃ id, outcome = .done id ∧ (ids ≠ [] → ids.getLast? = some id)) ∨
      ∃ problem, outcome = .failed (.execution problem)) :
    AnswersInsertion d tables before s.connection ids
        (closeScope d.engine (outcome.map .rowId) s) ↔
      (outcome.isDone = true ↔ ids ≠ []) := by
  rcases ran with ⟨id, rfl, last⟩ | ⟨problem, rfl⟩
  · exact (id_answers_iff d restores inside last).trans (by simp [Outcome.isDone])
  · exact (problem_answers_iff d restores inside).trans (by simp [Outcome.isDone])

end Ending

theorem executed_inside {op : Operation} {p : Params} {before begun : Attached γ} {statement : π}
    {values : List Value} {answer : Answer} {after : γ} {inserted : γ → π → List Cell → List Int64}
    {updated : γ → π → List Cell → Nat} (restores : Restores d tables saved control)
    (inserts : Inserts d saved inserted updated)
    (executed : op.Executed d p before begun statement values answer after) :
    saved begun.connection = some (tables before.connection) := by
  have begins := executed.begins
  rcases d.engine_begin_cases before with ⟨next, ran, same⟩ | ⟨problem, next, -, same⟩
  · rw [same] at begins
    cases begins
    have idle := (restores.autocommit_iff before.connection).mp (inserts.begin_alone _ _ ran)
    exact (restores.begin_done before.connection next idle ran).2
  · rw [same] at begins
    cases begins

-- The operation inserts by its one statement, and the statement is executed without an error. The
-- answer is as it is to be just if the statement neither returns rows and gives its last one the id
-- 0, nor inserts no row and updates some while the connection has an id that would be taken for
-- theirs.
theorem insertion_answered_iff {inserted : γ → π → List Cell → List Int64}
    {updated : γ → π → List Cell → Nat} (restores : Restores d tables saved control)
    (inserts : Inserts d saved inserted updated) (files : FileView) {name origin : String}
    {l : StatementList} {p : Params} {s found : Catalog (Attached γ) ν} {begun : Attached γ}
    {statement : π} {values : List Value} {answer : Answer} {after : γ}
    (known : operation files name s = (.done (Operation.ofStatements origin l .sqlite), found))
    (single : (Operation.ofStatements origin l .sqlite).category = .singleInsert)
    (idle : s.scope = .idle)
    (executed : (Operation.ofStatements origin l .sqlite).Executed d p s.connection begun statement
      values answer after) :
    let cells := values.map Value.toCell
    let ids := inserted begun.connection statement cells
    AnswersInsertion d tables s.connection { begun with connection := after } ids
        (call d.engine files name (.single p) s) ↔
      (answer.returning = true → ids.getLast? ≠ some 0) ∧
      (ids = [] → updated begun.connection statement cells = 0 ∨
        (answer.returning = true ∧ d.lastRowId begun.connection = 0)) := by
  intro cells ids
  obtain ⟨others, script, begins⟩ := single_insert single
  have did := inserts.run_done begun.connection after _ statement cells answer begins
    executed.reads executed.runs
  have isInsert : (Operation.ofStatements origin l .sqlite).isInsert = true := by
    rw [Operation.isInsert, single]
    rfl
  have ran := Operation.run_insertion executed isInsert others script did.spelled
  obtain ⟨connection, scope⟩ := operation_connection files name s
  rw [known] at connection scope
  dsimp only at connection scope
  have accepted : ¬ Refused d.engine found := by
    rintro ⟨-, refused⟩
    rw [connection, executed.begins] at refused
    cases refused
  have called : call d.engine files name (.single p) s =
      closeScope d.engine
        ((Operation.rowAnswer origin answer.returning (answer.count d after)
          (d.lastRowId after)).map .rowId)
        { found with connection := { begun with connection := after }, scope := .open } := by
    rw [call_transaction d.engine files name (.single p) s found _ known (by simp),
      transaction_opened d.engine _ found (scope.trans idle) accepted,
      opened_begun d.engine found begun rfl (by rw [connection, executed.begins])]
    simp only [onConnection, ran]
    rfl
  have inside : saved after = some (tables s.connection.connection) :=
    did.still.trans (executed_inside d restores inserts executed)
  rw [called]
  obtain ⟨said, right⟩ :=
    Operation.row_answer_right origin answer.returning did.counted did.last
  exact (answers_insertion_iff d restores inside said).trans right

end Catalog
namespace Database.Connection

def insertedIds (c : Connection) (statement : List Lexeme) (parameters : List Cell) : List Int64 :=
  match Command.ofLexemes? statement with
  | some (.insert conflict rows _) =>
    let table := c.contents.table.getD ⟨"id", "v", []⟩
    (insertRows conflict parameters ⟨table.rows, []⟩ rows).2.ids
  | _ => []

theorem run_statement_done {c after : Connection} {statement : List Lexeme}
    {parameters : List Cell} {answer : Answer}
    (ran : c.runStatement statement (some parameters) = (.ok answer, after)) :
    ∃ command, Command.ofLexemes? statement = some command ∧
      c.run command parameters = (.ok answer, after) := by
  unfold runStatement at ran
  split at ran
  · cases ran
  · next command meaning =>
    split at ran
    · cases ran
    · dsimp only at ran
      split at ran
      · exact ⟨command, meaning, ran⟩
      · cases ran

theorem run_insert_done {c after : Connection} {conflict : Conflict} {rows : List NewRow}
    {returning : Bool} {parameters : List Cell} {answer : Answer}
    (ran : c.run (.insert conflict rows returning) parameters = (.ok answer, after)) :
    let table := c.contents.table.getD ⟨"id", "v", []⟩
    let ids := (insertRows conflict parameters ⟨table.rows, []⟩ rows).2.ids
    after.saved = c.saved ∧ answer.count driver after = ids.length ∧
      after.lastRowId = ids.getLast?.getD c.lastRowId := by
  simp only [run] at ran
  split at ran
  · cases ran
  · cases returning with
    | true =>
      cases ran
      exact ⟨rfl, List.length_map _, rfl⟩
    | false =>
      cases ran
      exact ⟨rfl, rfl, rfl⟩

theorem inserts : Inserts driver saved insertedIds fun _ _ _ => 0 where
  begin_alone c after begun := by
    rw [run_text_begin] at begun
    split at begun
    · next idle => exact idle
    · cases begun
  run_done c after sql statement parameters answer begins reads ran := by
    obtain ⟨command, meaning, ran⟩ := run_statement_done ran
    obtain ⟨spelled, conflict, rows, returning, rfl⟩ := runs_insertion begins reads meaning
    obtain ⟨still, counted, last⟩ := run_insert_done ran
    have ids : c.insertedIds statement parameters = (insertRows conflict parameters
        ⟨(c.contents.table.getD ⟨"id", "v", []⟩).rows, []⟩ rows).2.ids := by
      simp only [insertedIds, meaning]
    rw [← ids] at counted last
    exact ⟨spelled, still, counted, last⟩

def insertTokens (more : List Token) : List Token :=
  [.word "INSERT" none, .blank .space, .word "INTO" none, .blank .space, .word "t" none,
    .blank .space, .leftParen, .word "v" none, .rightParen, .blank .space, .word "VALUES" none,
    .blank .space, .leftParen, .number "7" false, .rightParen] ++ more

def insertLexemes (behind : String) (more : List Lexeme) : List Lexeme :=
  [⟨.word, "INSERT", " "⟩, ⟨.word, "INTO", " "⟩, ⟨.word, "t", " "⟩, ⟨.mark '(', "(", ""⟩,
    ⟨.word, "v", ""⟩, ⟨.mark ')', ")", " "⟩, ⟨.word, "VALUES", " "⟩, ⟨.mark '(', "(", ""⟩,
    ⟨.number, "7", ""⟩, ⟨.mark ')', ")", behind⟩] ++ more

def singleInsertion (name sql : String) : Operation where
  name := name
  category := .singleInsert
  style := .sqlite
  first := ⟨sql, []⟩
  others := []
  script := none
  script_bare := by simp

def insertPlain : StatementList where
  origin := "insert"
  statements := [⟨insertTokens [], rfl, by simp [insertTokens]⟩]
  statements_ne_nil := by simp

theorem insert_plain_compiles : Operation.ofStatements "insert" insertPlain .sqlite =
    singleInsertion "insert" "INSERT INTO t (v) VALUES (7)" := by
  decide +kernel

def insertReturning : StatementList where
  origin := "insert"
  statements := [⟨insertTokens [.blank .space, .word "RETURNING" none, .blank .space,
    .word "id" none], rfl, by simp [insertTokens]⟩]
  statements_ne_nil := by simp

theorem insert_returning_compiles : Operation.ofStatements "insert" insertReturning .sqlite =
    singleInsertion "insert" "INSERT INTO t (v) VALUES (7) RETURNING id" := by
  decide +kernel

def filled (rows : List (Int64 × Cell)) (last : Int64) (changes : Nat) : Connection :=
  ⟨⟨some ⟨"id", "v", rows⟩, false⟩, none, last, changes⟩

def insideOf (c : Connection) (before : Connection) : Connection :=
  { c with saved := some before.contents }

theorem insertion_answered_plain :
    let op := Operation.ofStatements "insert" insertPlain .sqlite
    let before := filled [] 0 0
    let after := insideOf (filled [(1, .integer 7)] 1 1) before
    let s := { catalogOf op with connection := ⟨before, 100⟩ }
    op.Executed driver .empty ⟨before, 100⟩ ⟨insideOf before before, 100⟩ (insertLexemes "" []) []
      .changed after ∧
    insertedIds (insideOf before before) (insertLexemes "" []) [] = [1] ∧
    Catalog.AnswersInsertion driver contents ⟨before, 100⟩ ⟨after, 100⟩ [1]
      (Catalog.call driver.engine .empty "insert" (.single .empty) s) := by
  intro op before after s
  have executed : op.Executed driver .empty ⟨before, 100⟩ ⟨insideOf before before, 100⟩
      (insertLexemes "" []) [] .changed after := by
    simp only [op, insert_plain_compiles]
    exact ⟨by cbv, rfl, by cbv, by cbv⟩
  have ids : insertedIds (insideOf before before) (insertLexemes "" []) [] = [1] := by cbv
  have single : op.category = .singleInsert := by
    simp only [op, insert_plain_compiles]
    rfl
  have known : Catalog.operation .empty "insert" s = (.done op, s) := by
    simp only [s, op, insert_plain_compiles]
    rfl
  have answered := Catalog.insertion_answered_iff driver restores inserts .empty known single rfl
    executed
  simp only [List.map_nil, ids] at answered
  exact ⟨executed, ids, answered.mpr ⟨by simp, by simp⟩⟩

-- The table has a row with the id -1, so the next is inserted with the id 0. The statement that
-- returns it is taken for one that has made no id, and rolled back.
theorem zero_id_refused :
    let op := Operation.ofStatements "insert" insertReturning .sqlite
    let before := filled [(-1, .integer 5)] (-1) 1
    let after := insideOf (filled [(-1, .integer 5), (0, .integer 7)] 0 1) before
    let statement := insertLexemes " " [⟨.word, "RETURNING", " "⟩, ⟨.word, "id", ""⟩]
    let called := Catalog.call driver.engine .empty "insert" (.single .empty)
      { catalogOf op with connection := ⟨before, 100⟩ }
    op.category = .singleInsert ∧
    op.Executed driver .empty ⟨before, 100⟩ ⟨insideOf before before, 100⟩ statement []
      (.rows ["id"] [[.integer 0]]) after ∧
    insertedIds (insideOf before before) statement [] = [0] ∧
    called.1 = .failed (.execution (.noRowId "insert")) ∧
    called.2.connection.connection.contents = before.contents := by
  intro op before after statement called
  refine ⟨?_, ?_, by cbv, ?_, ?_⟩
  · simp only [op, insert_returning_compiles]
    rfl
  · simp only [op, insert_returning_compiles]
    exact ⟨by cbv, rfl, by cbv, by cbv⟩
  · simp only [called, op, insert_returning_compiles]
    cbv
  · simp only [called, op, insert_returning_compiles]
    cbv

end Database.Connection
end SqlCatalog
