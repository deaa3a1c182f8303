import Mathlib
import SqlCatalog.Proofs.Script
/-!
The number of affected rows that a statement without columns is answered with. It is the count of the
last INSERT, UPDATE or DELETE that the connection has run, so it is the statement's own number of rows
just if the statement is one of these or the last of them has changed none (`affected_rows_iff`).
-/
namespace SqlCatalog.Database

variable {γ π α : Type}

inductive Use where
  | execute (sql : String) (values : List Value)
  | script (sql : String)
  | text (sql : String)
  | begin
  | commit
  | rollback
  | rowId

def lastCount (before : Nat) (counts : List Nat) : Nat := counts.getLast?.getD before

theorem last_count_append (before : Nat) (counts more : List Nat) :
    lastCount before (counts ++ more) = lastCount (lastCount before counts) more := by
  rw [lastCount, lastCount, lastCount, List.getLast?_append]
  cases more.getLast? <;> rfl

theorem last_count_option (before : Nat) (count : Option Nat) :
    lastCount before count.toList = count.getD before := by
  cases count <;> rfl

def passed (run : γ → π → Except Problem α × γ) (c : γ) : List π → γ
  | [] => c
  | statement :: rest =>
    match run c statement with
    | (.ok _, after) => passed run after rest
    | (.error _, after) => after

def countsOf (run : γ → π → Except Problem α × γ) (own : γ → π → Option Nat) (c : γ) :
    List π → List Nat
  | [] => []
  | statement :: rest =>
    (own c statement).toList ++
      match run c statement with
      | (.ok _, after) => countsOf run own after rest
      | (.error _, _) => []

theorem changes_passed (changes : γ → Nat) (run : γ → π → Except Problem α × γ)
    (own : γ → π → Option Nat)
    (one : ∀ c statement, changes (run c statement).2 = (own c statement).getD (changes c))
    (c : γ) (l : List π) :
    changes (passed run c l) = lastCount (changes c) (countsOf run own c l) := by
  induction l generalizing c with
  | nil => rfl
  | cons statement rest ih =>
    have first := one c statement
    rw [countsOf, last_count_append, last_count_option, ← first, passed]
    rcases run c statement with ⟨result, after⟩
    cases result with
    | ok answer => exact ih after
    | error problem => rfl

-- What is known of a database's count of changes. `own` tells how many rows a statement inserts,
-- updates or deletes where it is run; there is no such number where it is none that does so, or where
-- it is not even begun. `ownInText` tells the numbers of the statements of a text.
structure CountsRows (d : Driver γ π) (modifies : π → Prop) (own : γ → π → List Cell → Option Nat)
    (ownInText : γ → String → List Nat) : Prop where
  done : ∀ c after statement cells answer, modifies statement →
    d.run c statement cells = (.ok answer, after) → (own c statement cells).isSome
  other : ∀ c statement cells, ¬ modifies statement → own c statement cells = none
  run : ∀ c statement cells,
    d.changes (d.run c statement cells).2 = (own c statement cells).getD (d.changes c)
  runText : ∀ c sql, d.changes (d.runText c sql).2 = lastCount (d.changes c) (ownInText c sql)

def AnswersCount (modifies : π → Prop) (statement : π) (own : Option Nat) (last : Nat)
    (set : ResultSet) : Prop :=
  set.columns = none → set.rowsAffected = own.getD last ∧
    (set.rowsAffected = own.getD 0 ↔ modifies statement ∨ last = 0)

section History

variable (d : Driver γ π) {modifies : π → Prop} {own : γ → π → List Cell → Option Nat}
  {ownInText : γ → String → List Nat}

def Use.take (h : Attached γ) : Use → Attached γ
  | .execute sql values => (d.engine.execute sql values h).2
  | .script sql => (d.engine.executeScript sql h).2
  | .text sql => (Attached.onConnection (fun c => d.runText c sql) h).2
  | .begin => (d.engine.begin h).2
  | .commit => (d.engine.commit h).2
  | .rollback => (d.engine.rollback h).2
  | .rowId => (d.engine.lastRowId h).2

abbrev alone (c : γ) (statement : π) : Except Problem Answer × γ := d.run c statement []

def scriptCounts (own : γ → π → List Cell → Option Nat) (c : γ) : List π → List Nat :=
  countsOf (alone d) (fun c statement => own c statement []) c

def Use.counts (own : γ → π → List Cell → Option Nat) (ownInText : γ → String → List Nat) (c : γ) :
    Use → List Nat
  | .execute sql values =>
    match d.read sql with
    | .ok statement => (own c statement (values.map Value.toCell)).toList
    | .error _ => []
  | .script sql => scriptCounts d own c (d.readAll sql)
  | .text sql => ownInText c sql
  | .begin => ownInText c "BEGIN"
  | .commit => if d.autocommit c then [] else ownInText c "COMMIT"
  | .rollback => if d.autocommit c then [] else ownInText c "ROLLBACK"
  | .rowId => []

def historyCounts (own : γ → π → List Cell → Option Nat) (ownInText : γ → String → List Nat)
    (h : Attached γ) : List Use → List Nat
  | [] => []
  | use :: rest =>
    use.counts d own ownInText h.connection ++ historyCounts own ownInText (use.take d h) rest

theorem on_connection_state {α : Type} (use : γ → Except Problem α × γ) (h : Attached γ) :
    (Attached.onConnection use h).2.connection = (use h.connection).2 := by
  rcases ran : use h.connection with ⟨result, after⟩
  cases result <;> simp only [Attached.onConnection, ran]

abbrev inScript (statement : π) : Action (Attached γ) ResultSet :=
  Attached.onConnection fun c => d.runInScript c statement

theorem in_script_cases (statement : π) (h : Attached γ) :
    (∃ answer after, d.run h.connection statement [] = (.ok answer, after) ∧
      inScript d statement h = (.done (d.resultSet after none answer), { h with connection := after })) ∨
    (∃ problem after, d.run h.connection statement [] = (.error problem, after) ∧
      inScript d statement h = (.failed (.database problem), { h with connection := after })) := by
  rcases ran : d.run h.connection statement [] with ⟨result, after⟩
  cases result with
  | ok answer =>
    refine .inl ⟨answer, after, rfl, ?_⟩
    simp only [inScript, Attached.onConnection, Driver.runInScript, ran]
  | error problem =>
    refine .inr ⟨problem, after, rfl, ?_⟩
    simp only [inScript, Attached.onConnection, Driver.runInScript, ran]

theorem each_in_script_state (l : List π) (h : Attached γ) :
    (Action.each (inScript d) l h).2.connection = passed (alone d) h.connection l := by
  induction l generalizing h with
  | nil => rfl
  | cons statement rest ih =>
    rcases in_script_cases d statement h with ⟨answer, after, ran, same⟩ | ⟨problem, after, ran, same⟩
    · have tail := ih { h with connection := after }
      rw [Action.each_cons _ rest same, tail, passed, alone, ran]
    · rw [Action.each_cons_failed _ rest same, passed, alone, ran]

variable {d}

theorem end_transaction_changes (counts : CountsRows d modifies own ownInText) (sql : String) (c : γ) :
    d.changes (d.endTransaction sql c).2 =
      lastCount (d.changes c) (if d.autocommit c then [] else ownInText c sql) := by
  rw [Driver.endTransaction]
  cases d.autocommit c with
  | true => rfl
  | false => exact counts.runText c sql

theorem execute_changes (counts : CountsRows d modifies own ownInText) (sql : String)
    (values : List Value) (c : γ) :
    d.changes (d.execute c sql values).2 =
      lastCount (d.changes c) ((Use.execute sql values).counts d own ownInText c) := by
  rw [Driver.execute, Use.counts]
  cases d.read sql with
  | error problem => rfl
  | ok statement =>
    have ran := counts.run c statement (values.map Value.toCell)
    rw [last_count_option, ← ran]
    dsimp only
    rcases d.run c statement (values.map Value.toCell) with ⟨result, after⟩
    cases result <;> rfl

theorem use_changes (counts : CountsRows d modifies own ownInText) (use : Use) (h : Attached γ) :
    d.changes (use.take d h).connection =
      lastCount (d.changes h.connection) (use.counts d own ownInText h.connection) := by
  cases use with
  | execute sql values =>
    rw [Use.take, ← execute_changes counts]
    exact congrArg d.changes (on_connection_state _ h)
  | script sql =>
    have alike := changes_passed d.changes (alone d) (fun c statement => own c statement [])
      (fun c statement => counts.run c statement []) h.connection (d.readAll sql)
    rw [← each_in_script_state d (d.readAll sql) h] at alike
    exact alike
  | text sql =>
    rw [Use.take, on_connection_state]
    exact counts.runText h.connection sql
  | begin =>
    exact (congrArg d.changes (on_connection_state _ h)).trans (counts.runText h.connection "BEGIN")
  | commit =>
    exact (congrArg d.changes (on_connection_state _ h)).trans
      (end_transaction_changes counts "COMMIT" h.connection)
  | rollback =>
    have ended := end_transaction_changes counts "ROLLBACK" h.connection
    rw [Use.counts, ← ended, Use.take, Driver.engine]
    dsimp only
    rcases d.endTransaction "ROLLBACK" h.connection with ⟨result, after⟩
    cases result <;> rfl
  | rowId => rfl

-- The induction is on the history; one use of the connection adds its own counts behind those before.
theorem history_changes (counts : CountsRows d modifies own ownInText) (history : List Use)
    (h : Attached γ) :
    d.changes (history.foldl (Use.take d) h).connection =
      lastCount (d.changes h.connection) (historyCounts d own ownInText h history) := by
  induction history generalizing h with
  | nil => rfl
  | cons use rest ih =>
    rw [List.foldl_cons, ih, historyCounts, last_count_append, use_changes counts use h]

theorem answers_count (counts : CountsRows d modifies own ownInText) {c after : γ} {statement : π}
    {cells : List Cell} {answer : Answer} (ran : d.run c statement cells = (.ok answer, after))
    (id : Option Int64) :
    AnswersCount modifies statement (own c statement cells) (d.changes c)
      (d.resultSet after id answer) := by
  intro bare
  have changed := counts.run c statement cells
  rw [ran] at changed
  have count : (d.resultSet after id answer).rowsAffected = d.changes after := by
    cases answer with
    | rows columns rows =>
      have named := ResultSet.add_rows_columns (rows.map fun row => row.map Cell.toValue)
        (ResultSet.empty.setColumns columns) rfl
      rw [← d.result_set_rows after id, bare] at named
      cases named
    | changed => rfl
  refine ⟨count.trans changed, ?_⟩
  rw [count, changed]
  by_cases rows : modifies statement
  · obtain ⟨number, counted⟩ := Option.isSome_iff_exists.mp (counts.done c after statement cells answer rows ran)
    rw [counted]
    exact iff_of_true rfl (.inl rows)
  · rw [counts.other c statement cells rows]
    simp [rows]

-- Over every history of a connection, and for every next statement, executed alone or at its place in
-- a script: without columns, it is answered with its own number of rows if it is an INSERT, UPDATE or
-- DELETE, and otherwise with that of the last of these before it.
theorem affected_rows_iff (counts : CountsRows d modifies own ownInText) (history : List Use)
    (start : Attached γ) :
    let h := history.foldl (Use.take d) start
    let last := lastCount (d.changes start.connection) (historyCounts d own ownInText start history)
    (∀ sql values statement set after, d.read sql = .ok statement →
      d.engine.execute sql values h = (.done set, after) →
      AnswersCount modifies statement (own h.connection statement (values.map Value.toCell)) last
        set) ∧
    ∀ sql sets after before statement others, d.readAll sql = before ++ statement :: others →
      d.engine.executeScript sql h = (.done sets, after) →
      ∃ set, sets[before.length]? = some set ∧
        AnswersCount modifies statement (own (passed (alone d) h.connection before) statement [])
          (lastCount last (scriptCounts d own h.connection before)) set := by
  intro h last
  have seen : d.changes h.connection = last := history_changes counts history start
  constructor
  · intro sql values statement set after reads executed
    rw [← seen]
    rcases ran : d.run h.connection statement (values.map Value.toCell) with ⟨result, next⟩
    simp only [Driver.engine, Attached.onConnection, Driver.execute, reads, ran] at executed
    cases result with
    | ok answer =>
      cases executed
      exact answers_count counts ran _
    | error problem => cases executed
  · intro sql sets after before statement others reads executed
    change Action.each (inScript d) (d.readAll sql) h = _ at executed
    rw [reads] at executed
    obtain ⟨set, next, found, answered⟩ := Action.each_done_inside _ executed
    refine ⟨set, found, ?_⟩
    have passes := each_in_script_state d before h
    have count := changes_passed d.changes (alone d) (fun c statement => own c statement [])
      (fun c statement => counts.run c statement []) h.connection before
    rw [← seen, scriptCounts, ← count, ← passes]
    generalize (Action.each (inScript d) before h).2 = between at answered
    rcases in_script_cases d statement between with ⟨answer, last, ran, same⟩ | ⟨problem, last, ran, same⟩
    · rw [same] at answered
      cases answered
      exact answers_count counts ran none
    · rw [same] at answered
      cases answered

end History

namespace Command

def modifies : Command → Bool
  | insert _ _ _ => true
  | update _ _ => true
  | delete _ => true
  | _ => false

end Command

namespace Connection

def ownRows (c : Connection) (parameters : List Cell) : Command → Option Nat
  | .insert conflict new _ =>
    match (c.run (.insert conflict new true) parameters).1 with
    | .ok (.rows _ inserted) => some inserted.length
    | _ => some 0
  | .update _ key => some ((c.contents.table.elim [] (·.rows)).countP (picks parameters key))
  | .delete key => some ((c.contents.table.elim [] (·.rows)).countP (picks parameters key))
  | _ => none

-- The command that a statement is run as, if it comes to that: one that is not understood, does not
-- fit the tables or is given too few or too many values is not begun.
def begun? (c : Connection) (statement : List Lexeme) (given : Option (List Cell)) : Option Command :=
  (Command.ofLexemes? statement).filter fun command =>
    (c.check command).isOk &&
      (given.map List.length).getD command.parameterCount == command.parameterCount

def statementRows (c : Connection) (statement : List Lexeme) (given : Option (List Cell)) :
    Option Nat :=
  (c.begun? statement given).bind (c.ownRows (given.getD []))

def rowsWith (c : Connection) (statement : List Lexeme) (cells : List Cell) : Option Nat :=
  c.statementRows statement (some cells)

def textRows (c : Connection) (sql : String) : List Nat :=
  countsOf (fun c statement => c.runStatement statement none)
    (fun c statement => c.statementRows statement none) c (statements sql.toList)

def isModification (statement : List Lexeme) : Bool :=
  (Command.ofLexemes? statement).any Command.modifies

theorem run_changes (c : Connection) (command : Command) (parameters : List Cell) :
    (c.run command parameters).2.changes = (c.ownRows parameters command).getD c.changes := by
  have rows : (c.contents.table.getD ⟨"id", "v", []⟩).rows = c.contents.table.elim [] (·.rows) := by
    cases c.contents.table <;> rfl
  cases command with
  | insert conflict new returning =>
    simp only [run, ownRows]
    rcases insertRows conflict parameters ⟨(c.contents.table.getD ⟨"id", "v", []⟩).rows, []⟩ new with
      ⟨problem?, done⟩
    cases problem? with
    | some problem => rfl
    | none => cases returning <;> simp [withRows]
  | update value key =>
    simp only [run, ownRows, withRows, rows, Option.getD_some]
  | delete key =>
    simp only [run, ownRows, withRows, rows, Option.getD_some]
    have split := List.length_eq_countP_add_countP (picks parameters key)
      (l := c.contents.table.elim [] (·.rows))
    rw [← List.countP_eq_length_filter]
    simp only [Bool.not_eq_true, Bool.decide_eq_false] at split
    omega
  | createTable keyName valueName => rfl
  | createOther => rfl
  | select selection => rfl
  | begin =>
    simp only [run]
    split <;> rfl
  | commit =>
    simp only [run]
    split <;> rfl
  | rollback =>
    simp only [run]
    split <;> rfl

theorem own_rows_some (c : Connection) (parameters : List Cell) (command : Command) :
    (c.ownRows parameters command).isSome = command.modifies := by
  cases command with
  | insert conflict new returning =>
    rw [ownRows]
    split <;> rfl
  | _ => rfl

theorem run_statement_cases (c : Connection) (statement : List Lexeme) (given : Option (List Cell)) :
    (∃ command, Command.ofLexemes? statement = some command ∧
      c.begun? statement given = some command ∧
      c.runStatement statement given = c.run command (given.getD [])) ∨
    (c.begun? statement given = none ∧
      ∃ problem, c.runStatement statement given = (.error problem, c)) := by
  rw [begun?, runStatement]
  cases meaning : Command.ofLexemes? statement with
  | none => exact .inr ⟨rfl, _, rfl⟩
  | some command =>
    cases checks : c.check command with
    | error problem =>
      exact .inr ⟨by simp [checks, Except.isOk, Except.toBool], problem, by simp only [checks]⟩
    | ok done =>
      by_cases enough : (given.map List.length).getD command.parameterCount = command.parameterCount
      · refine .inl ⟨command, rfl, by simp [checks, Except.isOk, Except.toBool, enough], ?_⟩
        simp only [checks, if_pos enough]
      · refine .inr ⟨by simp [enough], ?_⟩
        simp only [checks, if_neg enough]
        exact ⟨_, rfl⟩

theorem run_statement_changes (c : Connection) (statement : List Lexeme) (given : Option (List Cell)) :
    (c.runStatement statement given).2.changes = (c.statementRows statement given).getD c.changes := by
  rcases c.run_statement_cases statement given with
    ⟨command, -, begins, same⟩ | ⟨stops, problem, same⟩
  · rw [same, statementRows, begins]
    exact c.run_changes command _
  · rw [same, statementRows, stops]
    rfl

theorem run_each_passed (c : Connection) (l : List (List Lexeme)) :
    (c.runEach l).2 = passed (fun c statement => c.runStatement statement none) c l := by
  induction l generalizing c with
  | nil => rfl
  | cons statement rest ih =>
    rw [runEach, passed]
    rcases c.runStatement statement none with ⟨result, after⟩
    cases result with
    | ok answer => exact ih after
    | error problem => rfl

theorem counts_rows : CountsRows driver (isModification ·) rowsWith textRows where
  done c after statement cells answer modifies ran := by
    rcases c.run_statement_cases statement (some cells) with
      ⟨command, meaning, begins, -⟩ | ⟨-, problem, same⟩
    · rw [isModification, meaning] at modifies
      rw [rowsWith, statementRows, begins]
      exact (c.own_rows_some cells command).trans modifies
    · cases same.symm.trans ran
  other c statement cells plain := by
    rcases c.run_statement_cases statement (some cells) with
      ⟨command, meaning, begins, -⟩ | ⟨stops, -⟩
    · rw [isModification, meaning, Option.any_some, Bool.not_eq_true, ← c.own_rows_some cells] at plain
      rw [rowsWith, statementRows, begins]
      exact Option.not_isSome_iff_eq_none.mp (by rw [Option.bind_some, Option.getD_some, plain]; decide)
    · rw [rowsWith, statementRows, stops]
      rfl
  run c statement cells := c.run_statement_changes statement (some cells)
  runText c sql := by
    have alike := changes_passed changes (fun c statement => c.runStatement statement none)
      (fun c statement => c.statementRows statement none)
      (fun c statement => c.run_statement_changes statement none) c (statements sql.toList)
    rw [← run_each_passed] at alike
    exact alike

def createOther : List Lexeme :=
  [⟨.word, "CREATE", " "⟩, ⟨.word, "TABLE", " "⟩, ⟨.word, "u", " "⟩, ⟨.mark '(', "(", ""⟩,
    ⟨.word, "a", ""⟩, ⟨.mark ')', ")", ""⟩]

def deleteAll : List Lexeme := [⟨.word, "DELETE", " "⟩, ⟨.word, "FROM", " "⟩, ⟨.word, "t", ""⟩]

def twoRowsAdded : List Use :=
  [.text "CREATE TABLE t (id INTEGER PRIMARY KEY, v)", .execute "INSERT INTO t (v) VALUES (1), (2)" []]

def withTwoRows : Handle := twoRowsAdded.foldl (Use.take driver) ⟨start, 100⟩

theorem affected_rows_iff_filled :
    let last := lastCount 0 (historyCounts driver rowsWith textRows ⟨start, 100⟩ twoRowsAdded)
    CountsRows driver (isModification ·) rowsWith textRows ∧
    driver.read "DELETE FROM t" = .ok deleteAll ∧
    (∃ after, driver.engine.execute "DELETE FROM t" [] withTwoRows = (.done (.affected 2 none), after)) ∧
    AnswersCount (isModification ·) deleteAll (rowsWith withTwoRows.connection deleteAll []) last
      (.affected 2 none) ∧
    driver.readAll "DELETE FROM t; CREATE TABLE u (a)" = [deleteAll] ++ createOther :: [] ∧
    (∃ after, driver.engine.executeScript "DELETE FROM t; CREATE TABLE u (a)" withTwoRows =
      (.done [.affected 2 none, .affected 2 none], after)) ∧
    AnswersCount (isModification ·) createOther
      (rowsWith (passed (alone driver) withTwoRows.connection [deleteAll]) createOther [])
      (lastCount last (scriptCounts driver rowsWith withTwoRows.connection [deleteAll]))
      (.affected 2 none) := by
  intro last
  have reads : driver.read "DELETE FROM t" = .ok deleteAll := by cbv
  have readsAll : driver.readAll "DELETE FROM t; CREATE TABLE u (a)" =
      [deleteAll] ++ createOther :: [] := by cbv
  have executed : (driver.engine.execute "DELETE FROM t" [] withTwoRows).1 = .done (.affected 2 none) := by
    cbv
  have ran : (driver.engine.executeScript "DELETE FROM t; CREATE TABLE u (a)" withTwoRows).1 =
      .done [.affected 2 none, .affected 2 none] := by cbv
  have one : driver.engine.execute "DELETE FROM t" [] withTwoRows =
      (.done (.affected 2 none), (driver.engine.execute "DELETE FROM t" [] withTwoRows).2) := by
    rw [← executed]
  have both : driver.engine.executeScript "DELETE FROM t; CREATE TABLE u (a)" withTwoRows =
      (.done [.affected 2 none, .affected 2 none],
        (driver.engine.executeScript "DELETE FROM t; CREATE TABLE u (a)" withTwoRows).2) := by
    rw [← ran]
  obtain ⟨first, second⟩ := affected_rows_iff counts_rows twoRowsAdded ⟨start, 100⟩
  obtain ⟨set, found, answers⟩ := second _ _ _ _ _ _ readsAll both
  obtain rfl : .affected 2 none = set := Option.some.inj found
  exact ⟨counts_rows, reads, ⟨_, one⟩, first _ _ _ _ _ reads one, readsAll, ⟨_, both⟩, answers⟩

theorem create_repeats_count :
    ¬ ∀ (history : List Use) (sql : String) (statement : List Lexeme) (set : ResultSet)
      (after : Handle), driver.read sql = .ok statement →
      driver.engine.execute sql [] (history.foldl (Use.take driver) ⟨start, 100⟩) =
        (.done set, after) → set.columns = none →
      set.rowsAffected = (rowsWith (history.foldl (Use.take driver) ⟨start, 100⟩).connection
        statement []).getD 0 := by
  intro claimed
  have reads : driver.read "CREATE TABLE u (a)" = .ok createOther := by cbv
  have executed : (driver.engine.execute "CREATE TABLE u (a)" [] withTwoRows).1 =
      .done (.affected 2 none) := by cbv
  have rows : (rowsWith withTwoRows.connection createOther []).getD 0 = 0 := by cbv
  have ended : driver.engine.execute "CREATE TABLE u (a)" [] withTwoRows =
      (.done (.affected 2 none), (driver.engine.execute "CREATE TABLE u (a)" [] withTwoRows).2) := by
    rw [← executed]
  have none := claimed twoRowsAdded _ createOther (.affected 2 none) _ reads ended rfl
  exact absurd (none.trans rows) (by decide)

end Connection
end SqlCatalog.Database
