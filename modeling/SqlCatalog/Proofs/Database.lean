import Mathlib
import SqlCatalog.Database.Engine
/-!
What a session's calls do to a database, and what is known of its transactions: how they end
(`EndsTransactions`), and that rolling back restores the tables as they were when the transaction was
begun (`Restores`). The database that comes with the library behaves so.
-/
namespace SqlCatalog.Database

variable {γ π τ : Type}

namespace Driver

variable (d : Driver γ π)

-- What a session's three calls can do to a connection. Each text is run once or not at all, and what
-- the database objects to is passed on.
theorem engine_begin_cases (h : Attached γ) :
    (∃ after, d.runText h.connection "BEGIN" = (.ok (), after) ∧
      d.engine.begin h = (.done (), { h with connection := after })) ∨
    (∃ problem after, d.runText h.connection "BEGIN" = (.error problem, after) ∧
      d.engine.begin h = (.failed (.database problem), { h with connection := after })) := by
  rcases ran : d.runText h.connection "BEGIN" with ⟨result, after⟩
  cases result with
  | ok done =>
    refine .inl ⟨after, rfl, ?_⟩
    simp only [engine, Attached.onConnection, ran]
  | error problem =>
    refine .inr ⟨problem, after, rfl, ?_⟩
    simp only [engine, Attached.onConnection, ran]

theorem engine_commit_cases (h : Attached γ) :
    (d.autocommit h.connection = true ∧ d.engine.commit h = (.done (), h)) ∨
    (d.autocommit h.connection = false ∧ ∃ after,
      d.runText h.connection "COMMIT" = (.ok (), after) ∧
      d.engine.commit h = (.done (), { h with connection := after })) ∨
    (d.autocommit h.connection = false ∧ ∃ problem after,
      d.runText h.connection "COMMIT" = (.error problem, after) ∧
      d.engine.commit h = (.failed (.database problem), { h with connection := after })) := by
  cases idle : d.autocommit h.connection with
  | true =>
    refine .inl ⟨rfl, ?_⟩
    simp only [engine, Attached.onConnection, endTransaction, idle, if_true]
  | false =>
    refine .inr ?_
    rcases ran : d.runText h.connection "COMMIT" with ⟨result, after⟩
    cases result with
    | ok done =>
      refine .inl ⟨rfl, after, rfl, ?_⟩
      simp only [engine, Attached.onConnection, endTransaction, idle, Bool.false_eq_true, if_false,
        ran]
    | error problem =>
      refine .inr ⟨rfl, problem, after, rfl, ?_⟩
      simp only [engine, Attached.onConnection, endTransaction, idle, Bool.false_eq_true, if_false,
        ran]

theorem engine_rollback_idle (h : Attached γ) (idle : d.autocommit h.connection = true) :
    d.engine.rollback h = (.ok (), h) := by
  simp only [engine, endTransaction, idle, if_true]

theorem engine_rollback_busy (h : Attached γ) (after : γ)
    (busy : d.autocommit h.connection = false)
    (rolled : d.runText h.connection "ROLLBACK" = (.ok (), after)) :
    d.engine.rollback h = (.ok (), { h with connection := after }) := by
  simp only [engine, endTransaction, busy, Bool.false_eq_true, if_false, rolled]

end Driver

-- Only the three texts that scopes are opened and closed with are spoken of: what other statements
-- do to the transaction is left open.
structure EndsTransactions (d : Driver γ π) : Prop where
  begin_failed : ∀ c after problem, d.autocommit c = true →
    d.runText c "BEGIN" = (.error problem, after) → d.autocommit after = true
  commit_done : ∀ c after, d.runText c "COMMIT" = (.ok (), after) → d.autocommit after = true
  rollback_done : ∀ c, d.autocommit c = false →
    ∃ after, d.runText c "ROLLBACK" = (.ok (), after) ∧ d.autocommit after = true

-- A rollback, if one is still to come, leads back to the tables `before`.
def Undoable (tables : γ → τ) (saved : γ → Option τ) (before : τ) (c : γ) : Prop :=
  saved c = some before ∨ (saved c = none ∧ tables c = before)

-- `tables` are the contents and the schema that a connection sees, `saved` those that it goes back
-- to when its open transaction is rolled back. `control` holds of the statements that begin, commit
-- or roll back transactions or parts of them, the ones that do so in a conflict too. Any other
-- statement leaves the transaction open, or it fails and the database rolls back on its own.
structure Restores (d : Driver γ π) (tables : γ → τ) (saved : γ → Option τ)
    (control : π → Prop) : Prop where
  autocommit_iff : ∀ c, d.autocommit c = true ↔ saved c = none
  begin_done : ∀ c after, saved c = none → d.runText c "BEGIN" = (.ok (), after) →
    tables after = tables c ∧ saved after = some (tables c)
  begin_failed : ∀ c after problem, saved c = none →
    d.runText c "BEGIN" = (.error problem, after) → tables after = tables c
  commit_done : ∀ c after, d.runText c "COMMIT" = (.ok (), after) → tables after = tables c
  commit_failed : ∀ c after problem before, saved c = some before →
    d.runText c "COMMIT" = (.error problem, after) → Undoable tables saved before after
  rollback_done : ∀ c before, saved c = some before →
    ∃ after, d.runText c "ROLLBACK" = (.ok (), after) ∧ tables after = before
  run_done : ∀ c after statement parameters answer before, ¬ control statement →
    saved c = some before → d.run c statement parameters = (.ok answer, after) →
    saved after = some before
  run_failed : ∀ c after statement parameters problem before, ¬ control statement →
    saved c = some before → d.run c statement parameters = (.error problem, after) →
    Undoable tables saved before after

namespace Connection

def isControl (statement : List Lexeme) : Bool :=
  match Command.ofLexemes? statement with
  | some .begin => true
  | some .commit => true
  | some .rollback => true
  | _ => false

theorem run_text_one (c : Connection) (sql : String) (statement : List Lexeme) (command : Command)
    (reads : statements sql.toList = [statement])
    (meaning : Command.ofLexemes? statement = some command) (checks : c.check command = .ok ()) :
    driver.runText c sql =
      match c.run command [] with
      | (.ok _, after) => (.ok (), after)
      | (.error problem, after) => (.error problem, after) := by
  simp only [driver, reads, runEach, runStatement, meaning, checks, Option.map_none,
    Option.getD_none, if_true]
  rcases c.run command [] with ⟨result, after⟩
  cases result <;> rfl

theorem run_text_begin (c : Connection) :
    driver.runText c "BEGIN" =
      if c.autocommit then (.ok (), { c with saved := some c.contents })
      else (.error .alreadyInTransaction, c) := by
  have reads : statements "BEGIN".toList = [[⟨.word, "BEGIN", ""⟩]] := by cbv
  have meaning : Command.ofLexemes? [⟨.word, "BEGIN", ""⟩] = some .begin := by cbv
  rw [run_text_one c "BEGIN" _ .begin reads meaning rfl, run]
  by_cases idle : c.autocommit
  · rw [if_pos idle, if_pos idle]
  · rw [if_neg idle, if_neg idle]

theorem run_text_commit (c : Connection) :
    driver.runText c "COMMIT" =
      if c.autocommit then (.error .noTransactionToCommit, c)
      else (.ok (), { c with saved := none }) := by
  have reads : statements "COMMIT".toList = [[⟨.word, "COMMIT", ""⟩]] := by cbv
  have meaning : Command.ofLexemes? [⟨.word, "COMMIT", ""⟩] = some .commit := by cbv
  rw [run_text_one c "COMMIT" _ .commit reads meaning rfl, run]
  by_cases idle : c.autocommit
  · rw [if_pos idle, if_pos idle]
  · rw [if_neg idle, if_neg idle]

theorem run_text_rollback (c : Connection) :
    driver.runText c "ROLLBACK" =
      match c.saved with
      | none => (.error .noTransactionToRollBack, c)
      | some contents => (.ok (), { c with contents, saved := none }) := by
  have reads : statements "ROLLBACK".toList = [[⟨.word, "ROLLBACK", ""⟩]] := by cbv
  have meaning : Command.ofLexemes? [⟨.word, "ROLLBACK", ""⟩] = some .rollback := by cbv
  rw [run_text_one c "ROLLBACK" _ .rollback reads meaning rfl, run]
  cases c.saved <;> rfl

theorem run_saved (c : Connection) (command : Command) (parameters : List Cell)
    (plain : command ≠ .begin ∧ command ≠ .commit ∧ command ≠ .rollback) :
    (c.run command parameters).2.saved = c.saved := by
  cases command with
  | createTable keyName valueName => rfl
  | createOther => rfl
  | insert conflict new returning =>
    simp only [run]
    split
    · rfl
    · split <;> rfl
  | update value key => rfl
  | delete key => rfl
  | select selection => rfl
  | begin => exact absurd rfl plain.1
  | commit => exact absurd rfl plain.2.1
  | rollback => exact absurd rfl plain.2.2

theorem run_statement_saved (c : Connection) (statement : List Lexeme) (parameters : List Cell)
    (plain : ¬ isControl statement) :
    (driver.run c statement parameters).2.saved = c.saved := by
  simp only [driver, runStatement]
  cases meaning : Command.ofLexemes? statement with
  | none => rfl
  | some command =>
    cases checks : c.check command with
    | error problem => simp only [checks]
    | ok done =>
      have other : command ≠ .begin ∧ command ≠ .commit ∧ command ≠ .rollback := by
        refine ⟨?_, ?_, ?_⟩ <;> rintro rfl <;> simp [isControl, meaning] at plain
      simp only [checks]
      split
      · exact run_saved c command _ other
      · rfl

theorem ends_transactions : EndsTransactions driver where
  begin_failed c after problem idle failed := by
    have free : c.autocommit = true := idle
    rw [run_text_begin, if_pos free] at failed
    cases failed
  commit_done c after committed := by
    rw [run_text_commit] at committed
    split at committed
    · cases committed
    · cases committed
      rfl
  rollback_done c busy := by
    cases saved : c.saved with
    | none =>
      have idle : c.autocommit = true := by simp [autocommit, saved]
      exact absurd (idle.symm.trans busy) (by decide)
    | some contents =>
      refine ⟨{ c with contents, saved := none }, ?_, rfl⟩
      rw [run_text_rollback, saved]

theorem restores : Restores driver contents saved (isControl ·) where
  autocommit_iff c := by
    change c.saved.isNone = true ↔ _
    rw [Option.isNone_iff_eq_none]
  begin_done c after idle begun := by
    have free : c.autocommit = true := by simp [autocommit, idle]
    rw [run_text_begin, if_pos free] at begun
    cases begun
    exact ⟨rfl, rfl⟩
  begin_failed c after problem idle failed := by
    have free : c.autocommit = true := by simp [autocommit, idle]
    rw [run_text_begin, if_pos free] at failed
    cases failed
  commit_done c after committed := by
    rw [run_text_commit] at committed
    split at committed
    · cases committed
    · cases committed
      rfl
  commit_failed c after problem before busy failed := by
    have notFree : ¬ c.autocommit = true := by simp [autocommit, busy]
    rw [run_text_commit, if_neg notFree] at failed
    cases failed
  rollback_done c before busy := by
    refine ⟨{ c with contents := before, saved := none }, ?_, rfl⟩
    rw [run_text_rollback, busy]
  run_done c after statement parameters answer before plain busy ran := by
    have kept := run_statement_saved c statement parameters plain
    rw [ran] at kept
    exact kept.trans busy
  run_failed c after statement parameters problem before plain busy ran := by
    have kept := run_statement_saved c statement parameters plain
    rw [ran] at kept
    exact .inl (kept.trans busy)

end Connection
end SqlCatalog.Database
