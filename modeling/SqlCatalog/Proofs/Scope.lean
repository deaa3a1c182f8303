import SqlCatalog.Engine.Scripted
import SqlCatalog.Proofs.Action
import SqlCatalog.Transaction
/-!
How scopes are opened and closed. A scope that was opened is closed by one successful commit, by one
commit that did not succeed and the rollback after it, or by one rollback; whatever happens, the
session is idle again (`transaction_calls`).
-/
namespace SqlCatalog

variable {σ ρ α : Type}

namespace Session

open Engine

theorem roll_back_ok (e : Engine σ) (warning : Failure → Warning) (s : Session σ ρ) (connection : σ)
    (rolled : e.rollback s.connection = (.ok (), connection)) :
    s.rollBack e warning = { s with connection, scope := .idle } := by
  simp only [rollBack, rolled]

theorem roll_back_error (e : Engine σ) (warning : Failure → Warning) (s : Session σ ρ)
    (problem : Failure) (connection : σ)
    (rolled : e.rollback s.connection = (.error problem, connection)) :
    s.rollBack e warning = warn { s with connection, scope := .idle } (warning problem) := by
  simp only [rollBack, rolled]

theorem roll_back_idle (e : Engine σ) (warning : Failure → Warning) (s : Session σ ρ) :
    (s.rollBack e warning).scope = .idle := by
  rcases rolled : e.rollback s.connection with ⟨result, connection⟩
  cases result with
  | ok => rw [roll_back_ok e warning s connection rolled]
  | error problem =>
    rw [roll_back_error e warning s problem connection rolled]
    rfl

theorem roll_back_connection (e : Engine σ) (warning : Failure → Warning) (s : Session σ ρ) :
    (s.rollBack e warning).connection = (e.rollback s.connection).2 := by
  rcases rolled : e.rollback s.connection with ⟨result, connection⟩
  cases result with
  | ok => rw [roll_back_ok e warning s connection rolled]
  | error problem =>
    rw [roll_back_error e warning s problem connection rolled]
    rfl

theorem commit_scope_done (e : Engine σ) (s : Session σ ρ) (connection : σ)
    (committed : e.commit s.connection = (.done (), connection)) :
    commitScope e s = (.done (), { s with connection, scope := .idle }) := by
  simp only [commitScope, committed]

theorem commit_scope_failed (e : Engine σ) (s : Session σ ρ) (failure : Failure) (connection : σ)
    (committed : e.commit s.connection = (.failed failure, connection)) :
    commitScope e s = (.failed failure, abandon e { s with connection }) := by
  simp only [commitScope, committed]

theorem commit_scope_crashed (e : Engine σ) (s : Session σ ρ) (text : String) (connection : σ)
    (committed : e.commit s.connection = (.crashed text, connection)) :
    commitScope e s = (.crashed text, abandon e { s with connection }) := by
  simp only [commitScope, committed]

-- An answer is passed on as it is, so only the outcome of the commit is left to ask for.
theorem close_scope_done (e : Engine σ) (a : α) (s : Session σ ρ) :
    (closeScope e (.done a) s).2 = (commitScope e s).2 ∧
      (closeScope e (.done a) s).1.isDone = (commitScope e s).1.isDone := by
  rcases committed : commitScope e s with ⟨outcome, after⟩
  cases outcome <;> simp only [closeScope, committed, Outcome.isDone, and_self]

theorem close_scope_undone (e : Engine σ) (outcome : Outcome α) (s : Session σ ρ)
    (stops : outcome.isDone = false) :
    (closeScope e outcome s).1 = outcome ∧
      (closeScope e outcome s).2.connection = (e.rollback s.connection).2 := by
  cases outcome with
  | done a => cases stops
  | failed failure => exact ⟨rfl, roll_back_connection e _ s⟩
  | crashed text => exact ⟨rfl, roll_back_connection e _ s⟩

theorem commit_scope_idle (e : Engine σ) (s : Session σ ρ) :
    (commitScope e s).2.scope = .idle := by
  rcases committed : e.commit s.connection with ⟨outcome, connection⟩
  cases outcome with
  | done => rw [commit_scope_done e s connection committed]
  | failed failure =>
    rw [commit_scope_failed e s failure connection committed]
    exact roll_back_idle e _ _
  | crashed text =>
    rw [commit_scope_crashed e s text connection committed]
    exact roll_back_idle e _ _

theorem close_scope_idle (e : Engine σ) (outcome : Outcome α) (s : Session σ ρ) :
    (closeScope e outcome s).2.scope = .idle := by
  cases outcome with
  | done a =>
    rw [(close_scope_done e a s).1]
    exact commit_scope_idle e s
  | failed failure => exact roll_back_idle e _ s
  | crashed text => exact roll_back_idle e _ s

def Refused (e : Engine σ) (s : Session σ ρ) : Prop :=
  e.hasTransactions s.connection = true ∧ (e.begin s.connection).1.isDone = false

def opened (e : Engine σ) (s : Session σ ρ) : Session σ ρ :=
  let connection :=
    if e.hasTransactions s.connection then (e.begin s.connection).2 else s.connection
  { s with connection, scope := .open }

theorem opened_begun (e : Engine σ) (s : Session σ ρ) (connection : σ)
    (native : e.hasTransactions s.connection = true)
    (begun : e.begin s.connection = (.done (), connection)) :
    opened e s = { s with connection, scope := .open } := by
  simp only [opened, native, if_true, begun]

theorem open_scope_busy (e : Engine σ) (s : Session σ ρ) (busy : s.scope = .open) :
    openScope e s = (.failed .alreadyInTransaction, s) := by
  rw [openScope, if_pos busy]

theorem open_scope_opened (e : Engine σ) (s : Session σ ρ) (idle : s.scope = .idle)
    (accepted : ¬ Refused e s) : openScope e s = (.done (), opened e s) := by
  have free : ¬ s.scope = .open := by simp [idle]
  rw [openScope, if_neg free]
  by_cases native : e.hasTransactions s.connection
  · rcases begun : e.begin s.connection with ⟨outcome, connection⟩
    cases outcome with
    | done => simp only [native, if_true, begun, opened]
    | failed failure => exact absurd ⟨native, by rw [begun]; rfl⟩ accepted
    | crashed text => exact absurd ⟨native, by rw [begun]; rfl⟩ accepted
  · simp only [native, Bool.false_eq_true, if_false, opened]

theorem open_scope_refused (e : Engine σ) (s : Session σ ρ) (idle : s.scope = .idle)
    (refused : Refused e s) : openScope e s =
      ((e.begin s.connection).1, { s with connection := (e.begin s.connection).2 }) := by
  obtain ⟨native, notBegun⟩ := refused
  have free : ¬ s.scope = .open := by simp [idle]
  rw [openScope, if_neg free, if_pos native]
  rcases begun : e.begin s.connection with ⟨outcome, connection⟩
  rw [begun] at notBegun
  cases outcome with
  | done => cases notBegun
  | failed failure => rfl
  | crashed text => rfl

theorem transaction_opened (e : Engine σ) (body : Action (Session σ ρ) α) (s : Session σ ρ)
    (idle : s.scope = .idle) (accepted : ¬ Refused e s) :
    transaction e body s = closeScope e (body (opened e s)).1 (body (opened e s)).2 := by
  simp only [transaction, open_scope_opened e s idle accepted]

theorem transaction_refused (e : Engine σ) (s : Session σ ρ) (idle : s.scope = .idle)
    (refused : Refused e s) :
    ∃ outcome : Outcome α, outcome.isDone = false ∧ ∀ body : Action (Session σ ρ) α,
      transaction e body s = (outcome, { s with connection := (e.begin s.connection).2 }) := by
  have opening := open_scope_refused e s idle refused
  have notBegun := refused.2
  rcases begun : (e.begin s.connection).1 with _ | failure | text
  · rw [begun] at notBegun
    cases notBegun
  · rw [begun] at opening
    exact ⟨.failed failure, rfl, fun body => by simp only [transaction, opening]⟩
  · rw [begun] at opening
    exact ⟨.crashed text, rfl, fun body => by simp only [transaction, opening]⟩

theorem transaction_busy (e : Engine σ) (body : Action (Session σ ρ) α) (s : Session σ ρ)
    (busy : s.scope = .open) :
    transaction e body s = (.failed .alreadyInTransaction, s) := by
  simp only [transaction, open_scope_busy e s busy]

theorem transaction_idle (e : Engine σ) (body : Action (Session σ ρ) α) (s : Session σ ρ)
    (idle : s.scope = .idle) : (transaction e body s).2.scope = .idle := by
  by_cases refused : Refused e s
  · obtain ⟨outcome, -, same⟩ := transaction_refused (α := α) e s idle refused
    rw [same body]
    exact idle
  · rw [transaction_opened e body s idle refused]
    exact close_scope_idle e _ _

-- The calls that close a scope whose body has left the engine in `state`. Whether a commit
-- succeeds there is the engine's to say.
inductive Closing (e : Engine σ) (state : σ) : List Call → Prop where
  | committed (succeeded : (e.commit state).1.isDone = true) : Closing e state [.commit]
  | undone (notSucceeded : (e.commit state).1.isDone = false) : Closing e state [.commit, .rollback]
  | rolledBack : Closing e state [.rollback]

theorem roll_back_calls (e : Engine σ) (warning : Failure → Warning)
    (s : Session (Traced σ) ρ) :
    (s.rollBack e.traced warning).connection.calls = s.connection.calls ++ [.rollback] := by
  rw [roll_back_connection]
  rfl

theorem commit_scope_calls (e : Engine σ) (s : Session (Traced σ) ρ) :
    ((commitScope e.traced s).1.isDone = true ∧ (e.commit s.connection.state).1.isDone = true ∧
      (commitScope e.traced s).2.connection.calls = s.connection.calls ++ [.commit]) ∨
    ((commitScope e.traced s).1.isDone = false ∧ (e.commit s.connection.state).1.isDone = false ∧
      (commitScope e.traced s).2.connection.calls =
        s.connection.calls ++ [.commit, .rollback]) := by
  rcases committed : e.commit s.connection.state with ⟨outcome, state⟩
  have traced : e.traced.commit s.connection =
      (outcome, ⟨state, s.connection.calls ++ [.commit]⟩) := by
    simp only [Engine.traced, Traced.record, committed]
  cases outcome with
  | done =>
    rw [commit_scope_done e.traced s _ traced]
    exact .inl ⟨rfl, rfl, rfl⟩
  | failed failure =>
    rw [commit_scope_failed e.traced s failure _ traced]
    refine .inr ⟨rfl, rfl, ?_⟩
    simp only [abandon, roll_back_calls, List.append_assoc, List.cons_append, List.nil_append]
  | crashed text =>
    rw [commit_scope_crashed e.traced s text _ traced]
    refine .inr ⟨rfl, rfl, ?_⟩
    simp only [abandon, roll_back_calls, List.append_assoc, List.cons_append, List.nil_append]

theorem close_scope_calls (e : Engine σ) (outcome : Outcome α) (s : Session (Traced σ) ρ) :
    ∃ closing, Closing e s.connection.state closing ∧
      (closeScope e.traced outcome s).2.connection.calls = s.connection.calls ++ closing ∧
      (outcome.isDone = true ↔ .commit ∈ closing) ∧
      ((closeScope e.traced outcome s).1.isDone = true ↔ closing = [.commit]) := by
  cases outcome with
  | done a =>
    obtain ⟨after, isDone⟩ := close_scope_done e.traced a s
    rw [after, isDone]
    rcases commit_scope_calls e s with ⟨done, succeeded, calls⟩ | ⟨done, notSucceeded, calls⟩
    · exact ⟨[.commit], .committed succeeded, calls, by simp [Outcome.isDone], by simp [done]⟩
    · exact ⟨[.commit, .rollback], .undone notSucceeded, calls, by simp [Outcome.isDone],
        by simp [done]⟩
  | failed failure =>
    exact ⟨[.rollback], .rolledBack, roll_back_calls e _ s, by simp [Outcome.isDone],
      by simp [closeScope, Outcome.isDone]⟩
  | crashed text =>
    exact ⟨[.rollback], .rolledBack, roll_back_calls e _ s, by simp [Outcome.isDone],
      by simp [closeScope, Outcome.isDone]⟩

theorem opened_calls (e : Engine σ) (s : Session (Traced σ) ρ) :
    (opened e.traced s).connection.calls =
      s.connection.calls ++ if e.hasTransactions s.connection.state then [.begin] else [] := by
  by_cases native : e.hasTransactions s.connection.state
  · simp [opened, Engine.traced, Traced.record, native]
  · simp [opened, Engine.traced, native]

-- One transaction, whatever the engine and the body do: a refused beginning is the only call and
-- the body is not run; otherwise the calls are the beginning, if the engine has one, what the body
-- adds, and the closing.
theorem transaction_calls (e : Engine σ) (body : Action (Session (Traced σ) ρ) α)
    (s : Session (Traced σ) ρ) (idle : s.scope = .idle) :
    (transaction e.traced body s).2.scope = .idle ∧
    (Refused e.traced s →
      (transaction e.traced body s).1.isDone = false ∧
      (transaction e.traced body s).2.connection.calls = s.connection.calls ++ [.begin] ∧
      ∀ other, transaction e.traced other s = transaction e.traced body s) ∧
    (¬ Refused e.traced s →
      (opened e.traced s).connection.calls =
        s.connection.calls ++ (if e.hasTransactions s.connection.state then [.begin] else []) ∧
      ∃ closing, Closing e (body (opened e.traced s)).2.connection.state closing ∧
        (transaction e.traced body s).2.connection.calls =
          (body (opened e.traced s)).2.connection.calls ++ closing ∧
        ((body (opened e.traced s)).1.isDone = true ↔ .commit ∈ closing) ∧
        ((transaction e.traced body s).1.isDone = true ↔ closing = [.commit])) := by
  refine ⟨transaction_idle e.traced body s idle, ?_, ?_⟩
  · intro refused
    obtain ⟨outcome, notDone, same⟩ := transaction_refused (α := α) e.traced s idle refused
    refine ⟨?_, ?_, fun other => (same other).trans (same body).symm⟩
    · rw [same body]
      exact notDone
    · rw [same body]
      rfl
  · intro accepted
    refine ⟨opened_calls e s, ?_⟩
    rw [transaction_opened e.traced body s idle accepted]
    exact close_scope_calls e _ _

def failingCommits : Scripted.Behaviour where
  style := .sqlite
  hasTransactions := true
  hasScripts := false
  reportsRowIds := false
  cacheCapacity := none
  beginError := none
  commitError := some "disk full"
  rollbackError := none
  rowIdError := none
  scriptError := none
  script := none
  rowIds := .none
  replies := []

theorem transaction_calls_failing_commit :
    let s : Session (Traced Scripted.State) Unit := start ⟨Scripted.start failingCommits, []⟩ ()
    let after := (transaction Scripted.engine.traced
      (onConnection (Scripted.engine.traced.execute "DELETE FROM t" [])) s).2
    s.scope = .idle ∧ after.scope = .idle ∧
    after.connection.calls = [.begin, .execute "DELETE FROM t" [], .commit, .rollback] := by
  intro s after
  obtain ⟨idle, -, accepted⟩ := transaction_calls Scripted.engine
    (onConnection (Scripted.engine.traced.execute "DELETE FROM t" [])) s rfl
  have begins : ¬ Refused Scripted.engine.traced s := fun refused => by cases refused.2
  obtain ⟨-, closing, closes, calls, answered, -⟩ := accepted begins
  have commits : Call.commit ∈ closing := answered.mp rfl
  refine ⟨rfl, idle, calls.trans ?_⟩
  cases closes with
  | committed succeeded => cases succeeded
  | undone notSucceeded => rfl
  | rolledBack => simp at commits

end Session
end SqlCatalog
