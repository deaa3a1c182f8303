import SqlCatalog.Proofs.Calling
import SqlCatalog.Proofs.Database
/-!
Between the calls and transactions of a catalog on a database no transaction is open, whatever the
statements, the bodies and the operations do to the transaction that they run in
(`steps_settled`).
-/
namespace SqlCatalog

open Database Session

variable {γ π ν ρ α : Type}

namespace Database.Driver

variable (d : Driver γ π)

theorem engine_rollback_autocommit (ends : EndsTransactions d) (h : Attached γ) :
    ∃ after, d.engine.rollback h = (.ok (), after) ∧ d.autocommit after.connection = true := by
  cases idle : d.autocommit h.connection with
  | true => exact ⟨h, d.engine_rollback_idle h idle, idle⟩
  | false =>
    obtain ⟨after, rolled, closed⟩ := ends.rollback_done h.connection idle
    exact ⟨{ h with connection := after }, d.engine_rollback_busy h after idle rolled, closed⟩

theorem engine_commit_autocommit (ends : EndsTransactions d) (h after : Attached γ)
    (committed : d.engine.commit h = (.done (), after)) :
    d.autocommit after.connection = true := by
  rcases d.engine_commit_cases h with
    ⟨idle, same⟩ | ⟨-, next, ran, same⟩ | ⟨-, problem, next, ran, same⟩
  · rw [same] at committed
    cases committed
    exact idle
  · rw [same] at committed
    cases committed
    exact ends.commit_done h.connection next ran
  · rw [same] at committed
    cases committed

theorem engine_begin_autocommit (ends : EndsTransactions d) (h : Attached γ)
    (idle : d.autocommit h.connection = true) (refused : (d.engine.begin h).1.isDone = false) :
    d.autocommit (d.engine.begin h).2.connection = true := by
  rcases d.engine_begin_cases h with ⟨after, ran, same⟩ | ⟨problem, after, ran, same⟩
  · rw [same] at refused
    cases refused
  · rw [same]
    exact ends.begin_failed h.connection after problem idle ran

end Database.Driver

namespace Session

def Settled (d : Driver γ π) (s : Session (Attached γ) ρ) : Prop :=
  s.scope = .idle ∧ d.autocommit s.connection.connection = true

variable (d : Driver γ π)

theorem roll_back_settled (ends : EndsTransactions d) (warning : Failure → Warning)
    (s : Session (Attached γ) ρ) : Settled d (s.rollBack d.engine warning) := by
  refine ⟨roll_back_idle d.engine warning s, ?_⟩
  obtain ⟨after, rolled, closed⟩ := d.engine_rollback_autocommit ends s.connection
  rw [roll_back_connection, rolled]
  exact closed

-- A commit that fails may leave the transaction open; the rollback behind it then ends it.
theorem commit_scope_settled (ends : EndsTransactions d) (s : Session (Attached γ) ρ) :
    Settled d (commitScope d.engine s).2 := by
  rcases committed : d.engine.commit s.connection with ⟨outcome, connection⟩
  cases outcome with
  | done =>
    rw [commit_scope_done d.engine s connection committed]
    exact ⟨rfl, d.engine_commit_autocommit ends s.connection connection committed⟩
  | failed failure =>
    rw [commit_scope_failed d.engine s failure connection committed]
    exact roll_back_settled d ends _ _
  | crashed text =>
    rw [commit_scope_crashed d.engine s text connection committed]
    exact roll_back_settled d ends _ _

theorem close_scope_settled (ends : EndsTransactions d) (outcome : Outcome α)
    (s : Session (Attached γ) ρ) : Settled d (closeScope d.engine outcome s).2 := by
  cases outcome with
  | done a =>
    rw [(close_scope_done d.engine a s).1]
    exact commit_scope_settled d ends s
  | failed failure => exact roll_back_settled d ends _ s
  | crashed text => exact roll_back_settled d ends _ s

-- Nothing is asked of the body: it may end the transaction, begin another one, or crash.
theorem transaction_settled (ends : EndsTransactions d)
    (body : Action (Session (Attached γ) ρ) α) (s : Session (Attached γ) ρ)
    (settled : Settled d s) : Settled d (transaction d.engine body s).2 := by
  obtain ⟨idle, closed⟩ := settled
  by_cases refused : Refused d.engine s
  · obtain ⟨outcome, -, same⟩ := transaction_refused (α := α) d.engine s idle refused
    rw [same body]
    exact ⟨idle, d.engine_begin_autocommit ends s.connection closed refused.2⟩
  · rw [transaction_opened d.engine body s idle refused]
    exact close_scope_settled d ends _ _

end Session

namespace Catalog

inductive Step (γ ν : Type) : Type 1 where
  | call (files : FileView) (name : String) (args : Arguments)
  | transaction {α : Type} (body : Action (Catalog (Attached γ) ν) α)
  | inventory {α : Type} (change : Inventory → Except Failure (α × Inventory × Option Warning))

variable (d : Driver γ π)

def Step.take (s : Catalog (Attached γ) ν) : Step γ ν → Catalog (Attached γ) ν
  | .call files name args => (Catalog.call d.engine files name args s).2
  | .transaction body => (Catalog.transaction d.engine body s).2
  | .inventory change => (onInventory change s).2

theorem call_settled (ends : EndsTransactions d) (files : FileView) (name : String)
    (args : Arguments) (s : Catalog (Attached γ) ν) (settled : Settled d s) :
    Settled d (call d.engine files name args s).2 := by
  obtain ⟨found, connection, scope, ways⟩ := call_cases d.engine files name args s
  have kept : Settled d found := by
    rw [Settled, connection, scope]
    exact settled
  rcases ways with ⟨failure, -, same⟩ | ⟨op, -, -, same⟩ | ⟨op, -, -, same⟩
  · rw [same]
    exact kept
  · rw [same]
    exact kept
  · rw [same]
    exact transaction_settled d ends _ found kept

theorem step_settled (ends : EndsTransactions d) (step : Step γ ν) (s : Catalog (Attached γ) ν)
    (settled : Settled d s) : Settled d (step.take d s) := by
  cases step with
  | call files name args => exact call_settled d ends files name args s settled
  | transaction body => exact transaction_settled d ends body s settled
  | inventory change =>
    obtain ⟨connection, scope⟩ := on_inventory_connection s change
    rw [Step.take, Settled, connection, scope]
    exact settled

theorem history_settled (ends : EndsTransactions d) (steps : List (Step γ ν))
    (s : Catalog (Attached γ) ν) (settled : Settled d s) :
    Settled d (steps.foldl (Step.take d) s) := by
  induction steps generalizing s with
  | nil => exact settled
  | cons step rest ih => exact ih (step.take d s) (step_settled d ends step s settled)

-- After each of any steps with a catalog on a database, no scope is open and no transaction.
theorem steps_settled (ends : EndsTransactions d) (steps : List (Step γ ν))
    (s : Catalog (Attached γ) ν) (idle : s.scope = .idle)
    (closed : d.autocommit s.connection.connection = true) (n : Nat) :
    ((steps.take n).foldl (Step.take d) s).scope = .idle ∧
      d.autocommit ((steps.take n).foldl (Step.take d) s).connection.connection = true :=
  history_settled d ends (steps.take n) s ⟨idle, closed⟩

end Catalog

namespace Database.Connection

-- Ends the transaction that it runs in, begins another one and crashes.
def restartAndCrash : Action (Catalog Handle Unit) Unit := do
  let _ ← Session.onConnection (driver.engine.executeScript "COMMIT; BEGIN")
  fun s => (.crashed "stopped", s)

theorem steps_settled_crash :
    let s : Catalog Handle Unit :=
      Session.start ⟨.start, 100⟩ ⟨.empty ⟨.sqlite, .sqlite⟩ none, .standard, ()⟩
    let after := [Catalog.Step.transaction restartAndCrash].foldl (Catalog.Step.take driver) s
    EndsTransactions driver ∧ s.scope = .idle ∧ driver.autocommit s.connection.connection = true ∧
    driver.autocommit (restartAndCrash (opened driver.engine s)).2.connection.connection = false ∧
    after.scope = .idle ∧ driver.autocommit after.connection.connection = true := by
  intro s after
  have leaks : driver.autocommit
      (restartAndCrash (opened driver.engine s)).2.connection.connection = false := by
    simp only [s]
    cbv
  exact ⟨ends_transactions, rfl, rfl, leaks,
    Catalog.steps_settled driver ends_transactions [.transaction restartAndCrash] s rfl rfl 1⟩

end Database.Connection
end SqlCatalog
