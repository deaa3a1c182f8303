import SqlCatalog.Engine.Basic
import SqlCatalog.Inventory
/-!
Scopes of work on one connection. While a scope is open nothing else opens one; it ends with exactly
one successful commit or exactly one rollback, after a commit that did not succeed included, and
then the connection is idle again, whatever happened.
-/
namespace SqlCatalog

inductive ScopeState where
  | idle
  | open
deriving DecidableEq

structure Session (σ ρ : Type) where
  connection : σ
  scope : ScopeState
  warnings : List Warning
  rest : ρ

namespace Session

variable {σ ρ α : Type}

def start (connection : σ) (rest : ρ) : Session σ ρ := ⟨connection, .idle, [], rest⟩

def onConnection (action : Action σ α) : Action (Session σ ρ) α := fun s =>
  match action s.connection with
  | (outcome, connection) => (outcome, { s with connection })

def warn (s : Session σ ρ) (w : Warning) : Session σ ρ := { s with warnings := s.warnings ++ [w] }

def openScope (e : Engine σ) : Action (Session σ ρ) Unit := fun s =>
  if s.scope = .open then (.failed .alreadyInTransaction, s)
  else if e.hasTransactions s.connection then
    match e.begin s.connection with
    | (.done (), connection) => (.done (), { s with connection, scope := .open })
    | (outcome, connection) => (outcome, { s with connection })
  else (.done (), { s with scope := .open })

-- Ends the scope by a rollback; where that fails, the warning that the error makes is added.
def rollBack (e : Engine σ) (warning : Failure → Warning) (s : Session σ ρ) : Session σ ρ :=
  match e.rollback s.connection with
  | (.ok (), connection) => { s with connection, scope := .idle }
  | (.error problem, connection) => warn { s with connection, scope := .idle } (warning problem)

def abandon (e : Engine σ) (s : Session σ ρ) : Session σ ρ :=
  s.rollBack e .scopeRollbackFailed

-- Ends the scope by a commit; one that does not succeed is followed by a rollback.
def commitScope (e : Engine σ) : Action (Session σ ρ) Unit := fun s =>
  match e.commit s.connection with
  | (.done (), connection) => (.done (), { s with connection, scope := .idle })
  | (.failed failure, connection) => (.failed failure, abandon e { s with connection })
  | (.crashed text, connection) => (.crashed text, abandon e { s with connection })

def rollBackScope (e : Engine σ) : Action (Session σ ρ) Unit := fun s =>
  match e.rollback s.connection with
  | (.ok (), connection) => (.done (), { s with connection, scope := .idle })
  | (.error failure, connection) => (.failed failure, { s with connection, scope := .idle })

-- Ends the scope as the outcome of its body asks: an answer is committed, an error or a crash
-- rolled back, and passed on whatever the rollback does.
def closeScope (e : Engine σ) : Outcome α → Action (Session σ ρ) α
  | .done a => fun s =>
    match commitScope e s with
    | (.done (), s) => (.done a, s)
    | (.failed failure, s) => (.failed failure, s)
    | (.crashed text, s) => (.crashed text, s)
  | .failed failure => fun s => (.failed failure, s.rollBack e (.rollbackFailed failure))
  | .crashed text => fun s => (.crashed text, s.abandon e)

def transaction (e : Engine σ) (body : Action (Session σ ρ) α) : Action (Session σ ρ) α := fun s =>
  match openScope e s with
  | (.done (), s) =>
    match body s with
    | (outcome, s) => closeScope e outcome s
  | (.failed failure, s) => (.failed failure, s)
  | (.crashed text, s) => (.crashed text, s)

-- Holds the connection while the action is taken, without beginning or ending a transaction.
def holding (action : Action (Session σ ρ) α) : Action (Session σ ρ) α := fun s =>
  if s.scope = .open then (.failed .alreadyInTransaction, s)
  else
    match action { s with scope := .open } with
    | (outcome, s) => (outcome, { s with scope := .idle })

end Session
end SqlCatalog
