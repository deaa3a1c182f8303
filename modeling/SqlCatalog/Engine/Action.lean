import SqlCatalog.Failure
/-!
Actions on a state. An action answers, fails with an error, or crashes: a crash, unlike an error, is
nothing that the program raised or handles. Whatever the outcome, what was done to the state so far
stays done.
-/
namespace SqlCatalog

inductive Outcome (α : Type) where
  | done (a : α)
  | failed (failure : Failure)
  | crashed (text : String)

def Action (σ α : Type) : Type := σ → Outcome α × σ

namespace Action

variable {σ α β : Type}

protected def pure (a : α) : Action σ α := fun s => (.done a, s)

-- Goes on after an answer; an error or a crash ends it.
protected def bind (x : Action σ α) (f : α → Action σ β) : Action σ β := fun s =>
  match x s with
  | (.done a, s) => f a s
  | (.failed failure, s) => (.failed failure, s)
  | (.crashed text, s) => (.crashed text, s)

instance : Monad (Action σ) where
  pure := Action.pure
  bind := Action.bind

def fail (failure : Failure) : Action σ α := fun s => (.failed failure, s)

def ofExcept : Except Failure α → Action σ α
  | .ok a => fun s => (.done a, s)
  | .error failure => fail failure

def gets (f : σ → α) : Action σ α := fun s => (.done (f s), s)

def each (f : α → Action σ β) : List α → Action σ (List β)
  | [] => Action.pure []
  | a :: as => (f a).bind fun b => (each f as).bind fun bs => Action.pure (b :: bs)

theorem pure_apply (a : α) (s : σ) : (pure a : Action σ α) s = (.done a, s) := rfl

theorem bind_apply (x : Action σ α) (f : α → Action σ β) (s : σ) :
    (x >>= f) s = match x s with
      | (.done a, s) => f a s
      | (.failed failure, s) => (.failed failure, s)
      | (.crashed text, s) => (.crashed text, s) := rfl

end Action
end SqlCatalog
