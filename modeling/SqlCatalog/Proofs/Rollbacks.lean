import SqlCatalog.Proofs.Scope
/-!
What a transaction passes on. The outcome is that of the body, or of a commit that did not succeed,
whatever the rollback does after it; a rollback that fails is told in one warning
(`transaction_passes_on`).
-/
namespace SqlCatalog

variable {σ ρ α : Type}

namespace Session

def Warned (e : Engine σ) (connection : σ) (message : String) (added : List Warning) : Prop :=
  match (e.rollback connection).1 with
  | .ok () => added = []
  | .error problem => ∃ warning, added = [warning] ∧ warning.message = message ∧
      warning.fields = [("error", problem.message)]

theorem roll_back_warned (e : Engine σ) (warning : Failure → Warning) (s : Session σ ρ)
    (message : String) (worded : ∀ problem, (warning problem).message = message)
    (tells : ∀ problem, (warning problem).fields = [("error", problem.message)]) :
    ∃ added, (s.rollBack e warning).warnings = s.warnings ++ added ∧
      Warned e s.connection message added := by
  rcases rolled : e.rollback s.connection with ⟨result, connection⟩
  cases result with
  | ok =>
    refine ⟨[], ?_, ?_⟩
    · rw [roll_back_ok e warning s connection rolled, List.append_nil]
    · simp only [Warned, rolled]
  | error problem =>
    refine ⟨[warning problem], ?_, ?_⟩
    · rw [roll_back_error e warning s problem connection rolled]
      rfl
    · simp only [Warned, rolled]
      exact ⟨warning problem, rfl, worded problem, tells problem⟩

theorem abandon_warned (e : Engine σ) (s : Session σ ρ) :
    ∃ added, (s.abandon e).warnings = s.warnings ++ added ∧
      Warned e s.connection "rollback of unfinished scope failed" added :=
  roll_back_warned e .scopeRollbackFailed s _ (fun _ => rfl) fun _ => rfl

-- What comes of a scope whose body has left the connection and ended so: the outcome, and the
-- warnings of the rollback, if there is one.
def PassesOn (e : Engine σ) (connection : σ) (body : Outcome α) (outcome : Outcome α)
    (added : List Warning) : Prop :=
  match body with
  | .failed failure => outcome = .failed failure ∧
      Warned e connection ("rollback failed after error: " ++ failure.message) added
  | .crashed text => outcome = .crashed text ∧
      Warned e connection "rollback of unfinished scope failed" added
  | .done a =>
    match e.commit connection with
    | (.done (), _) => outcome = .done a ∧ added = []
    | (.failed failure, after) => outcome = .failed failure ∧
        Warned e after "rollback of unfinished scope failed" added
    | (.crashed text, after) => outcome = .crashed text ∧
        Warned e after "rollback of unfinished scope failed" added

theorem close_scope_passes_on (e : Engine σ) (body : Outcome α) (s : Session σ ρ) :
    ∃ added, (closeScope e body s).2.warnings = s.warnings ++ added ∧
      PassesOn e s.connection body (closeScope e body s).1 added := by
  cases body with
  | failed failure =>
    obtain ⟨added, grown, warned⟩ := roll_back_warned e (.rollbackFailed failure) s
      ("rollback failed after error: " ++ failure.message) (fun _ => rfl) fun _ => rfl
    exact ⟨added, grown, rfl, warned⟩
  | crashed text =>
    obtain ⟨added, grown, warned⟩ := abandon_warned e s
    exact ⟨added, grown, rfl, warned⟩
  | done a =>
    rcases committed : e.commit s.connection with ⟨outcome, connection⟩
    cases outcome with
    | done =>
      simp only [closeScope, commit_scope_done e s connection committed, PassesOn, committed]
      exact ⟨[], (List.append_nil _).symm, trivial, rfl⟩
    | failed failure =>
      simp only [closeScope, commit_scope_failed e s failure connection committed, PassesOn,
        committed]
      obtain ⟨added, grown, warned⟩ := abandon_warned e { s with connection }
      exact ⟨added, grown, trivial, warned⟩
    | crashed text =>
      simp only [closeScope, commit_scope_crashed e s text connection committed, PassesOn, committed]
      obtain ⟨added, grown, warned⟩ := abandon_warned e { s with connection }
      exact ⟨added, grown, trivial, warned⟩

theorem refused_passes_on (e : Engine σ) (body : Action (Session σ ρ) α) (s : Session σ ρ)
    (idle : s.scope = .idle) (refused : Refused e s) :
    (transaction e body s).1.ending = (e.begin s.connection).1 ∧
      (transaction e body s).2.warnings = s.warnings := by
  have opening := open_scope_refused e s idle refused
  have notBegun := refused.2
  rcases begun : (e.begin s.connection).1 with _ | failure | text
  · rw [begun] at notBegun
    cases notBegun
  · rw [begun] at opening
    simp only [transaction, opening]
    exact ⟨rfl, trivial⟩
  · rw [begun] at opening
    simp only [transaction, opening]
    exact ⟨rfl, trivial⟩

-- One transaction on an idle session. Where the beginning is refused its error is passed on and no
-- warning is given; otherwise the closing alone decides what comes of the body's outcome and which
-- warning is given behind those of the body.
theorem transaction_passes_on (e : Engine σ) (body : Action (Session σ ρ) α) (s : Session σ ρ)
    (idle : s.scope = .idle) :
    (Refused e s →
      (transaction e body s).1.ending = (e.begin s.connection).1 ∧
      (transaction e body s).2.warnings = s.warnings) ∧
    (¬ Refused e s →
      ∃ added,
        (transaction e body s).2.warnings = (body (opened e s)).2.warnings ++ added ∧
        PassesOn e (body (opened e s)).2.connection (body (opened e s)).1
          (transaction e body s).1 added) := by
  refine ⟨refused_passes_on e body s idle, fun accepted => ?_⟩
  rw [transaction_opened e body s idle accepted]
  exact close_scope_passes_on e _ _

def brokenClosings : Scripted.Behaviour :=
  { failingCommits with rollbackError := some "connection lost" }

theorem transaction_passes_on_broken :
    let e := Scripted.engine
    let s : Session Scripted.State Unit := start (Scripted.start brokenClosings) ()
    let failing := transaction e (Action.fail (.driver "no such table") : Action _ Unit) s
    let unsaved := transaction e (pure ()) s
    s.scope = .idle ∧ ¬ Refused e s ∧
    failing.1 = .failed (.driver "no such table") ∧
    (∃ warning, failing.2.warnings = [warning] ∧
      warning.message = "rollback failed after error: no such table" ∧
      warning.fields = [("error", "connection lost")]) ∧
    unsaved.1 = .failed (.driver "disk full") ∧
    ∃ warning, unsaved.2.warnings = [warning] ∧
      warning.message = "rollback of unfinished scope failed" ∧
      warning.fields = [("error", "connection lost")] := by
  intro e s failing unsaved
  have begins : ¬ Refused e s := fun refused => by cases refused.2
  obtain ⟨first, grown, error, warned⟩ :=
    (transaction_passes_on e (Action.fail (.driver "no such table") : Action _ Unit) s rfl).2 begins
  obtain ⟨second, more, other, told⟩ := (transaction_passes_on e (pure ()) s rfl).2 begins
  obtain ⟨warning, rfl, message, fields⟩ := warned
  obtain ⟨last, rfl, said, problem⟩ := told
  exact ⟨rfl, begins, error, ⟨warning, grown, message, fields⟩, other, last, more, said, problem⟩

end Session
end SqlCatalog
