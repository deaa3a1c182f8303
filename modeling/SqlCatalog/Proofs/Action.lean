import SqlCatalog.Engine.Action
/-!
Rules for actions: where an action leads from the states of a predicate, and how an answer of a
sequence comes from the answers of its parts.
-/
namespace SqlCatalog

variable {σ α β : Type}

namespace Outcome

def isDone : Outcome α → Bool
  | .done _ => true
  | .failed _ => false
  | .crashed _ => false

theorem is_done_iff (outcome : Outcome α) : outcome.isDone = true ↔ ∃ a, outcome = .done a := by
  cases outcome with
  | done a => exact ⟨fun _ => ⟨a, rfl⟩, fun _ => rfl⟩
  | failed failure => simp [isDone]
  | crashed text => simp [isDone]

def map (f : α → β) : Outcome α → Outcome β
  | .done a => .done (f a)
  | .failed failure => .failed failure
  | .crashed text => .crashed text

def ending (outcome : Outcome α) : Outcome Unit := outcome.map fun _ => ()

theorem ending_map (f : α → β) (outcome : Outcome α) : (outcome.map f).ending = outcome.ending := by
  cases outcome <;> rfl

theorem ending_done (outcome : Outcome α) : outcome.ending.isDone = outcome.isDone := by
  cases outcome <;> rfl

theorem map_done (f : α → β) (outcome : Outcome α) : (outcome.map f).isDone = outcome.isDone := by
  cases outcome <;> rfl

theorem done_of_map {f : α → β} {outcome : Outcome α} {b : β} (mapped : outcome.map f = .done b) :
    ∃ a, outcome = .done a ∧ f a = b := by
  cases outcome with
  | done a =>
    cases mapped
    exact ⟨a, rfl, rfl⟩
  | failed failure => cases mapped
  | crashed text => cases mapped

theorem not_done_of_ending {outcome : Outcome α} {result : Outcome β}
    (stops : outcome.isDone = false) (same : result.ending = outcome.ending) :
    result.isDone = false := by
  rw [← ending_done, same, ending_done, stops]

theorem ne_done_of_ending {outcome : Outcome α} {result : Outcome β}
    (stops : outcome.isDone = false) (same : result.ending = outcome.ending) (b : β) :
    result ≠ .done b := by
  have unanswered := not_done_of_ending stops same
  rintro rfl
  cases unanswered

theorem eq_map_of_ending (f : α → β) {outcome : Outcome α} {result : Outcome β}
    (stops : outcome.isDone = false) (same : result.ending = outcome.ending) :
    result = outcome.map f := by
  cases outcome with
  | done a => cases stops
  | failed failure =>
    cases result with
    | done b => cases same
    | failed other =>
      cases same
      rfl
    | crashed text => cases same
  | crashed text =>
    cases result with
    | done b => cases same
    | failed failure => cases same
    | crashed other =>
      cases same
      rfl

end Outcome

namespace Action

def mapped (f : α → β) (action : Action σ α) : Action σ β := fun s =>
  ((action s).1.map f, (action s).2)

-- From `before`, an answer leads to `after`, an error or a crash to `broken`.
def Leads (before : σ → Prop) (action : Action σ α) (after : α → σ → Prop) (broken : σ → Prop) :
    Prop :=
  ∀ s, before s →
    match action s with
    | (.done a, s) => after a s
    | (.failed _, s) => broken s
    | (.crashed _, s) => broken s

variable {before : σ → Prop} {broken : σ → Prop}

theorem leads_pure {after : α → σ → Prop} (a : α) (kept : ∀ s, before s → after a s) :
    Leads before (pure a) after broken := by
  intro s holds
  exact kept s holds

theorem leads_fail {after : α → σ → Prop} (failure : Failure) (breaks : ∀ s, before s → broken s) :
    Leads before (fail failure) after broken := by
  intro s holds
  exact breaks s holds

theorem leads_gets (f : σ → α) : Leads before (gets f) (fun _ => before) broken := by
  intro s holds
  exact holds

-- A check that is passed leaves the state, and a fact for what follows.
theorem leads_checked {after : β → σ → Prop} {x : Except Failure α} {f : α → Action σ β}
    (breaks : ∀ s, before s → broken s)
    (passed : ∀ a, x = .ok a → Leads before (f a) after broken) :
    Leads before (ofExcept x >>= f) after broken := by
  cases x with
  | ok a => exact passed a rfl
  | error failure => exact leads_fail failure breaks

theorem leads_state {x : Action σ α} (leads : Leads before x (fun _ => before) before) {s : σ}
    (holds : before s) : before (x s).2 := by
  have kept := leads s holds
  rcases ran : x s with ⟨outcome, after⟩
  rw [ran] at kept
  cases outcome <;> exact kept

theorem leads_bind {between : α → σ → Prop} {after : β → σ → Prop} {x : Action σ α}
    {f : α → Action σ β} (first : Leads before x between broken)
    (second : ∀ a, Leads (between a) (f a) after broken) : Leads before (x >>= f) after broken := by
  intro s holds
  have passed := first s holds
  rw [bind_apply]
  rcases ran : x s with ⟨outcome, next⟩
  rw [ran] at passed
  cases outcome with
  | done a => exact second a next passed
  | failed failure => exact passed
  | crashed text => exact passed

theorem leads_each (f : α → Action σ β) (l : List α)
    (one : ∀ a ∈ l, Leads before (f a) (fun _ => before) broken) :
    Leads before (each f l) (fun _ => before) broken := by
  induction l with
  | nil => exact leads_pure [] fun _ holds => holds
  | cons a rest ih =>
    refine leads_bind (one a (by simp)) fun b => ?_
    refine leads_bind (ih fun next member => one next (by simp [member])) fun bs => ?_
    exact leads_pure (b :: bs) fun _ holds => holds

def Avoids (kind : Failure → Prop) (action : Action σ α) : Prop :=
  ∀ s failure, (action s).1 = .failed failure → ¬ kind failure

section Avoids

variable {kind : Failure → Prop}

theorem avoids_pure (a : α) : Avoids kind (pure a : Action σ α) := by
  intro s failure ended
  cases ended

theorem avoids_fail (failure : Failure) (other : ¬ kind failure) :
    Avoids kind (fail failure : Action σ α) := by
  intro s failure ended
  cases ended
  exact other

theorem avoids_gets (f : σ → α) : Avoids kind (gets f) := by
  intro s failure ended
  cases ended

theorem avoids_bind {x : Action σ α} {f : α → Action σ β} (first : Avoids kind x)
    (second : ∀ a, Avoids kind (f a)) : Avoids kind (x >>= f) := by
  intro s failure ended
  rw [bind_apply] at ended
  rcases ran : x s with ⟨outcome, next⟩
  rw [ran] at ended
  cases outcome with
  | done a => exact second a next failure ended
  | failed other =>
    cases ended
    have failed : (x s).1 = .failed failure := by rw [ran]
    exact first s failure failed
  | crashed text => cases ended

theorem avoids_each (f : α → Action σ β) (l : List α) (one : ∀ a ∈ l, Avoids kind (f a)) :
    Avoids kind (each f l) := by
  induction l with
  | nil => exact avoids_pure []
  | cons a rest ih =>
    apply avoids_bind (one a List.mem_cons_self)
    intro b
    apply avoids_bind (ih fun next member => one next (List.mem_cons_of_mem _ member))
    exact fun bs => avoids_pure (b :: bs)

end Avoids

theorem bind_done {x : Action σ α} {f : α → Action σ β} {s after : σ} {b : β}
    (ran : (x >>= f) s = (.done b, after)) :
    ∃ a between, x s = (.done a, between) ∧ f a between = (.done b, after) := by
  rw [bind_apply] at ran
  rcases first : x s with ⟨outcome, between⟩
  rw [first] at ran
  cases outcome with
  | done a => exact ⟨a, between, rfl, ran⟩
  | failed failure => cases ran
  | crashed text => cases ran

theorem of_except_ok_bind (a : α) (f : α → Action σ β) : (ofExcept (.ok a) >>= f) = f a := rfl

theorem of_except_done {x : Except Failure α} {s after : σ} {a : α}
    (ran : ofExcept x s = (.done a, after)) : x = .ok a ∧ after = s := by
  cases x with
  | ok b =>
    cases ran
    exact ⟨rfl, rfl⟩
  | error failure => cases ran

theorem each_cons (f : α → Action σ β) {a : α} (l : List α) {s between : σ} {b : β}
    (head : f a s = (.done b, between)) :
    each f (a :: l) s = ((each f l between).1.map (b :: ·), (each f l between).2) := by
  simp only [each, Action.bind, head]
  rcases each f l between with ⟨outcome, after⟩
  cases outcome <;> rfl

theorem each_cons_failed (f : α → Action σ β) {a : α} (l : List α) {s after : σ}
    {failure : Failure} (head : f a s = (.failed failure, after)) :
    each f (a :: l) s = (.failed failure, after) := by
  simp only [each, Action.bind, head]

theorem each_cons_done (f : α → Action σ β) {a : α} {l : List α} {s between after : σ} {b : β}
    {bs : List β} (head : f a s = (.done b, between))
    (tail : each f l between = (.done bs, after)) :
    each f (a :: l) s = (.done (b :: bs), after) := by
  rw [each_cons f l head, tail]
  rfl

theorem each_done_cons (f : α → Action σ β) {a : α} {l : List α} {s after : σ} {answers : List β}
    (ran : each f (a :: l) s = (.done answers, after)) :
    ∃ b bs between, answers = b :: bs ∧ f a s = (.done b, between) ∧
      each f l between = (.done bs, after) := by
  obtain ⟨b, between, head, rest⟩ := bind_done ran
  obtain ⟨bs, last, tail, answered⟩ := bind_done rest
  cases answered
  exact ⟨b, bs, between, rfl, head, tail⟩

theorem each_done_inside (f : α → Action σ β) {before after : List α} {a : α} {s final : σ}
    {answers : List β} (ran : each f (before ++ a :: after) s = (.done answers, final)) :
    ∃ b next, answers[before.length]? = some b ∧ f a (each f before s).2 = (.done b, next) := by
  induction before generalizing s answers with
  | nil =>
    obtain ⟨b, bs, next, rfl, head, -⟩ := each_done_cons f ran
    exact ⟨b, next, rfl, head⟩
  | cons first rest ih =>
    obtain ⟨c, bs, between, rfl, head, tail⟩ := each_done_cons f ran
    obtain ⟨b, next, found, inside⟩ := ih tail
    rw [each_cons f rest head]
    exact ⟨b, next, found, inside⟩

theorem each_append_done (f : α → Action σ β) {l m : List α} {s between after : σ} {bs cs : List β}
    (first : each f l s = (.done bs, between)) (second : each f m between = (.done cs, after)) :
    each f (l ++ m) s = (.done (bs ++ cs), after) := by
  induction l generalizing s bs with
  | nil =>
    cases first
    exact second
  | cons a rest ih =>
    obtain ⟨b, tail, next, rfl, head, ran⟩ := each_done_cons f first
    exact each_cons_done f head (ih ran)

theorem each_mapped {γ : Type} (f : α → Action σ β) (g : β → γ) (l : List α) :
    each (fun a => (f a).mapped g) l = (each f l).mapped (List.map g) := by
  induction l with
  | nil => rfl
  | cons a rest ih =>
    funext s
    simp only [each, Action.bind, ih, mapped]
    rcases first : f a s with ⟨outcome, between⟩
    cases outcome with
    | done b =>
      rcases others : each f rest between with ⟨last, after⟩
      cases last <;> simp only [Outcome.map, others, Action.pure, List.map_cons]
    | failed failure => rfl
    | crashed text => rfl

end Action
end SqlCatalog
