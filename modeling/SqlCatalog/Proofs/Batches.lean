import SqlCatalog.Proofs.Calling
import SqlCatalog.Proofs.MarkerTokens
import SqlCatalog.Proofs.Requests
/-!
A call for a batch is a transaction that calls the operation for each element. The call looks the
operation up before its transaction, the calls inside a transaction look it up in it, which is seen
when the transaction is refused (`call_as_transaction`).
-/
namespace SqlCatalog

variable {σ ρ ν α β : Type}

namespace Inventory

theorem get_again {inv after : Inventory} {files : FileView} {name : String} {op : Operation}
    {warning : Option Warning} (got : inv.get files name = .ok (op, after, warning)) :
    after.get files name = .ok (op, after, none) := by
  rcases inv.get_cases files name with
    ⟨-, fails⟩ | ⟨held, present, gets⟩ | ⟨source, failure, -, -, fails⟩ | ⟨source, held, -, -, gets⟩
  · rw [fails] at got
    cases got
  · rw [gets] at got
    cases got
    exact gets
  · rw [fails] at got
    cases got
  · rw [gets] at got
    cases got
    have present : (inv.put name (.compiled op)).1.entries.get? name = some (.compiled op) := by
      rw [(put_frame inv name _).1, NameMap.get?_insert, if_pos rfl]
    rw [get, present]

theorem get_compiled {inv after : Inventory} {files : FileView} {name : String} {op : Operation}
    {warning : Option Warning} (compiled : inv.isCompiled name = true)
    (got : inv.get files name = .ok (op, after, warning)) : after = inv ∧ warning = none := by
  rcases inv.get_cases files name with
    ⟨-, fails⟩ | ⟨held, present, gets⟩ | ⟨source, failure, -, -, fails⟩ | ⟨source, held, waits, -, -⟩
  · rw [fails] at got
    cases got
  · rw [gets] at got
    cases got
    exact ⟨rfl, rfl⟩
  · rw [fails] at got
    cases got
  · rw [isCompiled, waits] at compiled
    cases compiled

end Inventory

/-! ### Changed answers -/

namespace Session

theorem on_connection_mapped (f : α → β) (action : Action σ α) :
    onConnection (ρ := ρ) (action.mapped f) = (onConnection action).mapped f := rfl

theorem close_scope_mapped (e : Engine σ) (f : α → β) (outcome : Outcome α) :
    closeScope (ρ := ρ) e (outcome.map f) = (closeScope e outcome).mapped f := by
  funext s
  cases outcome with
  | done a =>
    rcases committed : commitScope e s with ⟨outcome, after⟩
    cases outcome <;> simp only [Outcome.map, closeScope, Action.mapped, committed]
  | failed failure => rfl
  | crashed text => rfl

theorem transaction_mapped (e : Engine σ) (f : α → β) (body : Action (Session σ ρ) α) :
    transaction e (body.mapped f) = (transaction e body).mapped f := by
  funext s
  rcases opening : openScope e s with ⟨outcome, next⟩
  cases outcome with
  | done => simp only [transaction, Action.mapped, opening, close_scope_mapped]
  | failed failure => simp only [transaction, Action.mapped, opening, Outcome.map]
  | crashed text => simp only [transaction, Action.mapped, opening, Outcome.map]

theorem transaction_refused_alike (e : Engine σ) (body other : Action (Session σ ρ) α)
    {s t : Session σ ρ} (connection : t.connection = s.connection) (scope : t.scope = s.scope)
    (idle : s.scope = .idle) (refused : Refused e s) :
    transaction e body t =
      ((transaction e other s).1, { t with connection := (e.begin s.connection).2 }) := by
  obtain ⟨native, notBegun⟩ := refused
  have free : ¬ t.scope = .open := by simp [scope, idle]
  have freeToo : ¬ s.scope = .open := by simp [idle]
  rcases begun : e.begin s.connection with ⟨outcome, next⟩
  rw [begun] at notBegun
  cases outcome with
  | done => cases notBegun
  | failed failure =>
    simp only [transaction, openScope, if_neg free, if_neg freeToo, connection, native, if_true,
      begun]
  | crashed text =>
    simp only [transaction, openScope, if_neg free, if_neg freeToo, connection, native, if_true,
      begun]

end Session

theorem Operation.run_batch (op : Operation) (e : Engine σ) (all : List Params) :
    op.run e (.batch all) = (Action.each (op.runFor e) all).mapped .batch := by
  funext s
  rw [run, Action.bind_apply, Action.mapped]
  rcases Action.each (op.runFor e) all s with ⟨outcome, after⟩
  cases outcome <;> rfl

namespace Catalog

open Session SqlCatalog.Action

structure AsTransaction (e : Engine σ) (name : String) (s found : Catalog σ ν)
    (called inside : Outcome α × Catalog σ ν) : Prop where
  accepted : ¬ Refused e s ∨ s.rest.inventory.isCompiled name = true → called = inside
  refused : Refused e s →
    called = (inside.1, { inside.2 with warnings := found.warnings, rest := found.rest })

section Lookup

variable {files : FileView} {name : String} {op : Operation} {s found : Catalog σ ν}

theorem operation_found (known : operation files name s = (.done op, found)) :
    ∃ inventory warning, s.rest.inventory.get files name = .ok (op, inventory, warning) ∧
      found = { s with
        warnings := s.warnings ++ warning.toList
        rest := { s.rest with inventory } } := by
  unfold operation onInventory at known
  split at known
  · next got =>
    cases known
    exact ⟨_, _, got, rfl⟩
  · cases known

theorem operation_compiles (known : operation files name s = (.done op, found)) :
    found.rest.inventory.get files name = .ok (op, found.rest.inventory, none) := by
  obtain ⟨inventory, warning, got, rfl⟩ := operation_found known
  exact Inventory.get_again got

theorem operation_compiled (compiled : s.rest.inventory.isCompiled name = true)
    (known : operation files name s = (.done op, found)) : found = s := by
  obtain ⟨inventory, warning, got, rfl⟩ := operation_found known
  obtain ⟨rfl, rfl⟩ := Inventory.get_compiled compiled got
  simp

theorem operation_opened (e : Engine σ) (known : operation files name s = (.done op, found)) :
    operation files name (opened e s) = (.done op, opened e found) := by
  obtain ⟨inventory, warning, got, rfl⟩ := operation_found known
  have same : (opened e s).rest = s.rest := rfl
  simp only [operation, onInventory, same, got]
  rfl

theorem call_inside_found (e : Engine σ) (args : Arguments)
    (known : operation files name s = (.done op, found)) :
    callInside e files name args s = onConnection (op.run e args) found := by
  rw [callInside, bind_apply, known]

theorem call_inside_compiled (e : Engine σ) (args : Arguments)
    (compiled : s.rest.inventory.get files name = .ok (op, s.rest.inventory, none)) :
    callInside e files name args s = onConnection (op.run e args) s := by
  have looked : operation files name s = (.done op, s) := by
    simp only [operation, onInventory, compiled, Option.toList_none, List.append_nil]
  exact call_inside_found e args looked

theorem each_inside_compiled (e : Engine σ) (all : List Params)
    (compiled : s.rest.inventory.get files name = .ok (op, s.rest.inventory, none)) :
    each (fun p => callInside e files name (.single p)) all s =
      onConnection (each (op.runFor e) all) s := by
  induction all generalizing s with
  | nil => rfl
  | cons p ps ih =>
    have head := call_inside_compiled e (.single p) compiled
    simp only [each, Action.bind, head, onConnection, Operation.run]
    rcases first : op.runFor e p s.connection with ⟨outcome, connection⟩
    cases outcome with
    | done output =>
      have tail := ih (s := { s with connection }) compiled
      simp only [tail, onConnection]
      rcases each (op.runFor e) ps connection with ⟨outcome, after⟩
      cases outcome <;> rfl
    | failed failure => rfl
    | crashed text => rfl

theorem each_inside_found (e : Engine σ) (p : Params) (ps : List Params)
    (known : operation files name s = (.done op, found)) :
    each (fun p => callInside e files name (.single p)) (p :: ps) s =
      onConnection (each (op.runFor e) (p :: ps)) found := by
  have compiled := operation_compiles known
  rw [← each_inside_compiled e (p :: ps) compiled]
  simp only [each, Action.bind, call_inside_found e (.single p) known,
    call_inside_compiled e (.single p) compiled]

-- One transaction looks the operation up inside, the other finds it looked up: they differ only where
-- neither body is run, in what the lookup has changed.
theorem transaction_found (e : Engine σ) {looking finding : Action (Catalog σ ν) α}
    (idle : s.scope = .idle) (known : operation files name s = (.done op, found))
    (same : looking (opened e s) = finding (opened e found)) :
    AsTransaction e name s found (Session.transaction e finding found)
      (Session.transaction e looking s) := by
  obtain ⟨connection, scope⟩ := operation_connection files name s
  rw [known] at connection scope
  dsimp only at connection scope
  have refusal (refused : Refused e s) : Session.transaction e finding found =
      ((Session.transaction e looking s).1,
        { (Session.transaction e looking s).2 with
          warnings := found.warnings, rest := found.rest }) := by
    rw [transaction_refused_alike e finding looking connection scope idle refused]
    obtain ⟨outcome, -, always⟩ := transaction_refused e s idle refused
    rw [always looking, scope]
  refine ⟨fun certain => ?_, refusal⟩
  by_cases refused : Refused e s
  · have compiled := certain.resolve_left (not_not_intro refused)
    rw [refusal refused, operation_compiled compiled known]
    obtain ⟨outcome, -, always⟩ := transaction_refused e s idle refused
    rw [always looking]
  · rw [transaction_opened e looking s idle refused, same]
    refine transaction_opened e finding found (scope.trans idle) fun begins => refused ?_
    rwa [Refused, connection] at begins

end Lookup

-- Where the beginning of the transaction is not refused, or the operation was compiled before, a call
-- for some elements is the transaction that calls the operation for each of them. Otherwise it is that
-- for the engine, but what the call has looked up stays compiled.
theorem call_as_transaction (e : Engine σ) (files : FileView) (name : String) (op : Operation)
    (s found : Catalog (Engine.Traced σ) ν) (known : operation files name s = (.done op, found)) :
    (s.scope = .idle →
      (∀ p, AsTransaction e.traced name s found
        (call e.traced files name (.single p) s)
        (transaction e.traced (callInside e.traced files name (.single p)) s)) ∧
      ∀ all ≠ [], AsTransaction e.traced name s found
        (call e.traced files name (.batch all) s)
        ((transaction e.traced
          (each (fun p => callInside e.traced files name (.single p)) all)).mapped .batch s)) ∧
    call e.traced files name (.batch []) s = (.done (.batch []), found) ∧
      found.connection = s.connection ∧ found.scope = s.scope := by
  obtain ⟨connection, scope⟩ := operation_connection files name s
  rw [known] at connection scope
  refine ⟨fun idle => ⟨fun p => ?_, fun all nonempty => ?_⟩,
    call_empty e.traced files name s found op known, connection, scope⟩
  · rw [call_transaction e.traced files name (.single p) s found op known (by simp)]
    refine transaction_found e.traced idle known ?_
    exact call_inside_found e.traced _ (operation_opened e.traced known)
  · obtain ⟨p, ps, rfl⟩ := List.exists_cons_of_ne_nil nonempty
    rw [call_transaction e.traced files name (.batch (p :: ps)) s found op known (by simp),
      transaction, ← transaction_mapped, Operation.run_batch, on_connection_mapped]
    refine transaction_found e.traced idle known ?_
    rw [mapped, mapped, each_inside_found e.traced p ps (operation_opened e.traced known)]

def clear : Operation where
  name := "clear"
  category := .table
  style := .sqlite
  first := ⟨"DELETE FROM t", []⟩
  others := []
  script := none
  script_bare := by simp

def waitingCatalog (behaviour : Scripted.Behaviour) : Catalog (Engine.Traced Scripted.State) Unit :=
  let inventory := Inventory.empty ⟨.sqlite, .sqlite⟩ (some 0)
  Session.start ⟨Scripted.start behaviour, []⟩
    ⟨(inventory.put "clear" (.waiting ⟨"DELETE FROM t", "clear", none⟩)).1, .standard, ()⟩

theorem clear_found (behaviour : Scripted.Behaviour) :
    operation .empty "clear" (waitingCatalog behaviour) = (.done clear,
      { waitingCatalog behaviour with
        warnings := [.overCapacity 1 0]
        rest :=
          { (waitingCatalog behaviour).rest with
            inventory := ((Inventory.empty ⟨.sqlite, .sqlite⟩ (some 0)).put "clear"
              (.compiled clear)).1 } }) := by
  let source : SqlSource := ⟨"DELETE FROM t", "clear", none⟩
  let cleared : Statement :=
    ⟨[.word "DELETE" none, .blank .space, .word "FROM" none, .blank .space, .word "t" none], rfl,
      by simp⟩
  have reads : Token.ofText .sqlite "DELETE FROM t" = .ok cleared.tokens := by decide +kernel
  have compiles : (Compiler.mk .sqlite .sqlite).compile .empty "clear" source = .ok clear := by
    have single : source.statements .empty .sqlite = .ok ⟨"clear", [cleared], by simp⟩ :=
      SqlSource.statements_single .empty cleared reads (by decide +kernel) (by decide +kernel)
    rw [Compiler.compile, Operation.compile, single]
    decide +kernel
  have got : (waitingCatalog behaviour).rest.inventory.get .empty "clear" =
      .ok (clear, (waitingCatalog behaviour).rest.inventory.put "clear" (.compiled clear)) := by
    have waits : (waitingCatalog behaviour).rest.inventory.entries.get? "clear" =
        some (.waiting source) := rfl
    have compiler : (waitingCatalog behaviour).rest.inventory.compiler = ⟨.sqlite, .sqlite⟩ := rfl
    rw [Inventory.get, waits]
    dsimp only
    rw [compiler, compiles]
  simp only [operation, onInventory, got]
  rfl

theorem call_as_transaction_twice :
    let s := waitingCatalog failingCommits
    let e := Scripted.engine.traced
    ∃ found, operation .empty "clear" s = (.done clear, found) ∧
      s.scope = .idle ∧ ¬ Refused e s ∧
      call e .empty "clear" (.batch [.empty, .empty]) s =
        (transaction e (each (fun p => callInside e .empty "clear" (.single p))
          [.empty, .empty])).mapped .batch s ∧
      (call e .empty "clear" (.batch [.empty, .empty]) s).2.connection.calls =
        [.begin, .execute "DELETE FROM t" [], .execute "DELETE FROM t" [], .commit, .rollback] := by
  intro s e
  have begins : ¬ Refused e s := fun refused => by cases refused.2
  have known := clear_found failingCommits
  obtain ⟨idle, -⟩ := call_as_transaction Scripted.engine .empty "clear" clear s _ known
  have batch := (idle rfl).2 [.empty, .empty] (by simp)
  refine ⟨_, known, rfl, begins, batch.accepted (.inl begins), ?_⟩
  rw [call_transaction e .empty "clear" _ s _ clear known (by simp)]
  rfl

def busyBeginnings : Scripted.Behaviour :=
  { failingCommits with beginError := some "busy", commitError := none }

-- After a call whose transaction is refused the operation is compiled, and a warning is given; after
-- a refused transaction neither.
theorem refused_call_compiles :
    let s := waitingCatalog busyBeginnings
    let e := Scripted.engine.traced
    let called := call e .empty "clear" (.single .empty) s
    let inside := transaction e (callInside e .empty "clear" (.single .empty)) s
    s.scope = .idle ∧ (∃ found, operation .empty "clear" s = (.done clear, found)) ∧
    called.2.rest.inventory.isCompiled "clear" = true ∧
    inside.2.rest.inventory.isCompiled "clear" = false ∧
    called.2.warnings = [.overCapacity 1 0] ∧ inside.2.warnings = [] := by
  intro s e called inside
  have known := clear_found busyBeginnings
  have ran : called = Session.transaction e (onConnection (clear.run e (.single .empty))) _ :=
    call_transaction e .empty "clear" (.single .empty) s _ clear known (by simp)
  refine ⟨rfl, ⟨_, known⟩, ?_, rfl, ?_, rfl⟩
  · rw [ran]
    rfl
  · rw [ran]
    rfl

end Catalog
end SqlCatalog
