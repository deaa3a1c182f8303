import SqlCatalog.Catalog.Basic
import SqlCatalog.Proofs.Running
import SqlCatalog.Proofs.Scope
/-!
Calls of a catalog's operations: the operation is looked up, which touches neither the connection
nor the scope, and then run in a transaction of its own (`call_cases`).
-/
namespace SqlCatalog.Catalog

open SqlCatalog.Action

variable {σ ν α : Type}

theorem on_inventory_connection (s : Catalog σ ν)
    (change : Inventory → Except Failure (α × Inventory × Option Warning)) :
    (onInventory change s).2.connection = s.connection ∧
      (onInventory change s).2.scope = s.scope := by
  cases changed : change s.rest.inventory with
  | error failure => simp [onInventory, changed]
  | ok result => simp [onInventory, changed]

theorem on_inventory_not_crashed (s after : Catalog σ ν) (text : String)
    (change : Inventory → Except Failure (α × Inventory × Option Warning)) :
    onInventory change s ≠ (.crashed text, after) := by
  cases changed : change s.rest.inventory with
  | error failure => simp [onInventory, changed]
  | ok result => simp [onInventory, changed]

theorem operation_connection (files : FileView) (name : String) (s : Catalog σ ν) :
    (operation files name s).2.connection = s.connection ∧
      (operation files name s).2.scope = s.scope :=
  on_inventory_connection s _

-- A call looks the operation up first; where that fails it is all that happens.
theorem call_unknown (e : Engine σ) (files : FileView) (name : String) (args : Arguments)
    (s after : Catalog σ ν) (failure : Failure)
    (unknown : operation files name s = (.failed failure, after)) :
    call e files name args s = (.failed failure, after) := by
  rw [call, bind_apply, unknown]

theorem call_empty (e : Engine σ) (files : FileView) (name : String) (s found : Catalog σ ν)
    (op : Operation) (known : operation files name s = (.done op, found)) :
    call e files name (.batch []) s = (.done (.batch []), found) := by
  rw [call, bind_apply, known]
  rfl

theorem call_transaction (e : Engine σ) (files : FileView) (name : String) (args : Arguments)
    (s found : Catalog σ ν) (op : Operation) (known : operation files name s = (.done op, found))
    (some : args ≠ .batch []) :
    call e files name args s =
      Session.transaction e (Session.onConnection (op.run e args)) found := by
  rw [call, bind_apply, known]
  cases args with
  | single p => rfl
  | batch all =>
    cases all with
    | nil => exact absurd rfl some
    | cons p ps => rfl

theorem call_cases (e : Engine σ) (files : FileView) (name : String) (args : Arguments)
    (s : Catalog σ ν) :
    ∃ found, found.connection = s.connection ∧ found.scope = s.scope ∧
      ((∃ failure, operation files name s = (.failed failure, found) ∧
        call e files name args s = (.failed failure, found)) ∨
      (∃ op, operation files name s = (.done op, found) ∧ args = .batch [] ∧
        call e files name args s = (.done (.batch []), found)) ∨
      (∃ op, operation files name s = (.done op, found) ∧ args ≠ .batch [] ∧
        call e files name args s =
          Session.transaction e (Session.onConnection (op.run e args)) found)) := by
  rcases looked : operation files name s with ⟨outcome, found⟩
  obtain ⟨connection, scope⟩ := operation_connection files name s
  rw [looked] at connection scope
  refine ⟨found, connection, scope, ?_⟩
  cases outcome with
  | failed failure =>
    exact .inl ⟨failure, rfl, call_unknown e files name args s found failure looked⟩
  | done op =>
    by_cases empty : args = .batch []
    · subst empty
      exact .inr (.inl ⟨op, rfl, rfl, call_empty e files name s found op looked⟩)
    · exact .inr (.inr ⟨op, rfl, empty, call_transaction e files name args s found op looked empty⟩)
  | crashed text => exact absurd looked (on_inventory_not_crashed s found text _)

end SqlCatalog.Catalog
