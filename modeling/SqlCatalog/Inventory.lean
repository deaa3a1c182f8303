import SqlCatalog.NameMap
import SqlCatalog.Operation.Basic
/-!
Operations by name. A source is compiled when it is added or, if it is added lazily, when it is
first asked for; a source that does not compile stays as it is. The inventory counts the compiled
operations and warns when there come to be more than an engine keeps prepared.
-/
namespace SqlCatalog

inductive Warning where
  | overCapacity (bound capacity : Nat)
  -- A rollback failed after the error that made it necessary.
  | rollbackFailed (after problem : Failure)
  -- A rollback failed that no error was reported for.
  | scopeRollbackFailed (problem : Failure)

namespace Warning

def message : Warning → String
  | overCapacity _ _ =>
    "more operations than prepared statement cache slots; statements will be re-prepared"
  | rollbackFailed after _ => "rollback failed after error: " ++ after.message
  | scopeRollbackFailed _ => "rollback of unfinished scope failed"

def fields : Warning → List (String × String)
  | overCapacity bound capacity => [("bound", toString bound), ("capacity", toString capacity)]
  | rollbackFailed _ problem => [("error", problem.message)]
  | scopeRollbackFailed problem => [("error", problem.message)]

end Warning

structure Compiler where
  dialect : Dialect
  style : PlaceholderStyle
deriving DecidableEq

namespace Compiler

def compile (c : Compiler) (files : FileView) (name : String) (source : SqlSource) :
    Except Failure Operation :=
  Operation.compile files c.dialect c.style name source

end Compiler

inductive Entry where
  | waiting (source : SqlSource)
  | compiled (op : Operation)

namespace Entry

def isCompiled : Entry → Bool
  | waiting _ => false
  | compiled _ => true

end Entry

structure Inventory where
  compiler : Compiler
  entries : NameMap Entry
  compiledCount : Nat
  capacity : Option Nat
  exceeded : Bool

namespace Inventory

def empty (compiler : Compiler) (capacity : Option Nat) : Inventory :=
  ⟨compiler, .empty, 0, capacity, false⟩

def countUp (inv : Inventory) : Inventory × Option Warning :=
  let count := inv.compiledCount + 1
  match inv.capacity with
  | some capacity =>
    if capacity < count ∧ ¬inv.exceeded then
      ({ inv with compiledCount := count, exceeded := true }, some (.overCapacity count capacity))
    else ({ inv with compiledCount := count }, none)
  | none => ({ inv with compiledCount := count }, none)

def countDown (inv : Inventory) : Inventory :=
  let count := inv.compiledCount - 1
  match inv.capacity with
  | some capacity =>
    { inv with compiledCount := count, exceeded := inv.exceeded && decide (capacity < count) }
  | none => { inv with compiledCount := count }

def isCompiled (inv : Inventory) (name : String) : Bool :=
  (inv.entries.get? name).any Entry.isCompiled

def put (inv : Inventory) (name : String) (entry : Entry) : Inventory × Option Warning :=
  let after := { inv with entries := inv.entries.insert name entry }
  match inv.isCompiled name, entry.isCompiled with
  | false, true => after.countUp
  | true, false => (after.countDown, none)
  | _, _ => (after, none)

def add (inv : Inventory) (files : FileView) (name : String) (source : SqlSource)
    (lazy : Bool) : Except Failure (Inventory × Option Warning) :=
  if lazy then .ok (inv.put name (.waiting source))
  else
    match inv.compiler.compile files name source with
    | .ok op => .ok (inv.put name (.compiled op))
    | .error failure => .error failure

def get (inv : Inventory) (files : FileView) (name : String) :
    Except Failure (Operation × Inventory × Option Warning) :=
  match inv.entries.get? name with
  | none => .error (.unknownOperation name)
  | some (.compiled op) => .ok (op, inv, none)
  | some (.waiting source) =>
    match inv.compiler.compile files name source with
    | .ok op => .ok (op, inv.put name (.compiled op))
    | .error failure => .error failure

def names (inv : Inventory) : List String := inv.entries.names

def contains (inv : Inventory) (name : String) : Bool := inv.entries.contains name

def size (inv : Inventory) : Nat := inv.entries.size

def remove (inv : Inventory) (name : String) : Bool × Inventory :=
  let after := { inv with entries := inv.entries.erase name }
  (inv.contains name, if inv.isCompiled name then after.countDown else after)

end Inventory
end SqlCatalog
