import SqlCatalog.Catalog.Options
import SqlCatalog.Operation.Run
import SqlCatalog.Transaction
/-!
A catalog of operations over one connection: sources are added under names, from texts, files
and directories, and called by name, each call in a transaction of its own or several inside one.
-/
namespace SqlCatalog

-- What a catalog keeps besides the connection; `captured` is what the bodies of transactions
-- keep.
structure Holdings (ν : Type) where
  inventory : Inventory
  options : CatalogOptions
  captured : ν

abbrev Catalog (σ ν : Type) : Type := Session σ (Holdings ν)

namespace Catalog

variable {σ ν α : Type}

def isName (name : String) : Bool :=
  match name.toList with
  | c :: cs => (c.isAlpha || c == '_') && cs.all fun c => c.isAlphanum || c == '_'
  | [] => false

def checkName (name : String) : Except Failure Unit :=
  if isName name then .ok () else .error (.setup (.invalidName name))

def onInventory (change : Inventory → Except Failure (α × Inventory × Option Warning)) :
    Action (Catalog σ ν) α := fun s =>
  match change s.rest.inventory with
  | .ok (a, inventory, warning) =>
    (.done a,
      { s with
        warnings := s.warnings ++ warning.toList
        rest := { s.rest with inventory } })
  | .error failure => (.failed failure, s)

-- Puts a source into the inventory; the directory for inclusions, if one is set, is its base.
def addSource (files : FileView) (name : String) (source : SqlSource) (lazy : Bool) :
    Action (Catalog σ ν) Unit := do
  let options ← Action.gets fun s => s.rest.options
  let source := { source with base := options.includeDir.or source.base }
  onInventory fun inv => (inv.add files name source lazy).map fun (inv, w) => ((), inv, w)

def addText (files : FileView) (name text : String) (lazy : Bool) :
    Action (Catalog σ ν) Unit := do
  .ofExcept (checkName name)
  addSource files name ⟨text, name, none⟩ lazy

def nameFor (path : Path) (name : Option String) : Except Failure String :=
  match name.or path.stem? with
  | some name => .ok name
  | none => .error (.setup (.noFileName path))

def addFile (files : FileView) (path : Path) (name : Option String) (lazy : Bool) :
    Action (Catalog σ ν) String := do
  let name ← .ofExcept (nameFor path name)
  .ofExcept (checkName name)
  let source ← .ofExcept (SqlSource.ofFile files path)
  addSource files name source lazy
  return name

-- The files of a directory with the extension `sql`, in the order of their names.
def sqlFiles (files : FileView) (dir : Path) : Except Failure (List Path) :=
  match files.namesIn dir with
  | .ok names =>
    let own := names.filter fun name =>
      files.hasFile (dir.join ⟨name⟩) && Path.extension? name == some "sql"
    .ok ((own.mergeSort fun a b => a ≤ b).map fun name => dir.join ⟨name⟩)
  | .error problem => .error (.unreadable dir problem)

def addDirectory (files : FileView) (dir : Path) (lazy : Bool) :
    Action (Catalog σ ν) (List String) := do
  let paths ← .ofExcept (sqlFiles files dir)
  Action.each (fun path => addFile files path none lazy) paths

def standardCapacity : Nat := 100

def open? (e : Engine σ) (files : FileView) (connection : σ) (options : CatalogOptions)
    (captured : ν) : Except Failure (Catalog σ ν) :=
  if options.cacheCapacity = some 0 then .error (.setup .noCacheSlots)
  else
    let capacity := (options.cacheCapacity.or (e.cacheCapacity connection)).getD standardCapacity
    let inventory := Inventory.empty ⟨options.dialect, e.style connection⟩ (some capacity)
    let catalog := Session.start connection ⟨inventory, options, captured⟩
    match options.sqlDir with
    | none => .ok catalog
    | some dir =>
      match addDirectory files dir options.lazy catalog with
      | (.failed failure, _) => .error failure
      | (_, catalog) => .ok catalog

def operation (files : FileView) (name : String) : Action (Catalog σ ν) Operation :=
  onInventory fun inv => inv.get files name

def category (files : FileView) (name : String) : Action (Catalog σ ν) Category := do
  return (← operation files name).category

def remove (name : String) : Action (Catalog σ ν) Bool :=
  onInventory fun inv => .ok ((inv.remove name).1, (inv.remove name).2, none)

def callInside (e : Engine σ) (files : FileView) (name : String) (args : Arguments) :
    Action (Catalog σ ν) Output := do
  let op ← operation files name
  Session.onConnection (op.run e args)

-- Calls an operation in a transaction of its own. An empty batch needs none.
def call (e : Engine σ) (files : FileView) (name : String) (args : Arguments) :
    Action (Catalog σ ν) Output := do
  let op ← operation files name
  match args with
  | .batch [] => return .batch []
  | args => Session.transaction e (Session.onConnection (op.run e args))

def invoke (e : Engine σ) (files : FileView) (name : String) (keywords : Params)
    (positional : Option Arguments) : Action (Catalog σ ν) Output :=
  call e files name (.normalize positional keywords)

def transaction (e : Engine σ) (body : Action (Catalog σ ν) α) : Action (Catalog σ ν) α :=
  Session.transaction e body

def withConnection (action : Action σ α) : Action (Catalog σ ν) α :=
  Session.holding (Session.onConnection action)

end Catalog
end SqlCatalog
