import SqlCatalog.Catalog.Basic
import SqlCatalog.CommandLine.Arguments
import SqlCatalog.Database.Engine
import SqlCatalog.Files.FileSystem
/-!
The command: sets up a catalog over a database, runs an initial file, and then lists the operations
or calls one. What it does is told over any engine and any files; `run` gives it the database
and a file system.
-/
namespace SqlCatalog.CommandLine

structure Report where
  status : Nat
  output : String
  failure : Option String
deriving DecidableEq

def initName : String := "__sqlop_init"

def optionsOf (r : Request) : CatalogOptions where
  includeDir := r.includeDir
  dialect := r.dialect
  lazy := r.lazy
  sqlDir := r.sqlDir
  cacheCapacity := none

section Engine

variable {σ : Type}

abbrev Shelf (σ : Type) : Type := Catalog σ Unit

def runInit (e : Engine σ) (files : FileView) (path : Path) : Action (Shelf σ) Unit := do
  let name ← Catalog.addFile files path (some initName) false
  let _ ← Catalog.call e files name (.single .empty)
  let _ ← Catalog.remove name

def listing (op : Operation) : Json :=
  .object
    [("name", .text op.name), ("category", .text op.category.label),
     ("params", .array (op.paramNames.map .text))]

def list (files : FileView) : Action (Shelf σ) Json := do
  let names ← Action.gets fun s => s.rest.inventory.names
  let ops ← Action.each (Catalog.operation files) names
  return .array (ops.map listing)

def answer (e : Engine σ) (files : FileView) (r : Request) : Action (Shelf σ) Json := do
  if let some path := r.init then runInit e files path
  if r.list then list files
  else
    match r.operation with
    | none => .fail (.setup .noOperationGiven)
    | some name =>
      let args ← .ofExcept (readParams r.params)
      return (← Catalog.call e files name args).toJson

def catalog (e : Engine σ) (files : FileView) (r : Request) (connection : σ) :
    Except Failure (Shelf σ) :=
  Catalog.open? e files connection (optionsOf r) ()

def failureReport (failure : Failure) : Report :=
  ⟨1, "", some ("sqlop: " ++ failure.message)⟩

def report (e : Engine σ) (connect : String → Except Failure σ) (files : FileView) (r : Request) :
    Report :=
  match connect r.db >>= catalog e files r with
  | .error failure => failureReport failure
  | .ok shelf =>
    match (answer e files r shelf).1 with
    | .done value => ⟨0, value.pretty ++ "\n", none⟩
    | .failed failure => failureReport failure
    | .crashed _ => ⟨101, "", none⟩

end Engine

def connect (db : String) : Except Failure Database.Handle := Database.Handle.open? (.forPath db)

-- Runs the command; only mistakes in the arguments have the status 2.
def run (files : FileSystem) (arguments : List String) : Report :=
  match Request.ofArguments arguments with
  | .ok r => report Database.engine connect files r
  | .error .help | .error .version => ⟨0, "", none⟩
  | .error _ => ⟨2, "", none⟩

end SqlCatalog.CommandLine
