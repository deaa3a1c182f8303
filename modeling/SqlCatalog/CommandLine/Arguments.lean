import SqlCatalog.Json.Parser
import SqlCatalog.Catalog.Options
import SqlCatalog.Failure
import SqlCatalog.Value.Params
/-!
The arguments of the command: options that take a value, flags, and one operation by position. An
option's value is taken up when the next argument has been looked at, so what is wrong with an
unknown argument is told before what is wrong with the value in front of it.
-/
namespace SqlCatalog.CommandLine

inductive ValueOption where
  | db
  | sqlDir
  | includeDir
  | dialect
  | init
  | params
deriving DecidableEq

namespace ValueOption

def ofName? : String → Option ValueOption
  | "db" => some db
  | "sql-dir" => some sqlDir
  | "include-dir" => some includeDir
  | "dialect" => some dialect
  | "init" => some init
  | "params" => some params
  | _ => none

end ValueOption

inductive Flag where
  | lazy
  | list
  | verbose
  | help
  | version
deriving DecidableEq

namespace Flag

def ofName? : String → Option Flag
  | "lazy" => some lazy
  | "list" => some list
  | "verbose" => some verbose
  | "help" => some help
  | "version" => some version
  | _ => none

def ofLetter? : Char → Option Flag
  | 'v' => some verbose
  | 'h' => some help
  | 'V' => some version
  | _ => none

end Flag

inductive Refusal where
  | unknownArgument
  | invalidValue
  | argumentConflict
  | tooManyValues
  | help
  | version
deriving DecidableEq

structure Request where
  db : String
  sqlDir : Option Path
  includeDir : Option Path
  dialect : Dialect
  lazy : Bool
  init : Option Path
  params : Option String
  list : Bool
  verbose : Nat
  operation : Option String
deriving DecidableEq

namespace Request

def standard : Request := ⟨":memory:", none, none, .sqlite, false, none, none, false, 0, none⟩

end Request

structure Progress where
  request : Request
  values : List ValueOption
  flags : List Flag
  pending : Option (ValueOption × Option String)
  -- Behind `--` everything is by position.
  positional : Bool

namespace Progress

def start : Progress := ⟨.standard, [], [], none, false⟩

def dialect? : String → Option Dialect
  | "sqlite" => some .sqlite
  | "generic" => some .generic
  | "postgres" => some .postgres
  | _ => none

def path (value : String) : Except Refusal Path :=
  if value.isEmpty then .error .invalidValue else .ok ⟨value⟩

def withValue (r : Request) (value : String) : ValueOption → Except Refusal Request
  | .db => .ok { r with db := value }
  | .sqlDir => do return { r with sqlDir := some (← path value) }
  | .includeDir => do return { r with includeDir := some (← path value) }
  | .init => do return { r with init := some (← path value) }
  | .params => .ok { r with params := some value }
  | .dialect =>
    match dialect? value with
    | some d => .ok { r with dialect := d }
    | none => .error .invalidValue

def takeValue (p : Progress) (o : ValueOption) (value : String) : Except Refusal Progress :=
  if o ∈ p.values then .error .argumentConflict
  else do
    let request ← withValue p.request value o
    return { p with request, values := o :: p.values, pending := none }

def settle (p : Progress) : Except Refusal Progress :=
  match p.pending with
  | none => .ok p
  | some (_, none) => .error .invalidValue
  | some (o, some value) => p.takeValue o value

-- Takes up a flag. Only `verbose` may be given more than once; it is counted up to 255.
def takeFlag (p : Progress) (f : Flag) : Except Refusal Progress := do
  let p ← p.settle
  match f with
  | .help => .error .help
  | .version => .error .version
  | .verbose =>
    let verbose := min 255 (p.request.verbose + 1)
    return { p with request := { p.request with verbose } }
  | f =>
    if f ∈ p.flags then .error .argumentConflict
    else
      let request :=
        if f = .lazy then { p.request with lazy := true } else { p.request with list := true }
      return { p with request, flags := f :: p.flags }

def long (p : Progress) (text : List Char) : Except Refusal Progress :=
  let name := String.ofList (text.takeWhile (· != '='))
  let value? :=
    match text.dropWhile (· != '=') with
    | _ :: value => some (String.ofList value)
    | [] => none
  match ValueOption.ofName? name, Flag.ofName? name with
  | some o, _ => do
    let p ← p.settle
    match value? with
    | some value => p.takeValue o value
    | none => return { p with pending := some (o, none) }
  | none, some f => if value?.isSome then .error .tooManyValues else p.takeFlag f
  | none, none => .error .unknownArgument

def short (p : Progress) : List Char → Except Refusal Progress
  | [] => .ok p
  | c :: cs =>
    match Flag.ofLetter? c with
    | some f => do (← p.takeFlag f).short cs
    | none => .error .unknownArgument

def byPosition (p : Progress) (text : String) : Except Refusal Progress :=
  if p.request.operation.isSome then .error .unknownArgument
  else do
    let p ← p.settle
    return { p with request := { p.request with operation := some text } }

def argument (p : Progress) (text : String) : Except Refusal Progress :=
  if p.positional then p.byPosition text
  else
    match text.toList with
    | ['-', '-'] => .ok { p with positional := true }
    | '-' :: '-' :: name => p.long name
    | '-' :: c :: cs => p.short (c :: cs)
    | _ =>
      match p.pending with
      | some (o, none) => .ok { p with pending := some (o, some text) }
      | _ => p.byPosition text

end Progress

def Request.ofArguments (arguments : List String) : Except Refusal Request := do
  let p ← arguments.foldlM Progress.argument Progress.start
  return (← p.settle).request

def logFilter (verbose : Nat) : String :=
  match verbose with
  | 0 => "warn"
  | 1 => "info"
  | 2 => "debug"
  | _ => "trace"

-- The arguments of a call: an object is one set of parameters, an array of objects a batch.
def readParams (text : Option String) : Except Failure Arguments :=
  match text with
  | none => .ok (.single .empty)
  | some text =>
    match Json.parse? text with
    | none => .error (.setup .malformedParams)
    | some (.object members) =>
      match Params.ofJson? (.object members) with
      | some p => .ok (.single p)
      | none => .error (.setup .paramsOfWrongShape)
    | some (.array items) =>
      match items.mapM Params.ofJson? with
      | some all => .ok (.batch all)
      | none => .error (.setup .batchEntryOfWrongShape)
    | some _ => .error (.setup .paramsOfWrongShape)

end SqlCatalog.CommandLine
