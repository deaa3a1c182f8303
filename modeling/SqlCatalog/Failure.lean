import SqlCatalog.Files.FileView
import SqlCatalog.Database.Problem
/-!
Everything that can go wrong, as causes. The wording of each is `Failure.message`.
-/
namespace SqlCatalog

inductive SourceProblem where
  | lexical (description : String)
  | includeWithoutName
  | includeCycle (path : Path)
  | nothingLeft
deriving DecidableEq

namespace SourceProblem

def message : SourceProblem → String
  | lexical description => description
  | includeWithoutName => "INCLUDE must be followed by a quoted file name"
  | includeCycle path => "INCLUDE cycle through " ++ path.text
  | nothingLeft => "no SQL statements left after removing comments and whitespace"

end SourceProblem

inductive SetupProblem where
  | invalidName (name : String)
  | noFileName (path : Path)
  | noCacheSlots
  | noOperationGiven
  | malformedParams
  | paramsOfWrongShape
  | batchEntryOfWrongShape
deriving DecidableEq

namespace SetupProblem

def message : SetupProblem → String
  | invalidName name =>
    s!"invalid operation name `{name}`: expected letters, digits and underscores"
  | noFileName path => "no file name in " ++ path.text
  | noCacheSlots => "statement cache capacity must be at least 1"
  | noOperationGiven => "no operation given (try --list)"
  | malformedParams => "invalid --params JSON"
  | paramsOfWrongShape => "--params must be a JSON object or an array of objects"
  | batchEntryOfWrongShape => "--params batch entries must be objects"

end SetupProblem

inductive RunProblem where
  | noRowInserted (operation : String)
  | noRowId (operation : String)
  | scriptsUnsupported
  -- An error that the body of a transaction gives up with.
  | givenUp (reason : String)
deriving DecidableEq

namespace RunProblem

def message : RunProblem → String
  | noRowInserted operation => s!"insert operation `{operation}` inserted no row"
  | noRowId operation => s!"insert operation `{operation}` produced no row id"
  | scriptsUnsupported => "backend does not support native script execution"
  | givenUp reason => reason

end RunProblem

inductive Failure where
  | source (origin : String) (problem : SourceProblem)
  | unknownOperation (name : String)
  | alreadyInTransaction
  | missingParameter (operation parameter : String)
  | unreadable (path : Path) (problem : FileProblem)
  | setup (problem : SetupProblem)
  | execution (problem : RunProblem)
  | driver (text : String)
  | database (problem : Database.Problem)
deriving DecidableEq

namespace Failure

def message : Failure → String
  | source origin problem => s!"SQL parse error in {origin}: {problem.message}"
  | unknownOperation name => "Unknown operation: " ++ name
  | alreadyInTransaction => "Already in a transaction on this connection"
  | missingParameter operation parameter =>
    s!"Missing parameter `{parameter}` for operation `{operation}`"
  | unreadable path problem => s!"Failed to read {path.text}: {problem.message}"
  | setup problem => "Configuration error: " ++ problem.message
  | execution problem => "SQL execution error: " ++ problem.message
  | driver text => text
  | database problem => problem.message

end Failure
end SqlCatalog
