import SqlCatalog.CommandLine.Run
/-!
The command itself: reads the files that may be asked for into memory, runs the command on them and
reports. What is below the working directory may be asked for, and what is below the places that the
arguments name.
-/
namespace SqlCatalog.CommandLine

def locationOf (path : String) : Location := (path.splitOn "/").filter fun name => !name.isEmpty

-- Links may lead in circles: what lies deeper than this is left out.
def greatestDepth : Nat := 32

-- Adds what is on disk at a location and below it; what cannot be read is left out.
def load (location : Location) : (depth : Nat) → FileSystem → IO FileSystem
  | 0, fs => pure fs
  | depth + 1, fs => do
    try
      let place ← IO.FS.realPath ("/" ++ "/".intercalate location)
      match (← place.metadata).type with
      | .dir =>
        (← place.readDir).foldlM (fun fs entry => load (location ++ [entry.fileName]) depth fs)
          (fs.insertAt location .directory)
      | .file => return fs.insertAt location (.file (← IO.FS.readBinFile place))
      | _ => return fs
    catch _ => return fs

def namedDirectories (arguments : List String) : List Path :=
  match Request.ofArguments arguments with
  | .ok r => [r.sqlDir, r.includeDir, r.init.bind Path.parent?].filterMap id
  | .error _ => []

def loadNamed (fs : FileSystem) (directory : Path) : IO FileSystem := do
  try
    let location := locationOf (← IO.FS.realPath directory.text).toString
    if fs.workingDirectory.isPrefixOf location then return fs
    else load location greatestDepth fs
  catch _ => return fs

def loadFiles (arguments : List String) : IO FileSystem := do
  let workingDirectory := locationOf (← IO.currentDir).toString
  let fs ← load workingDirectory greatestDepth (.empty workingDirectory)
  (namedDirectories arguments).foldlM loadNamed fs

end SqlCatalog.CommandLine

def main (arguments : List String) : IO UInt32 := do
  let files ← SqlCatalog.CommandLine.loadFiles arguments
  let report := SqlCatalog.CommandLine.run files arguments
  IO.print report.output
  if let some line := report.failure then IO.eprintln line
  return report.status.toUInt32
