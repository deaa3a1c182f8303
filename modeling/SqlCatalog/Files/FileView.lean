import SqlCatalog.Files.Path
/-!
What reading files sees of a file system: the location that a path leads to, whatever links are on the
way, and what is at a location.
-/
namespace SqlCatalog

inductive FileProblem where
  | notFound
  | notADirectory
  | isADirectory
  | notText
  | nulInName
  -- Anything else that the system tells of.
  | other (text : String)
deriving DecidableEq

namespace FileProblem

def message : FileProblem → String
  | notFound => "No such file or directory (os error 2)"
  | notADirectory => "Not a directory (os error 20)"
  | isADirectory => "Is a directory (os error 21)"
  | notText => "stream did not contain valid UTF-8"
  | nulInName => "file name contained an unexpected NUL byte"
  | other text => text

end FileProblem

abbrev Location := List String

-- A file may be one without being a text. Texts are at finitely many locations.
structure FileView where
  resolve : Path → Except FileProblem Location
  textAt : Location → Except FileProblem String
  isFile : Location → Bool
  namesAt : Location → Except FileProblem (List String)
  locations : List Location
  distinct : locations.Nodup
  mem_locations : ∀ {location}, location ∈ locations ↔ ∃ text, textAt location = .ok text

namespace FileView

def empty : FileView where
  resolve _ := .error .notFound
  textAt _ := .error .notFound
  isFile _ := false
  namesAt _ := .error .notFound
  locations := []
  distinct := .nil
  mem_locations := by simp

def readText (files : FileView) (path : Path) : Except FileProblem String := do
  files.textAt (← files.resolve path)

def hasFile (files : FileView) (path : Path) : Bool :=
  match files.resolve path with
  | .ok location => files.isFile location
  | .error _ => false

-- The names of what a directory holds, in any order.
def namesIn (files : FileView) (path : Path) : Except FileProblem (List String) := do
  files.namesAt (← files.resolve path)

def unvisited (files : FileView) (visited : List Location) : Nat :=
  files.locations.countP fun location => !visited.contains location

theorem unvisited_cons_lt {files : FileView} {visited : List Location} {location : Location}
    (present : location ∈ files.locations) (fresh : location ∉ visited) :
    files.unvisited (location :: visited) < files.unvisited visited := by
  have fewer (l : List Location) :
      l.countP (fun x => !(location :: visited).contains x) ≤
        l.countP fun x => !visited.contains x :=
    List.countP_mono_left fun x _ h => by
      rw [List.contains_cons, Bool.not_or, Bool.and_eq_true] at h
      exact h.2
  obtain ⟨before, after, eq⟩ := List.append_of_mem present
  have := fewer before
  have := fewer after
  have head : (location :: visited).contains location := by simp
  have fresh' : visited.contains location = false := by simpa using fresh
  simp only [unvisited, eq, List.countP_append, List.countP_cons, head, fresh', Bool.not_true,
    Bool.not_false, if_true, Bool.false_eq_true, if_false]
  omega

end FileView
end SqlCatalog
