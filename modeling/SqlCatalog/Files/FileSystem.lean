import SqlCatalog.Files.FileView
/-!
A file system that does not change: every location from the root down is absent, a directory or a
file of bytes, and one directory is where relative paths start. There are no links, so resolving a
path is walking it, and the location reached is the canonical one.
-/
namespace SqlCatalog

inductive Node where
  | directory
  | file (bytes : ByteArray)

structure FileSystem where
  workingDirectory : Location
  entries : List (Location × Node)
  distinct : (entries.map (·.1)).Nodup

namespace FileSystem

def locations (fs : FileSystem) : List Location := fs.entries.map (·.1)

def node? (fs : FileSystem) (location : Location) : Option Node :=
  if location.isEmpty then some .directory else fs.entries.lookup location

theorem map_fst_replace (entries : List (Location × Node)) (location : Location) (node : Node) :
    (entries.map fun e => if e.1 = location then (location, node) else e).map (·.1) =
      entries.map (·.1) := by
  induction entries with
  | nil => rfl
  | cons e es ih =>
    by_cases h : e.1 = location
    · simp only [List.map_cons, h, if_true, ih]
    · simp only [List.map_cons, h, if_false, ih]

def put (fs : FileSystem) (location : Location) (node : Node) : FileSystem :=
  if known : location ∈ fs.locations then
    { fs with
      entries := fs.entries.map fun e => if e.1 = location then (location, node) else e
      distinct := by
        rw [map_fst_replace]
        exact fs.distinct }
  else
    { fs with
      entries := fs.entries ++ [(location, node)]
      distinct := by
        rw [List.map_append, List.nodup_append]
        refine ⟨fs.distinct, by simp, ?_⟩
        intro a ha b hb
        simp only [List.map_cons, List.map_nil, List.mem_singleton] at hb
        subst hb
        intro eq
        exact known (eq ▸ ha) }

def putDirectories (fs : FileSystem) (location : Location) : FileSystem :=
  (List.range location.length).foldl (fun fs depth =>
    let above := location.take (depth + 1)
    if (fs.node? above).isSome then fs else fs.put above .directory) fs

def empty (workingDirectory : Location) : FileSystem :=
  putDirectories ⟨workingDirectory, [], by simp⟩ workingDirectory

def insertAt (fs : FileSystem) (location : Location) (node : Node) : FileSystem :=
  (fs.putDirectories location.dropLast).put location node

def insert (fs : FileSystem) (names : List String) (node : Node) : FileSystem :=
  fs.insertAt (fs.workingDirectory ++ names) node

def step (fs : FileSystem) (location : Location) (piece : String) : Except FileProblem Location :=
  match fs.node? location with
  | some .directory =>
    if piece.isEmpty ∨ piece = "." then .ok location
    else if piece = ".." then .ok location.dropLast
    else if (fs.node? (location ++ [piece])).isSome then .ok (location ++ [piece])
    else .error .notFound
  | some (.file _) => .error .notADirectory
  | none => .error .notFound

def resolve (fs : FileSystem) (path : Path) : Except FileProblem Location :=
  if path.text.toList.contains '\x00' then .error .nulInName
  else if path.text.isEmpty then .error .notFound
  else path.pieces.foldlM fs.step (if path.isAbsolute then [] else fs.workingDirectory)

def textAt (fs : FileSystem) (location : Location) : Except FileProblem String :=
  match fs.node? location with
  | some (.file bytes) =>
    match String.fromUTF8? bytes with
    | some text => .ok text
    | none => .error .notText
  | some .directory => .error .isADirectory
  | none => .error .notFound

def isFile (fs : FileSystem) (location : Location) : Bool :=
  match fs.node? location with
  | some (.file _) => true
  | _ => false

def nameBelow? (location place : Location) : Option String :=
  if place.dropLast = location then place.getLast? else none

def namesAt (fs : FileSystem) (location : Location) : Except FileProblem (List String) :=
  match fs.node? location with
  | some .directory => .ok (fs.locations.filterMap (nameBelow? location))
  | some (.file _) => .error .notADirectory
  | none => .error .notFound

theorem mem_locations_of_text {fs : FileSystem} {location : Location} {text : String}
    (h : fs.textAt location = .ok text) : location ∈ fs.locations := by
  unfold textAt at h
  split at h
  case h_1 bytes found =>
    unfold node? at found
    split at found
    · simp at found
    · rw [List.lookup_eq_some_iff] at found
      obtain ⟨before, after, eq, -⟩ := found
      simp [locations, eq]
  all_goals simp at h

def view (fs : FileSystem) : FileView where
  resolve := fs.resolve
  textAt := fs.textAt
  isFile := fs.isFile
  namesAt := fs.namesAt
  locations := fs.locations.filter fun location => (fs.textAt location).isOk
  distinct := fs.distinct.filter _
  mem_locations := by
    intro location
    rw [List.mem_filter]
    constructor
    · rintro ⟨-, readable⟩
      cases found : fs.textAt location with
      | ok text => exact ⟨text, rfl⟩
      | error problem => simp [found, Except.isOk, Except.toBool] at readable
    · rintro ⟨text, found⟩
      exact ⟨mem_locations_of_text found, by rw [found]; rfl⟩

instance : Coe FileSystem FileView := ⟨view⟩

end FileSystem
end SqlCatalog
