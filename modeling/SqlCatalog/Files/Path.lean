/-!
File paths as text. Paths are shown as they were given, so joining and cutting work on the text and
normalise nothing that they need not.
-/
namespace SqlCatalog

structure Path where
  text : String
deriving DecidableEq

namespace Path

def pieces (path : Path) : List String := (path.text.toList.splitOn '/').map String.ofList

def isAbsolute (path : Path) : Bool := path.text.startsWith "/"

-- The target as seen from `base`: an absolute target stands for itself, and no second slash is put
-- behind a base that ends in one.
def join (base target : Path) : Path :=
  if target.isAbsolute then target
  else if base.text.isEmpty || base.text.endsWith "/" then ⟨base.text ++ target.text⟩
  else ⟨base.text ++ "/" ++ target.text⟩

-- Whether the piece at this place names something: empty pieces do not, and neither do dots
-- anywhere but at the start.
def names (place : Nat) (piece : String) : Bool := !piece.isEmpty && (piece != "." || place == 0)

def namingPlaces (path : Path) : List Nat :=
  path.pieces.zipIdx.filterMap fun (piece, place) => if names place piece then some place else none

-- The path up to the name before the last; `none` for the root and the empty path.
def parent? (path : Path) : Option Path :=
  match path.namingPlaces.reverse with
  | [] => none
  | [_] => some ⟨if path.isAbsolute then "/" else ""⟩
  | _ :: place :: _ => some ⟨"/".intercalate (path.pieces.take (place + 1))⟩

def fileName? (path : Path) : Option String :=
  match path.namingPlaces.getLast? with
  | none => none
  | some place =>
    match path.pieces[place]? with
    | some name => if name = "." ∨ name = ".." then none else some name
    | none => none

-- A file name cut at its last dot; a dot at the start cuts nothing.
def cutName (name : String) : String × Option String :=
  let cs := name.toList
  let extension := (cs.reverse.takeWhile (· != '.')).reverse
  let stem := cs.take (cs.length - extension.length - 1)
  if extension.length = cs.length ∨ stem.isEmpty then (name, none)
  else (String.ofList stem, some (String.ofList extension))

def stem? (path : Path) : Option String := path.fileName?.map fun name => (cutName name).1

def extension? (name : String) : Option String := (cutName name).2

end Path
end SqlCatalog
