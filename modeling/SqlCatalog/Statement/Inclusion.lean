import SqlCatalog.Failure
import SqlCatalog.Token.Lexer
/-!
`INCLUDE` directives. At the start of a statement the word INCLUDE and a quoted file name stand for
the tokens of that file. File names are resolved against one base, however deep files are nested,
and a file that includes itself, directly or not, is an error; so expansion ends.
-/
namespace SqlCatalog.Inclusion

inductive Piece where
  | token (t : Token)
  | directive (target : Path)
  | nameless
deriving DecidableEq

inductive Reading where
  | statement (atStart : Bool)
  | name
  | afterName
deriving DecidableEq

def isDirectiveWord : Token → Bool
  | .word text none => text.toLower == "include"
  | _ => false

def fileName? : Token → Option Path
  | .literal .plain text => some ⟨text⟩
  | .word text (some _) => some ⟨text⟩
  | _ => none

-- Reads one token of a statement. Comments become spaces.
def readToken (atStart : Bool) (t : Token) : Option Piece × Reading :=
  match t with
  | .blank b => (some (.token (.blank (if b.isComment then .space else b))), .statement atStart)
  | .semicolon => (some (.token t), .statement true)
  | t =>
    if atStart && isDirectiveWord t then (none, .name)
    else (some (.token t), .statement false)

def piecesFrom : Reading → List Token → List Piece
  | .name, [] => [.nameless]
  | _, [] => []
  | .statement atStart, t :: ts =>
    let (piece, reading) := readToken atStart t
    piece.toList ++ piecesFrom reading ts
  | .name, t :: ts =>
    if t.isBlank then piecesFrom .name ts
    else
      match fileName? t with
      | some target => .directive target :: piecesFrom .afterName ts
      | none => [.nameless]
  | .afterName, t :: ts =>
    if t.isBlank then piecesFrom .afterName ts
    else if t = .semicolon then piecesFrom (.statement true) ts
    else
      let (piece, reading) := readToken true t
      piece.toList ++ piecesFrom reading ts

def pieces (ts : List Token) : List Piece := piecesFrom (.statement true) ts

structure Setting where
  files : FileView
  dialect : Dialect
  base : Path

def tokensOf (s : Setting) (path : Path) (location : Location) : Except Failure (List Token) :=
  match s.files.textAt location with
  | .error problem => .error (.unreadable path problem)
  | .ok text =>
    match Token.ofText s.dialect text with
    | .error description => .error (.source path.text (.lexical description))
    | .ok ts => .ok ts

theorem mem_locations_of_tokens_of {s : Setting} {path : Path} {location : Location}
    {ts : List Token} (h : tokensOf s path location = .ok ts) : location ∈ s.files.locations := by
  unfold tokensOf at h
  split at h
  · simp at h
  case h_2 text found => exact s.files.mem_locations.2 ⟨text, found⟩

-- Replaces each directive by a space, what its file expands to, and a semicolon. `origin` names
-- the text that the pieces are from, `stack` holds the files being expanded.
def expandPieces (s : Setting) (stack : List Location) (origin : String) :
    List Piece → Except Failure (List Token)
  | [] => .ok []
  | .token t :: rest => (expandPieces s stack origin rest).map (t :: ·)
  | .nameless :: _ => .error (.source origin .includeWithoutName)
  | .directive target :: rest =>
    let path := s.base.join target
    match s.files.resolve path with
    | .error problem => .error (.unreadable path problem)
    | .ok location =>
      if _fresh : location ∈ stack then .error (.source origin (.includeCycle path))
      else
        match _found : tokensOf s path location with
        | .error failure => .error failure
        | .ok ts => do
          let included ← expandPieces s (location :: stack) path.text (pieces ts)
          let others ← expandPieces s stack origin rest
          .ok (.blank .space :: (included ++ .semicolon :: others))
termination_by ps => (s.files.unvisited stack, ps.length)
decreasing_by
  · exact Prod.Lex.right _ (by simp)
  · exact Prod.Lex.left _ _ (FileView.unvisited_cons_lt (mem_locations_of_tokens_of _found) _fresh)
  · exact Prod.Lex.right _ (by simp)

def expand (s : Setting) (origin : String) (ts : List Token) : Except Failure (List Token) :=
  expandPieces s [] origin (pieces ts)

end SqlCatalog.Inclusion
