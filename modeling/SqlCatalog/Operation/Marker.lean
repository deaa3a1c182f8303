/-!
Named markers. In SQL text a marker is a colon and a name; an engine wants placeholders of its own
style in their place, numbered by the first appearance of each name. Literals, quoted identifiers,
comments and casts hold no markers. The text is cut into regions from left to right, one step at a
time, and every step takes at least one character.
-/
namespace SqlCatalog

inductive PlaceholderStyle where
  | sqlite
  | postgres
  | named
deriving DecidableEq

def firstAppearances {α : Type} [DecidableEq α] : List α → List α
  | [] => []
  | a :: l => a :: (firstAppearances l).filter (· ≠ a)

theorem mem_first_appearances {α : Type} [DecidableEq α] {a : α} {l : List α} :
    a ∈ firstAppearances l ↔ a ∈ l := by
  induction l with
  | nil => simp [firstAppearances]
  | cons b l ih => by_cases h : a = b <;> simp [firstAppearances, h, ih]

namespace Marker

inductive Region where
  | plain
  | singleQuoted
  | doubleQuoted
  | lineComment
  -- A block comment with `depth` more open around it.
  | blockComment (depth : Nat)
  | dollarQuoted (tag : List Char)
deriving DecidableEq

inductive Piece where
  | text (chars : List Char)
  | marker (name : List Char)
deriving DecidableEq

def startsName (c : Char) : Bool := c.isAlpha || c == '_'

def continuesName (c : Char) : Bool := c.isAlphanum || c == '_'

def nameAt : List Char → List Char
  | c :: cs => if startsName c then c :: cs.takeWhile continuesName else []
  | [] => []

def tagAt? (cs : List Char) : Option (List Char) :=
  let tag := cs.takeWhile continuesName
  if (cs.drop tag.length).head? = some '$' then some tag else none

-- What the first step into a text does: how many characters it takes besides the first, the
-- region behind them, and the name if they are a marker.
structure Step where
  more : Nat
  region : Region
  name : Option (List Char)

def plainStep (style : PlaceholderStyle) (c : Char) (cs : List Char) : Step :=
  match c, cs with
  | '\'', _ => ⟨0, .singleQuoted, none⟩
  | '"', _ => ⟨0, .doubleQuoted, none⟩
  | '-', '-' :: _ => ⟨1, .lineComment, none⟩
  | '/', '*' :: _ => ⟨1, .blockComment 0, none⟩
  | '$', cs =>
    if style = .postgres then
      match tagAt? cs with
      | some tag => ⟨tag.length + 1, .dollarQuoted tag, none⟩
      | none => ⟨0, .plain, none⟩
    else ⟨0, .plain, none⟩
  | ':', ':' :: _ => ⟨1, .plain, none⟩
  | ':', cs =>
    if nameAt cs = [] then ⟨0, .plain, none⟩
    else ⟨(nameAt cs).length, .plain, some (nameAt cs)⟩
  | _, _ => ⟨0, .plain, none⟩

def step (style : PlaceholderStyle) (region : Region) (c : Char) (cs : List Char) : Step :=
  match region with
  | .plain => plainStep style c cs
  | .singleQuoted =>
    if c = '\'' then
      if cs.head? = some '\'' then ⟨1, region, none⟩ else ⟨0, .plain, none⟩
    else ⟨0, region, none⟩
  | .doubleQuoted =>
    if c = '"' then
      if cs.head? = some '"' then ⟨1, region, none⟩ else ⟨0, .plain, none⟩
    else ⟨0, region, none⟩
  | .lineComment => if c = '\n' then ⟨0, .plain, none⟩ else ⟨0, region, none⟩
  | .blockComment depth =>
    if c = '/' ∧ cs.head? = some '*' then ⟨1, .blockComment (depth + 1), none⟩
    else if c = '*' ∧ cs.head? = some '/' then
      match depth with
      | 0 => ⟨1, .plain, none⟩
      | depth + 1 => ⟨1, .blockComment depth, none⟩
    else ⟨0, region, none⟩
  | .dollarQuoted tag =>
    if c = '$' ∧ (tag ++ ['$']).isPrefixOf cs then ⟨tag.length + 1, .plain, none⟩
    else ⟨0, region, none⟩

def piecesFrom (style : PlaceholderStyle) (region : Region) (cs : List Char) : List Piece :=
  match cs with
  | [] => []
  | c :: cs =>
    let s := step style region c cs
    let piece := match s.name with
      | some name => .marker name
      | none => .text (c :: cs.take s.more)
    piece :: piecesFrom style s.region (cs.drop s.more)
termination_by cs.length
decreasing_by simp only [List.length_cons, List.length_drop]; omega

def pieces (style : PlaceholderStyle) (sql : String) : List Piece :=
  piecesFrom style .plain sql.toList

def Piece.source : Piece → List Char
  | text chars => chars
  | marker name => ':' :: name

def Piece.name? : Piece → Option String
  | text _ => none
  | marker name => some (String.ofList name)

def names (ps : List Piece) : List String := firstAppearances (ps.filterMap Piece.name?)

def placeholder (style : PlaceholderStyle) (name : String) (slot : Nat) : String :=
  match style with
  | .sqlite => "?" ++ toString slot
  | .postgres => "$" ++ toString slot
  | .named => ":" ++ name

def Piece.compile (style : PlaceholderStyle) (names : List String) : Piece → String
  | text chars => String.ofList chars
  | marker name =>
    placeholder style (String.ofList name) (names.idxOf (String.ofList name) + 1)

end Marker

structure CompiledSql where
  sql : String
  params : List String
deriving DecidableEq

namespace CompiledSql

def ofMarkers (sql : String) (style : PlaceholderStyle) : CompiledSql :=
  let ps := Marker.pieces style sql
  let names := Marker.names ps
  ⟨String.join (ps.map (·.compile style names)), names⟩

def hasParams (c : CompiledSql) : Bool := !c.params.isEmpty

end CompiledSql
end SqlCatalog
