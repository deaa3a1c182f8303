import SqlCatalog.Database.Cell
import SqlCatalog.Database.Lexeme
/-!
The commands that the database knows: one table `t` of values by row id, a table `u` that is only
created, transactions, and selections of constants and of what the table holds.
-/
namespace SqlCatalog.Database

inductive Column where
  | key
  | value
deriving DecidableEq

inductive Operand where
  | constant (cell : Cell)
  | parameter (place : Nat)
  | column (column : Column)

inductive Conflict where
  | fail
  | ignore
  | replace
deriving DecidableEq

structure NewRow where
  key : Option Operand
  value : Operand

inductive Term where
  | operand (operand : Operand)
  | count

structure Item where
  term : Term
  label : Option String

inductive Source where
  | nowhere
  | table (key : Option Operand)

structure Selection where
  items : List Item
  source : Source
  limit : Option Operand

inductive Command where
  | createTable (keyName valueName : String)
  | createOther
  | insert (conflict : Conflict) (rows : List NewRow) (returning : Bool)
  | update (value : Operand) (key : Option Operand)
  | delete (key : Option Operand)
  | select (selection : Selection)
  | begin
  | commit
  | rollback

/-! ### Names -/

def reserved : List String :=
  ["add", "all", "alter", "and", "as", "autoincrement", "between", "case", "check", "collate",
   "commit", "constraint", "create", "default", "deferrable", "delete", "distinct", "drop", "else",
   "escape", "except", "exists", "foreign", "from", "group", "having", "in", "index", "insert",
   "intersect", "into", "is", "isnull", "join", "limit", "not", "nothing", "notnull", "null", "on",
   "or", "order", "primary", "references", "returning", "select", "set", "table", "then", "to",
   "transaction", "union", "unique", "update", "using", "values", "when", "where"]

-- Keywords that may follow a term, and so are its label only behind AS.
def joining : List String :=
  ["cross", "full", "glob", "indexed", "inner", "left", "like", "match", "natural", "outer",
   "regexp", "right"]

def Lexeme.name? (l : Lexeme) : Option String :=
  match l.kind with
  | .word => if reserved.contains l.spelling.toLower then none else some l.spelling
  | .quotedName _ name => some name
  | .text name => some name
  | _ => none

def Lexeme.isName (name : String) (l : Lexeme) : Bool :=
  l.name?.any fun given => given.toLower == name

def Column.ofName? (name : String) : Option Column :=
  if name.toLower = "id" then some .key
  else if name.toLower = "v" then some .value
  else none

/-! ### Reading -/

inductive Part where
  | keyword (word : String)
  | name (name : String)
  | column (column : Column)
  | mark (c : Char)

def Lexeme.column? (l : Lexeme) : Option Column :=
  match l.kind with
  | .text _ => none
  | _ => l.name?.bind Column.ofName?

def Part.fits (l : Lexeme) : Part → Bool
  | .keyword word => l.isKeyword word
  | .name given => l.isName given
  | .column given => l.column? == some given
  | .mark c => l.isMark c

def expect? : (parts : List Part) → List Lexeme → Option (List Lexeme)
  | [], ls => some ls
  | _ :: _, [] => none
  | part :: parts, l :: ls => if part.fits l then expect? parts ls else none

def spanUntil (words : List String) (ls : List Lexeme) : List Lexeme × List Lexeme :=
  ls.span fun l => !words.any fun word => l.isKeyword word

def commaParts (depth : Nat) : List Lexeme → List (List Lexeme)
  | [] => [[]]
  | l :: ls =>
    if l.isMark ',' ∧ depth = 0 then [] :: commaParts 0 ls
    else if l.isMark '(' then Token.attach l (commaParts (depth + 1) ls)
    else if l.isMark ')' then Token.attach l (commaParts (depth - 1) ls)
    else Token.attach l (commaParts depth ls)

def bytes? : List Char → Option (List UInt8)
  | [] => some []
  | a :: b :: rest => do
    let high ← Token.hexDigit? a
    let low ← Token.hexDigit? b
    return (high * 16 + low).toUInt8 :: (← bytes? rest)
  | [_] => none

-- The operand that one lexeme is. Columns are known inside the table only, and a name between
-- quotation marks that is no column is a text.
def plainOperand? (inTable : Bool) (l : Lexeme) : Option Operand :=
  let column? := if inTable then l.column? else none
  match l.kind, column? with
  | _, some column => some (.column column)
  | .word, none =>
    if l.isKeyword "null" then some (.constant .null)
    else if l.isKeyword "true" then some (.constant (.integer 1))
    else if l.isKeyword "false" then some (.constant (.integer 0))
    else none
  | .number, none => (Cell.ofLiteral? false l.spelling.toList).map .constant
  | .text s, none => some (.constant (.text s))
  | .quotedName quote name, none => if quote = '"' then some (.constant (.text name)) else none
  | .blob digits, none => (bytes? digits.toList).map fun bytes => .constant (.blob bytes)
  | .parameter place, none => place.map .parameter
  | .mark _, none => none

def operandFrom? (inTable negative : Bool) : List Lexeme → Option Operand
  | [] => none
  | [l] =>
    if !negative then plainOperand? inTable l
    else if l.isKeyword "null" then some (.constant .null)
    else if l.kind = .number then (Cell.ofLiteral? true l.spelling.toList).map .constant
    else none
  | l :: ls =>
    if l.isMark '-' then operandFrom? inTable (!negative) ls
    else if l.isMark '+' then operandFrom? inTable negative ls
    else none

def operand? (inTable : Bool) (ls : List Lexeme) : Option Operand := operandFrom? inTable false ls

def columns? (ls : List Lexeme) : Option (List Column × List Lexeme) :=
  match expect? [.mark '('] ls with
  | none => some ([.key, .value], ls)
  | some ls => do
    let (names, rest) := ls.span fun l => !l.isMark ')'
    let columns ← (commaParts 0 names).mapM fun
      | [l] => l.name?.bind Column.ofName?
      | _ => none
    if columns.Nodup then return (columns, ← expect? [.mark ')'] rest) else none

def newRow? (columns : List Column) (ls : List Lexeme) : Option NewRow := do
  let ls ← expect? [.mark '('] ls
  let last ← ls.getLast?
  let operands ← (commaParts 0 ls.dropLast).mapM (operand? false)
  if last.isMark ')' ∧ operands.length = columns.length then
    let given := columns.zip operands
    return ⟨given.lookup .key, (given.lookup .value).getD (.constant .null)⟩
  else none

def insertion? (conflict : Conflict) (ls : List Lexeme) : Option Command := do
  let (columns, ls) ← columns? ls
  let (ls, returning) := spanUntil ["returning"] (← expect? [.keyword "values"] ls)
  let rows ← (commaParts 0 ls).mapM (newRow? columns)
  if returning.isEmpty then return .insert conflict rows false
  else if expect? [.keyword "returning", .column .key] returning matches some [] then
    return .insert conflict rows true
  else none

def condition? (ls : List Lexeme) : Option (Option Operand) :=
  if ls.isEmpty then some none
  else do
    let key ← operand? true (← expect? [.keyword "where", .column .key, .mark '='] ls)
    return some key

def update? (ls : List Lexeme) : Option Command := do
  let ls ←
    match ls with
    | l :: ls => if l.isName "v" then expect? [.mark '='] ls else none
    | [] => none
  let (value, rest) := spanUntil ["where"] ls
  return .update (← operand? true value) (← condition? rest)

def term? (inTable : Bool) (ls : List Lexeme) : Option Term :=
  if expect? [.keyword "count", .mark '(', .mark '*', .mark ')'] ls matches some [] then some .count
  else (operand? inTable ls).map .operand

def labelOf (ls : List Lexeme) : String :=
  String.ofList ((Lexeme.source ls).toList.reverse.dropWhile isSpace).reverse

def unlabelled? (inTable : Bool) (ls : List Lexeme) : Option Item :=
  (term? inTable ls).map fun
    | .operand (.column column) => ⟨.operand (.column column), none⟩
    | term => ⟨term, some (labelOf ls)⟩

def labelled? (inTable : Bool) (ls : List Lexeme) : Option Item := do
  let last ← ls.getLast?
  let label ← last.name?
  let before := ls.dropLast
  if before.getLast?.any fun l => l.isKeyword "as" then
    return ⟨← term? inTable before.dropLast, some label⟩
  else if last.kind = .word ∧ joining.contains label.toLower then none
  else return ⟨← term? inTable before, some label⟩

def item? (inTable : Bool) (ls : List Lexeme) : Option Item :=
  (labelled? inTable ls).or (unlabelled? inTable ls)

-- Where a selection takes its rows from, and what follows that. The rows come in the order of
-- their ids, asked for or not.
def source? (ls : List Lexeme) : Option (Source × List Lexeme) :=
  if ls.head?.any fun l => l.isKeyword "from" then do
    let ls ← expect? [.keyword "from", .name "t"] ls
    let (condition, rest) := spanUntil ["order", "limit"] ls
    let order := [Part.keyword "order", .keyword "by", .column .key]
    return (.table (← condition? condition), (expect? order rest).getD rest)
  else some (.nowhere, ls)

def limit? (ls : List Lexeme) : Option (Option Operand) :=
  if ls.isEmpty then some none
  else do
    let limit ← operand? false (← expect? [.keyword "limit"] ls)
    return some limit

def maxColumns : Nat := 2000

def selection? (ls : List Lexeme) : Option Command := do
  let (items, ls) := spanUntil ["from", "limit"] ls
  let (source, ls) ← source? ls
  let inTable := source matches .table _
  let items ← (commaParts 0 items).mapM (item? inTable)
  let limit ← limit? ls
  let counts := items.any fun item => item.term matches .count
  let picks := items.any fun item => item.term matches .operand (.column _)
  if maxColumns < items.length ∨ (counts ∧ picks) then none
  else return .select ⟨items, source, limit⟩

def tableColumns? (ls : List Lexeme) : Option Command := do
  let key ← ls.head?
  let keyName ← key.name?
  let ls ← expect? [.keyword "integer", .keyword "primary", .keyword "key", .mark ','] ls.tail
  let valueName ← (← ls.head?).name?
  if keyName.toLower = "id" ∧ valueName.toLower = "v" ∧
      (expect? [.mark ')'] ls.tail matches some []) then
    return .createTable keyName valueName
  else none

def forms : List (List Part × (List Lexeme → Option Command)) :=
  [(words ["create", "table"] ++ [.name "t", .mark '('], tableColumns?),
   (words ["create", "table"] ++ [.name "u", .mark '(', .name "a", .mark ')'], alone .createOther),
   (words ["insert", "into"] ++ [.name "t"], insertion? .fail),
   (words ["insert", "or", "abort", "into"] ++ [.name "t"], insertion? .fail),
   (words ["insert", "or", "ignore", "into"] ++ [.name "t"], insertion? .ignore),
   (words ["insert", "or", "replace", "into"] ++ [.name "t"], insertion? .replace),
   (words ["replace", "into"] ++ [.name "t"], insertion? .replace),
   (words ["update"] ++ [.name "t", .keyword "set"], update?),
   (words ["delete", "from"] ++ [.name "t"], fun ls => (condition? ls).map .delete),
   (words ["select"], selection?)] ++
  (modes.map fun mode => (words ("begin" :: mode), transaction .begin)) ++
  [(words ["commit"], transaction .commit),
   (words ["end"], transaction .commit),
   (words ["rollback"], transaction .rollback)]
where
  words (ws : List String) : List Part := ws.map .keyword
  modes : List (List String) := [[], ["deferred"], ["immediate"], ["exclusive"]]
  alone (command : Command) (ls : List Lexeme) : Option Command :=
    if ls.isEmpty then some command else none
  transaction (command : Command) (ls : List Lexeme) : Option Command :=
    alone command ((expect? [.keyword "transaction"] ls).getD ls)

/-! ### Parameters -/

def maxPlace : Nat := 32766

structure Numbering where
  highest : Nat
  named : List (String × Nat)

-- The number that a parameter is bound under: the one that it is written with, the one that its
-- name has, or else the one after the highest.
def Numbering.place? (n : Numbering) (spelling : String) : Option Nat :=
  let place? :=
    match spelling.toList with
    | ['?'] => some (n.highest + 1)
    | '?' :: digits => some (digitsValue digits)
    | '#' :: c :: _ =>
      if c.isDigit then none else some ((n.named.lookup spelling).getD (n.highest + 1))
    | _ => some ((n.named.lookup spelling).getD (n.highest + 1))
  place?.filter fun place => 0 < place ∧ place ≤ maxPlace

def numbered (n : Numbering) : List Lexeme → List Lexeme
  | [] => []
  | l :: ls =>
    match l.kind with
    | .parameter _ =>
      let place? := n.place? l.spelling
      let place := place?.getD 0
      { l with kind := .parameter place? } ::
        numbered ⟨max n.highest place, (l.spelling, place) :: n.named⟩ ls
    | _ => l :: numbered n ls

def Command.ofLexemes? (ls : List Lexeme) : Option Command :=
  let ls := numbered ⟨0, []⟩ ls
  forms.findSome? fun (parts, rest?) => (expect? parts ls).bind rest?

def Operand.place : Operand → Nat
  | parameter place => place
  | constant _ | column _ => 0

def Term.place : Term → Nat
  | operand o => o.place
  | count => 0

def Command.parameterCount : Command → Nat
  | insert _ rows _ =>
    highest (rows.flatMap fun row => [row.key.elim 0 Operand.place, row.value.place])
  | update value key => highest [value.place, key.elim 0 Operand.place]
  | delete key => key.elim 0 Operand.place
  | select s =>
    let key := match s.source with
      | .nowhere => none
      | .table key => key
    highest (key.elim 0 Operand.place :: s.limit.elim 0 Operand.place ::
      s.items.map fun item => item.term.place)
  | createTable _ _ | createOther | begin | commit | rollback => 0
where
  highest (places : List Nat) : Nat := places.foldl max 0

def Operand.cell (parameters : List Cell) (row : Option (Int64 × Cell)) : Operand → Cell
  | constant cell => cell
  | parameter place => (parameters[place - 1]?.getD .null).bound
  | column .key => row.elim .null fun row => .integer row.1
  | column .value => row.elim .null fun row => row.2

end SqlCatalog.Database
