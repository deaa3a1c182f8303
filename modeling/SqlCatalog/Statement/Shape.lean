import SqlCatalog.Statement.Source
/-!
What a statement answers with, read off its tokens: an inserted row, one value, one row or a table.
Everything here looks at tokens outside parentheses only.
-/
namespace SqlCatalog

namespace Token

-- The depth of parentheses behind a token. A closing one without an opening one changes
-- nothing.
def deeper (depth : Nat) : Token → Nat
  | leftParen => depth + 1
  | rightParen => depth - 1
  | _ => depth

def commaParts (depth : Nat) : List Token → List (List Token)
  | [] => [[]]
  | t :: ts =>
    if t = .comma ∧ depth = 0 then [] :: commaParts 0 ts
    else attach t (commaParts (deeper depth t) ts)

def afterFirst? (k : Keyword) (depth : Nat) : List Token → Option (List Token)
  | [] => none
  | t :: ts =>
    if depth = 0 ∧ t.isKeyword k then some ts else afterFirst? k (deeper depth t) ts

def afterLast? (k : Keyword) (depth : Nat) : List Token → Option (List Token)
  | [] => none
  | t :: ts =>
    match afterLast? k (deeper depth t) ts with
    | some rest => some rest
    | none => if depth = 0 ∧ t.isKeyword k then some ts else none

def wordNumber? (digits : String) : Option Nat :=
  let cs := digits.toList
  if cs.isEmpty || !cs.all Char.isDigit then none
  else
    let n := cs.foldl (fun n c => n * 10 + (c.toNat - '0'.toNat)) 0
    if n < UInt64.size then some n else none

end Token

inductive Limit where
  | absent
  | literal (count : Nat)
  | expression (text : String)
deriving DecidableEq

namespace Limit

def ends (t : Token) : Bool :=
  match t.keyword? with
  | some .offset | some .for | some .fetch => true
  | _ => false

-- The limit that the expression behind LIMIT gives: of `offset, count` it is the count.
def ofExpression (ts : List Token) : Limit :=
  match (Token.commaParts 0 ts).getLast?.getD [] with
  | [.number digits false] =>
    match Token.wordNumber? digits with
    | some count => literal count
    | none => expression digits
  | count => expression (Token.spaced count)

def ofTokens (ts : List Token) : Limit :=
  match Token.afterLast? .limit 0 ts with
  | none => absent
  | some rest => ofExpression (rest.takeWhile fun t => !ends t && t != .rightParen)

end Limit

structure Column where
  name : String
  wildcard : Bool
deriving DecidableEq

namespace Column

def ends (t : Token) : Bool :=
  match t.keyword? with
  | some .from | some .into | some .where | some .group | some .having | some .order
  | some .limit | some .union | some .except | some .intersect | some .window => true
  | _ => false

def listTokens (depth : Nat) : List Token → List Token
  | [] => []
  | t :: ts =>
    if depth = 0 ∧ (t = .rightParen ∨ t = .semicolon ∨ ends t) then []
    else t :: listTokens (Token.deeper depth t) ts

def ofItem (item : List Token) : Column :=
  match item.reverse with
  | [.star] => ⟨"*", true⟩
  | .star :: .period :: _ => ⟨"*", true⟩
  | .word text _ :: _ => ⟨text, false⟩
  | _ => ⟨Token.spaced item, false⟩

def listOfTokens (ts : List Token) : List Column :=
  match Token.afterFirst? .select 0 ts with
  | none => []
  | some rest =>
    let items := rest.dropWhile fun t => t.isKeyword .distinct || t.isKeyword .all
    ((Token.commaParts 0 (listTokens 0 items)).filter fun item => !item.isEmpty).map ofItem

end Column

namespace Statement

def limit (s : Statement) : Limit := .ofTokens s.significant

def columns (s : Statement) : List Column := Column.listOfTokens s.significant

def isInsert (s : Statement) : Bool := s.significant.head?.any (·.isKeyword .insert)

end Statement

inductive Category where
  | singleInsert
  | multiInsert
  | singleValue
  | singleRow
  | table
  | script
deriving DecidableEq

namespace Category

def label : Category → String
  | singleInsert => "single_insert"
  | multiInsert => "multi_insert"
  | singleValue => "single_value"
  | singleRow => "single_row"
  | table => "table"
  | script => "script"

def isInsert : Category → Bool
  | singleInsert | multiInsert => true
  | _ => false

def isSingle : Category → Bool
  | multiInsert | script => false
  | _ => true

def ofQuery (s : Statement) : Category :=
  if s.limit = .literal 1 then
    match s.columns with
    | [column] => if column.wildcard then singleRow else singleValue
    | _ => singleRow
  else table

-- The first statement decides whether there is an insert; of several statements without one, the
-- whole is a script.
def ofStatements (l : StatementList) : Category :=
  if l.first.isInsert then
    if l.length = 1 then singleInsert else multiInsert
  else if l.length = 1 then ofQuery l.first
  else script

end Category
end SqlCatalog
