import SqlCatalog.Statement.Basic
import SqlCatalog.Statement.Groups
import SqlCatalog.Statement.Inclusion
/-!
From SQL source text to its statements: read tokens, expand inclusions, cut at semicolons, squeeze
blanks, and drop what is empty.
-/
namespace SqlCatalog

structure SqlSource where
  text : String
  origin : String
  base : Option Path
deriving DecidableEq

namespace SqlSource

-- The text of a file, which includes files from its own directory.
def ofFile (files : FileView) (path : Path) : Except Failure SqlSource :=
  match files.readText path with
  | .ok text => .ok ⟨text, path.text, path.parent?⟩
  | .error problem => .error (.unreadable path problem)

end SqlSource

structure StatementList where
  origin : String
  statements : List Statement
  statements_ne_nil : statements ≠ []

-- The statements of a run of tokens without directives; groups that hold nothing are dropped.
def Statement.listOfTokens (ts : List Token) : List Statement :=
  (Token.groups ts).filterMap Statement.ofTokens?

namespace StatementList

def length (l : StatementList) : Nat := l.statements.length

def first (l : StatementList) : Statement := l.statements.head l.statements_ne_nil

def script (l : StatementList) : String := "\n".intercalate (l.statements.map (·.sql ++ ";"))

end StatementList

namespace SqlSource

def tokens (source : SqlSource) (d : Dialect) : Except Failure (List Token) :=
  match Token.ofText d source.text with
  | .ok ts => .ok ts
  | .error description => .error (.source source.origin (.lexical description))

-- The tokens with inclusions expanded; without a base, files are looked for right here.
def expanded (source : SqlSource) (files : FileView) (d : Dialect) :
    Except Failure (List Token) := do
  let ts ← source.tokens d
  Inclusion.expand ⟨files, d, source.base.getD ⟨"."⟩⟩ source.origin ts

def statements (source : SqlSource) (files : FileView) (d : Dialect) :
    Except Failure StatementList := do
  let ts ← source.expanded files d
  if h : Statement.listOfTokens ts = [] then .error (.source source.origin .nothingLeft)
  else .ok ⟨source.origin, Statement.listOfTokens ts, h⟩

end SqlSource
end SqlCatalog
