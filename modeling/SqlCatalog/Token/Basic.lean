/-!
SQL tokens. A token keeps what its spelling needs: `Token.spelling` writes it down again, and a
statement's text is the spellings of its tokens in a row. Keywords are not a kind of token: an
unquoted word is a keyword when its upper case is one (`Token.keyword?`).
-/
namespace SqlCatalog

inductive Dialect where
  | sqlite
  | generic
  | postgres
deriving DecidableEq

inductive Keyword where
  | all | begin | case | distinct | «end» | except | fetch | «for» | «from» | group | having
  | insert | intersect | into | limit | offset | order | select | union | «where» | window
deriving DecidableEq

namespace Keyword

def spelling : Keyword → String
  | all => "ALL"
  | begin => "BEGIN"
  | case => "CASE"
  | distinct => "DISTINCT"
  | «end» => "END"
  | except => "EXCEPT"
  | fetch => "FETCH"
  | «for» => "FOR"
  | «from» => "FROM"
  | group => "GROUP"
  | having => "HAVING"
  | insert => "INSERT"
  | intersect => "INTERSECT"
  | into => "INTO"
  | limit => "LIMIT"
  | offset => "OFFSET"
  | order => "ORDER"
  | select => "SELECT"
  | union => "UNION"
  | «where» => "WHERE"
  | window => "WINDOW"

def every : List Keyword :=
  [all, begin, case, distinct, «end», except, fetch, «for», «from», group, having, insert,
   intersect, into, limit, offset, order, select, union, «where», window]

-- The upper case of a character where that is made of letters `A` to `Z`; any other character
-- stays, and so keeps its word from being a keyword. Besides `a` to `z` these are the dotless i, the
-- long s, the sharp s and the Latin ligatures.
def upperLetters (c : Char) : List Char :=
  match c with
  | 'ı' => ['I']
  | 'ſ' => ['S']
  | 'ß' => ['S', 'S']
  | 'ﬀ' => ['F', 'F']
  | 'ﬁ' => ['F', 'I']
  | 'ﬂ' => ['F', 'L']
  | 'ﬃ' => ['F', 'F', 'I']
  | 'ﬄ' => ['F', 'F', 'L']
  | 'ﬅ' => ['S', 'T']
  | 'ﬆ' => ['S', 'T']
  | c => [c.toUpper]

def ofWord? (word : String) : Option Keyword :=
  let upper := word.toList.flatMap upperLetters
  every.find? fun k => k.spelling.toList == upper

end Keyword

inductive Quote where
  | double
  | backtick
  | bracket
deriving DecidableEq

namespace Quote

def opening : Quote → Char
  | double => '"'
  | backtick => '`'
  | bracket => '['

def closing : Quote → Char
  | double => '"'
  | backtick => '`'
  | bracket => ']'

end Quote

inductive Blank where
  | space
  | newline
  | tab
  | lineComment (text : String)
  | blockComment (text : String)
deriving DecidableEq

namespace Blank

def spelling : Blank → String
  | space => " "
  | newline => "\n"
  | tab => "\t"
  | lineComment text => "--" ++ text
  | blockComment text => "/*" ++ text ++ "*/"

def isComment : Blank → Bool
  | lineComment _ | blockComment _ => true
  | _ => false

end Blank

inductive LiteralForm where
  | plain
  | national
  | escaped
  | unicode
  | hex
  | bytes (quote : Char)
  | raw (quote : Char) (tripled : Bool)
  | dollar (tag : String)
deriving DecidableEq

namespace LiteralForm

def opening : LiteralForm → String
  | plain => "'"
  | national => "N'"
  | escaped => "E'"
  | unicode => "U&'"
  | hex => "X'"
  | bytes quote => String.ofList ['B', quote]
  | raw quote tripled => "R" ++ String.ofList (List.replicate (if tripled then 3 else 1) quote)
  | dollar tag => "$" ++ tag ++ "$"

def closing : LiteralForm → String
  | bytes quote => String.ofList [quote]
  | raw quote tripled => String.ofList (List.replicate (if tripled then 3 else 1) quote)
  | dollar tag => "$" ++ tag ++ "$"
  | _ => "'"

end LiteralForm

inductive Token where
  | blank (blank : Blank)
  | word (text : String) (quote : Option Quote)
  -- Digits with an optional point and exponent; `long` tells of an `L` behind them.
  | number (digits : String) (long : Bool)
  | literal (form : LiteralForm) (text : String)
  | placeholder (text : String)
  | leftParen
  | rightParen
  | comma
  | semicolon
  | colon
  | period
  | star
  | operator (text : String)
  | endMark
deriving DecidableEq

namespace Token

def spelling : Token → String
  | blank b => b.spelling
  | word text none => text
  | word text (some q) => String.ofList [q.opening] ++ text ++ String.ofList [q.closing]
  | number digits long => if long then digits ++ "L" else digits
  | literal form text => form.opening ++ text ++ form.closing
  | placeholder text => text
  | leftParen => "("
  | rightParen => ")"
  | comma => ","
  | semicolon => ";"
  | colon => ":"
  | period => "."
  | star => "*"
  | operator text => text
  | endMark => "EOF"

def concat (ts : List Token) : String := String.join (ts.map spelling)

def spaced (ts : List Token) : String := " ".intercalate (ts.map spelling)

def isBlank : Token → Bool
  | blank _ => true
  | _ => false

def keyword? : Token → Option Keyword
  | word text none => Keyword.ofWord? text
  | _ => none

def isKeyword (k : Keyword) (t : Token) : Bool := t.keyword? == some k

theorem concat_nil : concat [] = "" := rfl

end Token

end SqlCatalog
