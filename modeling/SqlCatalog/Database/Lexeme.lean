import SqlCatalog.Statement.Groups
import SqlCatalog.Token.Lexer
/-!
The words and marks of the database's own SQL, and the statements of a text. Its lexical rules are
not those that operations are read with: comments do not nest and may be left open, every character
beyond ASCII may be part of a name, and a number runs into the letters behind it. A text is cut up
without loss: every lexeme keeps its spelling and the blanks behind it. What has no place in a
command, an unclosed quote say, is a mark.
-/
namespace SqlCatalog.Database

/-! ### Blanks -/

-- White space that a blank may begin with; a vertical tab only continues one.
def startsSpace (c : Char) : Bool :=
  c == ' ' || c == '\t' || c == '\n' || c == '\x0c' || c == '\r'

def isSpace (c : Char) : Bool := startsSpace c || c == '\x0b'

def behindComment : List Char → List Char
  | '*' :: '/' :: cs => cs
  | _ :: cs => behindComment cs
  | [] => []

-- What follows the blank that the text begins with, if it does: white space, a byte order mark or
-- a comment. At the end of a text `/*` opens no comment.
def behindBlank? : List Char → Option (List Char)
  | '-' :: '-' :: cs => some (cs.dropWhile (· != '\n'))
  | '/' :: '*' :: c :: cs => some (behindComment (c :: cs))
  | c :: cs =>
    if startsSpace c then some (cs.dropWhile isSpace)
    else if c = '\ufeff' then some cs
    else none
  | [] => none

theorem behind_comment_length (cs : List Char) : (behindComment cs).length ≤ cs.length := by
  fun_induction behindComment cs <;> simp only [List.length_cons, List.length_nil] at * <;> omega

theorem behind_blank_length {cs rest : List Char} (h : behindBlank? cs = some rest) :
    rest.length < cs.length := by
  unfold behindBlank? at h
  split at h
  case h_1 cs =>
    obtain rfl := Option.some.inj h
    have := Token.length_drop_while_le (· != '\n') cs
    simp only [List.length_cons]; omega
  case h_2 c cs =>
    obtain rfl := Option.some.inj h
    have := behind_comment_length (c :: cs)
    simp only [List.length_cons] at *; omega
  case h_3 c cs _ _ =>
    have := Token.length_drop_while_le isSpace cs
    split at h
    · obtain rfl := Option.some.inj h
      simp only [List.length_cons]; omega
    · simp only [Option.ite_none_right_eq_some, Option.some.injEq] at h
      obtain ⟨-, rfl⟩ := h
      simp
  case h_4 => simp at h

def behindBlanks (cs : List Char) : List Char :=
  match _found : behindBlank? cs with
  | some rest => behindBlanks rest
  | none => cs
termination_by cs.length
decreasing_by exact behind_blank_length _found

theorem behind_blanks_length (cs : List Char) : (behindBlanks cs).length ≤ cs.length := by
  fun_induction behindBlanks cs with
  | case1 cs rest found ih =>
    have := behind_blank_length found
    omega
  | case2 => exact Nat.le_refl _

/-! ### Lexemes -/

inductive LexemeKind where
  | word
  | quotedName (quote : Char) (name : String)
  | text (text : String)
  | blob (digits : String)
  | number
  | parameter (place : Option Nat)
  | mark (c : Char)
deriving DecidableEq

structure Lexeme where
  kind : LexemeKind
  spelling : String
  behind : String
deriving DecidableEq

def startsName (c : Char) : Bool := c.isAlpha || c == '_' || 0x80 ≤ c.val

def isNameChar (c : Char) : Bool := startsName c || c.isDigit || c == '$'

def undoubled (quote : Char) : List Char → List Char
  | c :: d :: cs =>
    if c = quote ∧ d = quote then quote :: undoubled quote cs else c :: undoubled quote (d :: cs)
  | cs => cs

def behindDigits (cs : List Char) : List Char := cs.dropWhile fun c => c.isDigit || c == '_'

def behindSign (cs : List Char) : List Char :=
  match cs with
  | e :: sign :: c :: rest =>
    if (e = 'e' ∨ e = 'E') ∧ (sign = '+' ∨ sign = '-') ∧ c.isDigit then rest else cs
  | _ => cs

-- What follows a number that begins with `c`, the letters that it runs into being part of it.
def behindNumber (c : Char) (cs : List Char) : List Char :=
  let rest :=
    if c = '.' then behindDigits cs
    else
      match behindDigits cs with
      | '.' :: rest => behindDigits rest
      | rest => rest
  (behindSign rest).dropWhile isNameChar

def kindFrom (c : Char) (cs : List Char) : LexemeKind × List Char :=
  if c = '\'' ∨ c = '"' ∨ c = '`' then
    match Token.quotedText? c cs with
    | some (text, rest) =>
      let text := String.ofList (undoubled c text)
      (if c = '\'' then .text text else .quotedName c text, rest)
    | none => (.mark c, cs)
  else if c = '[' then
    match cs.dropWhile (· != ']') with
    | _ :: rest => (.quotedName c (String.ofList (cs.takeWhile (· != ']'))), rest)
    | [] => (.mark c, cs)
  else if (c = 'x' ∨ c = 'X') ∧ cs.head? = some '\'' then
    match cs.tail.dropWhile (· != '\'') with
    | _ :: rest => (.blob (String.ofList (cs.tail.takeWhile (· != '\''))), rest)
    | [] => (.mark c, cs)
  else if c.isDigit || (c == '.' && cs.head?.any Char.isDigit) then (.number, behindNumber c cs)
  else if c = '?' then (.parameter none, cs.dropWhile Char.isDigit)
  else if (c = ':' ∨ c = '@' ∨ c = '$' ∨ c = '#') ∧ cs.head?.any isNameChar then
    (.parameter none, cs.dropWhile isNameChar)
  else if startsName c then (.word, cs.dropWhile isNameChar)
  else if c = '=' then (.mark c, if cs.head? = some '=' then cs.tail else cs)
  else (.mark c, cs)

theorem behind_number_length (c : Char) (cs : List Char) :
    (behindNumber c cs).length ≤ cs.length := by
  have digits (cs : List Char) : (behindDigits cs).length ≤ cs.length :=
    Token.length_drop_while_le _ cs
  have sign (cs : List Char) : (behindSign cs).length ≤ cs.length := by
    unfold behindSign
    split
    · split <;> simp only [List.length_cons] <;> omega
    · exact Nat.le_refl _
  refine Nat.le_trans (Token.length_drop_while_le _ _) (Nat.le_trans (sign _) ?_)
  split
  · exact digits cs
  · split
    case h_1 rest found =>
      have inner := digits cs
      rw [found, List.length_cons] at inner
      have := digits rest
      omega
    case h_2 => exact digits cs

theorem kind_from_length (c : Char) (cs : List Char) : (kindFrom c cs).2.length ≤ cs.length := by
  have dropped (p : Char → Bool) (cs : List Char) := Token.length_drop_while_le p cs
  unfold kindFrom
  split
  · split
    case h_1 found => simp only [Token.eq_of_quoted_text found, List.length_append,
        List.length_cons]; omega
    case h_2 => exact Nat.le_refl _
  split
  · split
    case h_1 found =>
      have := dropped (· != ']') cs
      rw [found, List.length_cons] at this
      dsimp only; omega
    case h_2 => exact Nat.le_refl _
  split
  · split
    case h_1 found =>
      have := dropped (· != '\'') cs.tail
      rw [found, List.length_cons, List.length_tail] at this
      dsimp only; omega
    case h_2 => exact Nat.le_refl _
  split
  · exact behind_number_length c cs
  split
  · exact dropped _ _
  split
  · exact dropped _ _
  split
  · exact dropped _ _
  split
  · dsimp only
    split
    · rw [List.length_tail]; omega
    · exact Nat.le_refl _
  · exact Nat.le_refl _

def lexemesFrom : List Char → List Lexeme
  | [] => []
  | c :: cs =>
    let rest := (kindFrom c cs).2
    let next := behindBlanks rest
    let spelling := (c :: cs).take (cs.length + 1 - rest.length)
    let behind := rest.take (rest.length - next.length)
    ⟨(kindFrom c cs).1, String.ofList spelling, String.ofList behind⟩ :: lexemesFrom next
termination_by cs => cs.length
decreasing_by
  have := kind_from_length c cs
  have := behind_blanks_length (kindFrom c cs).2
  simp only [List.length_cons]; omega

-- The lexemes of a text; the character NUL ends it.
def lexemes (text : List Char) : List Lexeme :=
  lexemesFrom (behindBlanks (text.takeWhile (· != '\x00')))

namespace Lexeme

def isMark (c : Char) (l : Lexeme) : Bool := l.kind == .mark c

def isKeyword (word : String) (l : Lexeme) : Bool :=
  l.kind == .word && l.spelling.toLower == word

def source (ls : List Lexeme) : String := String.join (ls.map fun l => l.spelling ++ l.behind)

end Lexeme

/-! ### Statements -/

def divided : List Lexeme → List (List Lexeme)
  | [] => [[]]
  | l :: ls => if l.isMark ';' then [] :: divided ls else Token.attach l (divided ls)

def statements (text : List Char) : List (List Lexeme) :=
  (divided (lexemes text)).filter fun ls => !ls.isEmpty

end SqlCatalog.Database
