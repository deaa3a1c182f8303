import SqlCatalog.Token.Lexer
/-!
Statements: runs of tokens from which comments and all white space but single separating spaces are
gone. Main statements: squeezing a squeezed run changes nothing (`squeezed_squeezed`), and it keeps
the significant tokens in order (`significant_squeezed`).
-/
namespace SqlCatalog

namespace Token

abbrev space : Token := blank .space

def isSignificant (t : Token) : Bool := !t.isBlank && t != endMark

-- Tokens behind a significant one, each run of blanks before another significant token made one
-- space; `gap` tells whether a blank has been passed.
def squeezedTail (gap : Bool) : List Token → List Token
  | [] => []
  | t :: ts =>
    if t.isBlank then squeezedTail true ts
    else if t = endMark then squeezedTail gap ts
    else if gap then space :: t :: squeezedTail false ts
    else t :: squeezedTail false ts

def squeezed : List Token → List Token
  | [] => []
  | t :: ts => if t.isSignificant then t :: squeezedTail false ts else squeezed ts

theorem squeezed_tail_again (gap : Bool) (ts : List Token) :
    squeezedTail false (squeezedTail gap ts) = squeezedTail gap ts := by
  fun_induction squeezedTail gap ts with
  | case1 => rfl
  | case2 _ _ _ _ ih => exact ih
  | case3 _ _ _ ih => exact ih
  | case4 => simp_all [squeezedTail, isBlank]
  | case5 => simp_all [squeezedTail]

theorem squeezed_squeezed (ts : List Token) : squeezed (squeezed ts) = squeezed ts := by
  induction ts with
  | nil => rfl
  | cons t ts ih =>
    by_cases h : t.isSignificant
    · simp [squeezed, h, squeezed_tail_again]
    · simp [squeezed, h, ih]

theorem significant_squeezed_tail (gap : Bool) (ts : List Token) :
    (squeezedTail gap ts).filter isSignificant = ts.filter isSignificant := by
  fun_induction squeezedTail gap ts <;> simp_all [isSignificant, isBlank]

theorem significant_squeezed (ts : List Token) :
    (squeezed ts).filter isSignificant = ts.filter isSignificant := by
  induction ts with
  | nil => rfl
  | cons t ts ih =>
    by_cases h : t.isSignificant
    · simp [squeezed, h, significant_squeezed_tail]
    · simp [squeezed, h, ih]

end Token

-- A statement: at least one significant token, single spaces between neighbours that were apart,
-- and nothing else.
structure Statement where
  tokens : List Token
  tokens_squeezed : Token.squeezed tokens = tokens
  tokens_ne_nil : tokens ≠ []

namespace Statement

def ofTokens? (ts : List Token) : Option Statement :=
  if h : Token.squeezed ts = [] then none
  else some ⟨Token.squeezed ts, Token.squeezed_squeezed ts, h⟩

def sql (s : Statement) : String := Token.concat s.tokens

def significant (s : Statement) : List Token := s.tokens.filter fun t => !t.isBlank

@[ext] theorem ext {a b : Statement} (h : a.tokens = b.tokens) : a = b := by
  cases a; cases b; simp_all

instance : DecidableEq Statement := fun a b =>
  decidable_of_iff (a.tokens = b.tokens) ⟨ext, fun h => h ▸ rfl⟩

end Statement
end SqlCatalog
