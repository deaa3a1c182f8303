import SqlCatalog.Text.CharClass
import SqlCatalog.Token.Quoted
import SqlCatalog.Token.Fault
/-!
From text to tokens. A scanner is one rule: on a text that it fits it answers the first token and
what follows, or the fault that keeps it from doing so. The next token is decided by the first
scanner of the dialect's list that fits; every scanner takes at least one character, and the last
one fits every character, so the whole text is read.
-/
namespace SqlCatalog

namespace Dialect

def isHighLetter (c : Char) : Bool := 0x7f ≤ c.val && c.val ≤ 0xffff

def startsWord (d : Dialect) (c : Char) : Bool :=
  match d with
  | sqlite => c.isAlpha || c == '_' || c == '$' || isHighLetter c
  | generic => Text.isAlphabetic c || c == '_' || c == '#' || c == '@'
  | postgres => Text.isAlphabetic c || c == '_'

def continuesWord (d : Dialect) (c : Char) : Bool :=
  match d with
  | sqlite => d.startsWord c || c.isDigit
  | generic => Text.isAlphabetic c || c.isDigit || c == '@' || c == '$' || c == '#' || c == '_'
  | postgres => Text.isAlphabetic c || c.isDigit || c == '$' || c == '_'

def openingQuote? (d : Dialect) (c : Char) : Option Quote :=
  match d, c with
  | _, '"' => some .double
  | sqlite, '`' => some .backtick
  | generic, '`' => some .backtick
  | sqlite, '[' => some .bracket
  | _, _ => none

theorem eq_of_opening_quote {d : Dialect} {c : Char} {quote : Quote}
    (h : d.openingQuote? c = some quote) : quote.opening = c := by
  unfold openingQuote? at h
  split at h <;> cases h <;> rfl

def continuesOperator (d : Dialect) (c : Char) : Bool :=
  d == postgres && "+-*/<>=~!@#%^&|`?".toList.contains c

end Dialect

namespace Token

abbrev Scanner := List Char → Option (Except Fault (Token × List Char))

def scanSpace : Scanner
  | ' ' :: cs => some (.ok (.blank .space, cs))
  | '\t' :: cs => some (.ok (.blank .tab, cs))
  | '\n' :: cs => some (.ok (.blank .newline, cs))
  | '\r' :: '\n' :: cs => some (.ok (.blank .newline, cs))
  | '\r' :: cs => some (.ok (.blank .newline, cs))
  | _ => none

def quotedLiteral (form : LiteralForm) (quote : Char) (start cs : List Char) :
    Except Fault (Token × List Char) :=
  match quotedText? quote cs with
  | some (text, rest) => .ok (.literal form (String.ofList text), rest)
  | none => .error ⟨.unterminatedString, start⟩

def scanBytes (d : Dialect) : Scanner
  | b :: q :: cs =>
    if d = .generic ∧ (b = 'b' ∨ b = 'B') ∧ (q = '\'' ∨ q = '"') then
      some (quotedLiteral (.bytes q) q (q :: cs) cs)
    else none
  | _ => none

-- A raw literal, read up to its first quote. With two more quotes it ends at the next three, and
-- with one more it is empty.
def rawLiteral (quote : Char) (cs : List Char) : Except Fault (Token × List Char) :=
  if cs.take 2 = [quote, quote] then
    match tripleQuotedText? quote (cs.drop 2) with
    | some (text, rest) => .ok (.literal (.raw quote true) (String.ofList text), rest)
    | none => .error ⟨.unterminatedString, cs.drop 2⟩
  else if cs.head? = some quote then .ok (.literal (.raw quote false) "", cs.tail)
  else quotedLiteral (.raw quote false) quote cs cs

def scanRaw (d : Dialect) : Scanner
  | r :: q :: cs =>
    if d = .generic ∧ (r = 'r' ∨ r = 'R') ∧ (q = '\'' ∨ q = '"') then some (rawLiteral q cs)
    else none
  | _ => none

def shieldedLiteral (form : LiteralForm) (cs : List Char) : Except Fault (Token × List Char) :=
  match shieldedText? '\'' cs with
  | some (text, rest) => .ok (.literal form (String.ofList text), rest)
  | none => .error ⟨.unterminatedString, '\'' :: cs⟩

def scanNational : Scanner
  | n :: '\'' :: cs =>
    if n = 'n' ∨ n = 'N' then some (shieldedLiteral .national cs) else none
  | _ => none

def scanEscaped : Scanner
  | e :: '\'' :: cs =>
    if e = 'e' ∨ e = 'E' then
      match escapedText? cs with
      | some (text, rest) => some (.ok (.literal .escaped (String.ofList text), rest))
      | none => some (.error ⟨.unterminatedEscapedString, e :: '\'' :: cs⟩)
    else none
  | _ => none

def hexScalar (value : Nat) : (width : Nat) → List Char → Except Fault (Char × List Char)
  | 0, cs =>
    match scalar? value with
    | some c => .ok (c, cs)
    | none => .error ⟨.notACharacter value, cs⟩
  | _ + 1, [] => .error ⟨.hexDigitMissing, []⟩
  | width + 1, c :: cs =>
    match hexDigit? c with
    | some digit => hexScalar (value * 16 + digit) width cs
    | none => .error ⟨.notAHexDigit c, cs⟩

theorem hex_scalar_drops {value width : Nat} {cs rest : List Char} {e : Char}
    (h : hexScalar value width cs = .ok (e, rest)) :
    ∃ taken, taken.length = width ∧ cs = taken ++ rest := by
  fun_induction hexScalar value width cs with
  | case1 =>
    cases h
    exact ⟨[], rfl, rfl⟩
  | case2 => cases h
  | case3 => cases h
  | case4 value width c cs digit _ ih =>
    obtain ⟨taken, length, rfl⟩ := ih h
    exact ⟨c :: taken, by simp [length], rfl⟩
  | case5 => cases h

def unicodeEscape (cs : List Char) : Except Fault (Char × List Char) :=
  match cs with
  | '\\' :: rest => .ok ('\\', rest)
  | '+' :: rest => hexScalar 0 6 rest
  | cs => hexScalar 0 4 cs

theorem unicode_escape_drops {cs rest : List Char} {e : Char}
    (h : unicodeEscape cs = .ok (e, rest)) : ∃ taken, taken ≠ [] ∧ cs = taken ++ rest := by
  unfold unicodeEscape at h
  split at h
  · cases h
    exact ⟨['\\'], by simp, rfl⟩
  · obtain ⟨taken, -, rfl⟩ := hex_scalar_drops h
    exact ⟨'+' :: taken, by simp, rfl⟩
  · obtain ⟨taken, length, rfl⟩ := hex_scalar_drops h
    exact ⟨taken, List.ne_nil_of_length_pos (by omega), rfl⟩

theorem unicode_escape_length {cs rest : List Char} {c : Char}
    (h : unicodeEscape cs = .ok (c, rest)) : rest.length ≤ cs.length := by
  obtain ⟨taken, -, rfl⟩ := unicode_escape_drops h
  simp

def unicodeText (cs : List Char) : Except Fault (List Char × List Char) :=
  match cs with
  | [] => .error ⟨.unterminatedUnicodeString, []⟩
  | c :: cs =>
    if c = '\'' then
      match cs with
      | [] => .ok ([], [])
      | d :: ds =>
        if d = '\'' then (unicodeText ds).map fun (text, rest) => ('\'' :: text, rest)
        else .ok ([], d :: ds)
    else if c = '\\' then
      match _found : unicodeEscape cs with
      | .error fault => .error fault
      | .ok (e, rest') => (unicodeText rest').map fun (text, rest) => (e :: text, rest)
    else (unicodeText cs).map fun (text, rest) => (c :: text, rest)
termination_by cs.length
decreasing_by
  · simp only [List.length_cons]; omega
  · have := unicode_escape_length _found; simp only [List.length_cons]; omega
  · simp

theorem map_eq_ok {ε α β : Type} {f : α → β} {x : Except ε α} {b : β}
    (h : x.map f = .ok b) : ∃ a, x = .ok a ∧ f a = b := by
  cases x <;> simp_all [Except.map]

theorem unicode_text_length {cs text rest : List Char}
    (h : unicodeText cs = .ok (text, rest)) : rest.length < cs.length := by
  fun_induction unicodeText cs generalizing text rest with
  | case1 => simp at h
  | case2 => simp_all
  | case3 ds ih =>
    obtain ⟨⟨text', rest'⟩, inner, eq⟩ := map_eq_ok h
    simp only [Prod.mk.injEq] at eq
    obtain ⟨rfl, rfl⟩ := eq
    have := ih inner
    simp only [List.length_cons]; omega
  | case4 => simp_all
  | case5 => simp at h
  | case6 cs e rest'' found _ ih =>
    obtain ⟨⟨text', rest'⟩, inner, eq⟩ := map_eq_ok h
    simp only [Prod.mk.injEq] at eq
    obtain ⟨rfl, rfl⟩ := eq
    have := ih inner
    have := unicode_escape_length found
    simp only [List.length_cons]; omega
  | case7 _ _ _ _ ih =>
    obtain ⟨⟨text', rest'⟩, inner, eq⟩ := map_eq_ok h
    simp only [Prod.mk.injEq] at eq
    obtain ⟨rfl, rfl⟩ := eq
    have := ih inner
    simp only [List.length_cons]; omega

def scanUnicode (d : Dialect) : Scanner
  | u :: '&' :: '\'' :: cs =>
    if d ≠ .sqlite ∧ (u = 'u' ∨ u = 'U') then
      some ((unicodeText cs).map fun (text, rest) =>
        (.literal .unicode (String.ofList text), rest))
    else none
  | _ => none

def scanHex : Scanner
  | x :: '\'' :: cs =>
    if x = 'x' ∨ x = 'X' then some (shieldedLiteral .hex cs) else none
  | _ => none

def scanString : Scanner
  | '\'' :: cs => some (quotedLiteral .plain '\'' ('\'' :: cs) cs)
  | _ => none

def scanQuotedWord (d : Dialect) : Scanner
  | c :: cs =>
    (d.openingQuote? c).map fun quote =>
      match quotedText? quote.closing cs with
      | some (text, rest) => .ok (.word (String.ofList text) (some quote), rest)
      | none => .error ⟨.unclosedIdentifier quote.closing, c :: cs⟩
  | _ => none

def exponent (cs : List Char) : List Char :=
  match cs with
  | e :: rest =>
    if e = 'e' ∨ e = 'E' then
      let sign := (rest.take 1).takeWhile fun c => c == '+' || c == '-'
      let digits := (rest.drop sign.length).takeWhile Char.isDigit
      if digits.isEmpty then [] else e :: sign ++ digits
    else []
  | [] => []

def fraction : List Char → List Char
  | '.' :: cs => '.' :: cs.takeWhile Char.isDigit
  | _ => []

def numberFrom (digits cs : List Char) : Token × List Char :=
  if digits = ['.'] then (.period, cs)
  else
    let power := exponent cs
    let text := String.ofList (digits ++ power)
    match cs.drop power.length with
    | 'L' :: rest => (.number text true, rest)
    | rest => (.number text false, rest)

def scanNumber : Scanner
  | c :: cs =>
    if c.isDigit || c == '.' then
      let whole := (c :: cs).takeWhile Char.isDigit
      let rest := (c :: cs).drop whole.length
      if whole = ['0'] ∧ rest.head? = some 'x' then
        let isHex := fun c => (hexDigit? c).isSome
        some (.ok (.literal .hex (String.ofList (rest.tail.takeWhile isHex)),
          rest.tail.dropWhile isHex))
      else
        let part := fraction rest
        some (.ok (numberFrom (whole ++ part) (rest.drop part.length)))
    else none
  | [] => none

def scanMark : Scanner
  | '(' :: cs => some (.ok (.leftParen, cs))
  | ')' :: cs => some (.ok (.rightParen, cs))
  | ',' :: cs => some (.ok (.comma, cs))
  | ';' :: cs => some (.ok (.semicolon, cs))
  | '*' :: cs => some (.ok (.star, cs))
  | c :: cs =>
    if ['+', '\\', '[', ']', '\x7b', '\x7d'].contains c then
      some (.ok (.operator (String.ofList [c]), cs))
    else none
  | [] => none

-- The rest of a block comment inside `depth + 1` open ones, `last` being the character read
-- before. A character both ends and begins: in `*/*` the slash closes and, with the star, opens.
def blockComment? (last : Char) (depth : Nat) : List Char → Option (List Char × List Char)
  | [] => none
  | c :: cs =>
    if last = '/' ∧ c = '*' then
      (blockComment? c (depth + 1) cs).map fun (text, rest) => (c :: text, rest)
    else if last = '*' ∧ c = '/' then
      match depth with
      | 0 => some ([c], cs)
      | depth + 1 => (blockComment? c depth cs).map fun (text, rest) => (c :: text, rest)
    else (blockComment? c depth cs).map fun (text, rest) => (c :: text, rest)

theorem eq_of_block_comment {last : Char} {depth : Nat} {cs text rest : List Char}
    (h : blockComment? last depth cs = some (text, rest)) : cs = text ++ rest := by
  fun_induction blockComment? last depth cs generalizing text rest with
  | case1 => simp at h
  | case3 =>
    simp only [Option.some.injEq, Prod.mk.injEq] at h
    obtain ⟨rfl, rfl⟩ := h
    rfl
  | case2 | case4 | case5 =>
    obtain ⟨⟨text', rest'⟩, inner, eq⟩ := Option.map_eq_some_iff.1 h
    simp only [Prod.mk.injEq] at eq
    obtain ⟨rfl, rfl⟩ := eq
    simp_all

def scanComment : Scanner
  | '-' :: '-' :: cs =>
    let line := cs.takeWhile (· != '\n')
    let lineEnd := (cs.drop line.length).take 1
    some (.ok (.blank (.lineComment (String.ofList (line ++ lineEnd))),
      cs.drop (line.length + 1)))
  | '/' :: '*' :: cs =>
    match blockComment? ' ' 0 cs with
    | some (text, rest) =>
      some (.ok (.blank (.blockComment (String.ofList (text.take (text.length - 2)))), rest))
    | none => some (.error ⟨.unclosedComment, []⟩)
  | _ => none

-- Spellings of operators, a longer one before each that it begins with, and whether the dialect's
-- operator characters may lengthen it.
def operators : List (String × Bool) :=
  [("->>", true), ("->", true), ("-", true), ("/", false), ("%", true),
   ("||/", true), ("||", true), ("|/", true), ("|", true),
   ("=>", false), ("==", false), ("=", false),
   ("!~~*", false), ("!~~", false), ("!~*", false), ("!~", false), ("!!", false), ("!=", false),
   ("!", false),
   ("<=>", true), ("<=", true), ("<>", true), ("<<", true), ("<@", true), ("<", true),
   (">=", true), (">>", true), (">", true),
   ("::", false), (":=", false), (":", false), ("&&", true), ("&", true), ("^@", false),
   ("^", false), ("~~*", true), ("~~", true), ("~*", true), ("~", true),
   ("#>>", true), ("#>", true), ("#-", true), ("@>", false), ("@?", false)]

def signs : List (String × Bool) := [("#", true), ("@@", false), ("@", false)]

def ofOperator (text : String) : Token :=
  if text = ":" then .colon else if text = "!=" then .operator "<>" else .operator text

def scanOperator (d : Dialect) (spellings : List (String × Bool)) : Scanner := fun cs =>
  (spellings.find? fun s => s.1.toList.isPrefixOf cs).map fun (text, lengthens) =>
    let rest := cs.drop text.toList.length
    let extra := if lengthens then rest.takeWhile d.continuesOperator else []
    if extra.isEmpty then .ok (ofOperator text, rest)
    else .ok (.operator (text ++ String.ofList extra), rest.drop extra.length)

def scanDivision (d : Dialect) : Scanner
  | '/' :: '/' :: cs => if d = .generic then some (.ok (.operator "//", cs)) else none
  | _ => none

def wordFrom (d : Dialect) (first cs : List Char) : Token × List Char :=
  (.word (String.ofList (first ++ cs.takeWhile d.continuesWord)) none,
    cs.dropWhile d.continuesWord)

def scanSignedWord (d : Dialect) : Scanner
  | '@' :: '@' :: c :: cs =>
    if d = .generic ∧ c ≠ ' ' then some (.ok (wordFrom d ['@', '@', c] cs)) else none
  | '@' :: '@' :: [] => none
  | '@' :: c :: cs => if d = .generic ∧ c ≠ ' ' then some (.ok (wordFrom d ['@', c] cs)) else none
  | '#' :: c :: cs => if d = .generic ∧ c ≠ ' ' then some (.ok (wordFrom d ['#', c] cs)) else none
  | _ => none

-- Question marks. To PostgreSQL they are operators, and a single one takes the character behind it
-- along; elsewhere one is a placeholder together with the digits behind it.
def scanQuestion (d : Dialect) : Scanner
  | '?' :: cs =>
    if d = .postgres then
      match cs with
      | '|' :: rest => some (.ok (.operator "?|", rest))
      | '&' :: rest => some (.ok (.operator "?&", rest))
      | rest => some (.ok (.operator "?", rest.tail))
    else
      some (.ok (.placeholder ("?" ++ String.ofList (cs.takeWhile Text.isNumeric)),
        cs.dropWhile Text.isNumeric))
  | _ => none

def scanWord (d : Dialect) : Scanner
  | c :: cs => if d.startsWord c then some (.ok (wordFrom d [c] cs)) else none
  | [] => none

def dollarText? : List Char → Option (List Char × List Char)
  | '$' :: '$' :: cs => some ([], cs)
  | c :: cs => (dollarText? cs).map fun (text, rest) => (c :: text, rest)
  | [] => none

theorem eq_of_dollar_text {cs text rest : List Char} (h : dollarText? cs = some (text, rest)) :
    cs = text ++ '$' :: '$' :: rest := by
  fun_induction dollarText? cs generalizing text rest with
  | case1 => simp_all
  | case2 c cs _ ih =>
    obtain ⟨⟨text', rest'⟩, inner, eq⟩ := Option.map_eq_some_iff.1 h
    simp only [Prod.mk.injEq] at eq
    obtain ⟨rfl, rfl⟩ := eq
    simp [ih inner]
  | case3 => simp at h

-- Compares the tag behind a dollar sign, one character at a time: whether tag and closing dollar
-- sign stand there, and what follows the characters that were taken. A character that differs is
-- taken; a missing closing dollar sign is not. `none` at the end of the text.
def closingTag? : (tag : List Char) → List Char → Option (Bool × List Char)
  | [], '$' :: cs => some (true, cs)
  | [], cs => some (false, cs)
  | _ :: _, [] => none
  | t :: ts, c :: cs => if c = t then closingTag? ts cs else some (false, cs)

theorem closing_tag_suffix {tag cs rest : List Char} {closed : Bool}
    (h : closingTag? tag cs = some (closed, rest)) : rest <:+ cs := by
  fun_induction closingTag? tag cs with
  | case1 | case2 | case5 =>
    cases h
    simp
  | case3 => cases h
  | case4 t ts cs ih => exact (ih h).trans (List.suffix_cons _ _)

theorem eq_of_closing_tag {tag cs rest : List Char}
    (h : closingTag? tag cs = some (true, rest)) : cs = tag ++ '$' :: rest := by
  fun_induction closingTag? tag cs with
  | case1 =>
    cases h
    rfl
  | case2 | case3 | case5 => cases h
  | case4 t ts cs ih => rw [ih h, List.cons_append]

def taggedText? (tag : List Char) (cs : List Char) : Option (List Char × List Char) :=
  match cs with
  | [] => none
  | c :: cs =>
    if c = '$' then
      match _found : closingTag? tag cs with
      | none => none
      | some (true, rest) => some ([], rest)
      | some (false, rest') =>
        (taggedText? tag rest').map fun (text, rest) =>
          ('$' :: cs.take (cs.length - rest'.length) ++ text, rest)
    else (taggedText? tag cs).map fun (text, rest) => (c :: text, rest)
termination_by cs.length
decreasing_by
  · have := (closing_tag_suffix _found).length_le; simp only [List.length_cons]; omega
  · simp

theorem eq_of_tagged_text {tag cs text rest : List Char}
    (h : taggedText? tag cs = some (text, rest)) :
    cs = text ++ '$' :: (tag ++ '$' :: rest) := by
  fun_induction taggedText? tag cs generalizing text rest with
  | case1 => cases h
  | case2 => cases h
  | case3 cs closed closing =>
    cases h
    rw [eq_of_closing_tag closing]
    rfl
  | case4 cs left opened ih =>
    obtain ⟨⟨inside, behind⟩, inner, same⟩ := Option.map_eq_some_iff.1 h
    cases same
    obtain ⟨taken, rfl⟩ := closing_tag_suffix opened
    simp [← ih inner]
  | case5 c cs _ ih =>
    obtain ⟨⟨inside, behind⟩, inner, same⟩ := Option.map_eq_some_iff.1 h
    cases same
    rw [List.cons_append, ← ih inner]

theorem tagged_text_length {tag cs text rest : List Char}
    (h : taggedText? tag cs = some (text, rest)) : rest.length < cs.length := by
  simp only [eq_of_tagged_text h, List.length_append, List.length_cons]; omega

def scanDollar : Scanner
  | '$' :: '$' :: cs =>
    match dollarText? cs with
    | some (text, rest) => some (.ok (.literal (.dollar "") (String.ofList text), rest))
    | none => some (.error ⟨.unclosedDollarText, []⟩)
  | '$' :: cs =>
    let inTag := fun c => Text.isAlphanumeric c || c == '_'
    let tag := cs.takeWhile inTag
    match cs.dropWhile inTag with
    | '$' :: rest =>
      match taggedText? tag rest with
      | some (text, rest) =>
        some (.ok (.literal (.dollar (String.ofList tag)) (String.ofList text), rest))
      | none => some (.error ⟨.unclosedTaggedText, []⟩)
    | rest => some (.ok (.placeholder ("$" ++ String.ofList tag), rest))
  | _ => none

def scanCharacter : Scanner
  | c :: cs =>
    if Text.isBlank c then some (.ok (.blank .space, cs))
    else some (.ok (.operator (String.ofList [c]), cs))
  | [] => none

def scanners (d : Dialect) : List Scanner :=
  [scanSpace, scanBytes d, scanRaw d, scanNational, scanEscaped, scanUnicode d, scanHex, scanString,
   scanQuotedWord d, scanNumber, scanMark, scanComment, scanDivision d, scanOperator d operators,
   scanSignedWord d, scanOperator d signs, scanQuestion d, scanWord d, scanDollar, scanCharacter]

def next (d : Dialect) : Scanner := fun cs => (scanners d).findSome? (· cs)

/-! ### Every scanner takes a character -/

def Scanner.Shortens (scan : Scanner) : Prop :=
  ∀ {cs token rest}, scan cs = some (.ok (token, rest)) → rest.length < cs.length

theorem length_drop_while_le (p : Char → Bool) (cs : List Char) :
    (cs.dropWhile p).length ≤ cs.length :=
  (List.dropWhile_suffix p).length_le

theorem quoted_literal_length {form : LiteralForm} {quote : Char} {start cs rest : List Char}
    {token : Token} (h : quotedLiteral form quote start cs = .ok (token, rest)) :
    rest.length < cs.length := by
  unfold quotedLiteral at h
  split at h
  case h_1 found =>
    simp only [Except.ok.injEq, Prod.mk.injEq] at h
    obtain ⟨-, rfl⟩ := h
    have := congrArg List.length (eq_of_quoted_text found)
    simp at this
    omega
  case h_2 => simp at h

theorem shielded_literal_length {form : LiteralForm} {cs rest : List Char} {token : Token}
    (h : shieldedLiteral form cs = .ok (token, rest)) : rest.length < cs.length := by
  unfold shieldedLiteral at h
  split at h
  case h_1 found =>
    simp only [Except.ok.injEq, Prod.mk.injEq] at h
    obtain ⟨-, rfl⟩ := h
    simp only [eq_of_shielded_text found, List.length_append, List.length_cons]
    omega
  case h_2 => simp at h

theorem scan_space_shortens : Scanner.Shortens scanSpace := by
  intro cs token rest h
  unfold scanSpace at h
  split at h <;>
    simp only [Option.some.injEq, Except.ok.injEq, Prod.mk.injEq, reduceCtorEq] at h
  all_goals
    obtain ⟨-, rfl⟩ := h
    simp only [List.length_cons]; omega

theorem scan_bytes_shortens (d : Dialect) : Scanner.Shortens (scanBytes d) := by
  intro cs token rest h
  unfold scanBytes at h
  split at h <;> simp only [Option.ite_none_right_eq_some, Option.some.injEq, reduceCtorEq] at h
  have := quoted_literal_length h.2
  simp only [List.length_cons]; omega

theorem raw_literal_length {quote : Char} {cs rest : List Char} {token : Token}
    (h : rawLiteral quote cs = .ok (token, rest)) : rest.length ≤ cs.length := by
  unfold rawLiteral at h
  split at h
  · split at h
    case h_1 found =>
      simp only [Except.ok.injEq, Prod.mk.injEq] at h
      obtain ⟨-, rfl⟩ := h
      have := congrArg List.length (eq_of_triple_quoted_text found)
      simp only [List.length_drop, List.length_append, List.length_cons] at this
      omega
    case h_2 => simp at h
  · split at h
    · simp only [Except.ok.injEq, Prod.mk.injEq] at h
      obtain ⟨-, rfl⟩ := h
      simp
    · exact Nat.le_of_lt (quoted_literal_length h)

theorem scan_raw_shortens (d : Dialect) : Scanner.Shortens (scanRaw d) := by
  intro cs token rest h
  unfold scanRaw at h
  split at h <;> simp only [Option.ite_none_right_eq_some, Option.some.injEq, reduceCtorEq] at h
  have := raw_literal_length h.2
  simp only [List.length_cons]; omega

theorem scan_national_shortens : Scanner.Shortens scanNational := by
  intro cs token rest h
  unfold scanNational at h
  split at h <;> simp only [Option.ite_none_right_eq_some, Option.some.injEq, reduceCtorEq] at h
  have := shielded_literal_length h.2
  simp only [List.length_cons]; omega

theorem scan_escaped_shortens : Scanner.Shortens scanEscaped := by
  intro cs token rest h
  unfold scanEscaped at h
  split at h <;> try simp at h
  split at h
  case h_1 found =>
    simp only [Option.some.injEq, Except.ok.injEq, Prod.mk.injEq] at h
    obtain ⟨-, -, rfl⟩ := h
    have := escaped_text_length found
    simp only [List.length_cons]; omega
  case h_2 => simp at h

theorem scan_unicode_shortens (d : Dialect) : Scanner.Shortens (scanUnicode d) := by
  intro cs token rest h
  unfold scanUnicode at h
  split at h <;> simp only [Option.ite_none_right_eq_some, Option.some.injEq, reduceCtorEq] at h
  obtain ⟨⟨text, rest'⟩, found, eq⟩ := map_eq_ok h.2
  simp only [Prod.mk.injEq] at eq
  obtain ⟨-, rfl⟩ := eq
  have := unicode_text_length found
  simp only [List.length_cons]; omega

theorem scan_hex_shortens : Scanner.Shortens scanHex := by
  intro cs token rest h
  unfold scanHex at h
  split at h <;> simp only [Option.ite_none_right_eq_some, Option.some.injEq, reduceCtorEq] at h
  have := shielded_literal_length h.2
  simp only [List.length_cons]; omega

theorem scan_string_shortens : Scanner.Shortens scanString := by
  intro cs token rest h
  unfold scanString at h
  split at h <;> simp only [Option.some.injEq, reduceCtorEq] at h
  have := quoted_literal_length h
  simp only [List.length_cons]; omega

theorem scan_quoted_word_shortens (d : Dialect) : Scanner.Shortens (scanQuotedWord d) := by
  intro cs token rest h
  unfold scanQuotedWord at h
  split at h
  case h_1 c cs =>
    obtain ⟨quote, -, h⟩ := Option.map_eq_some_iff.1 h
    split at h
    case h_1 found =>
      simp only [Except.ok.injEq, Prod.mk.injEq] at h
      obtain ⟨-, rfl⟩ := h
      have := congrArg List.length (eq_of_quoted_text found)
      simp only [List.length_append, List.length_cons] at this ⊢
      omega
    case h_2 => simp at h
  case h_2 => simp at h

theorem number_from_length (digits cs : List Char) :
    (numberFrom digits cs).2.length ≤ cs.length := by
  unfold numberFrom
  split
  · exact Nat.le_refl _
  · have dropped : (cs.drop (exponent cs).length).length ≤ cs.length := by simp
    dsimp only
    split
    case h_1 left =>
      rw [left] at dropped
      exact Nat.le_of_succ_le dropped
    case h_2 => exact dropped

theorem scan_number_shortens : Scanner.Shortens scanNumber := by
  intro cs token rest h
  unfold scanNumber at h
  split at h
  case h_2 => simp at h
  case h_1 c cs =>
    simp only [Option.ite_none_right_eq_some] at h
    obtain ⟨start, h⟩ := h
    split at h
    case isTrue hex =>
      simp only [hex.1, Option.some.injEq, Except.ok.injEq, Prod.mk.injEq] at h
      obtain ⟨-, rfl⟩ := h
      refine Nat.lt_of_le_of_lt (length_drop_while_le _ _) ?_
      simp only [List.length_cons, List.length_nil, List.length_tail, List.length_drop]; omega
    case isFalse =>
      simp only [Option.some.injEq, Except.ok.injEq] at h
      have eq := congrArg (fun r => r.2.length) h
      dsimp only at eq
      rw [← eq]
      refine Nat.lt_of_le_of_lt (number_from_length _ _) ?_
      by_cases digit : c.isDigit
      · simp only [List.takeWhile_cons, digit, if_true, List.length_drop, List.length_cons]; omega
      · simp only [digit, Bool.false_or, beq_iff_eq] at start
        subst start
        have plain : Char.isDigit '.' = false := rfl
        simp only [List.takeWhile_cons, plain, Bool.false_eq_true, if_false, List.length_nil,
          List.drop_zero, fraction, List.length_cons, List.drop_succ_cons, List.length_drop]
        omega

theorem scan_mark_shortens : Scanner.Shortens scanMark := by
  intro cs token rest h
  unfold scanMark at h
  split at h <;>
    simp only [Option.ite_none_right_eq_some, Option.some.injEq, Except.ok.injEq, Prod.mk.injEq,
      reduceCtorEq] at h
  case h_6 =>
    obtain ⟨-, -, rfl⟩ := h
    simp
  all_goals
    obtain ⟨-, rfl⟩ := h
    simp

theorem scan_comment_shortens : Scanner.Shortens scanComment := by
  intro cs token rest h
  unfold scanComment at h
  split at h
  case h_1 =>
    simp only [Option.some.injEq, Except.ok.injEq, Prod.mk.injEq] at h
    obtain ⟨-, rfl⟩ := h
    simp only [List.length_cons, List.length_drop]; omega
  case h_2 =>
    split at h
    case h_1 found =>
      simp only [Option.some.injEq, Except.ok.injEq, Prod.mk.injEq] at h
      obtain ⟨-, rfl⟩ := h
      simp only [eq_of_block_comment found, List.length_cons, List.length_append]; omega
    case h_2 => simp at h
  case h_3 => simp at h

theorem scan_operator_shortens (d : Dialect) {spellings : List (String × Bool)}
    (nonempty : ∀ s ∈ spellings, s.1.toList ≠ []) :
    Scanner.Shortens (scanOperator d spellings) := by
  intro cs token rest h
  obtain ⟨⟨text, lengthens⟩, found, h⟩ := Option.map_eq_some_iff.1 h
  have positive := List.length_pos_iff.2 (nonempty _ (List.mem_of_find?_eq_some found))
  have fits : text.toList.isPrefixOf cs :=
    List.find?_some (p := fun s : String × Bool => s.1.toList.isPrefixOf cs) found
  have starts := (List.isPrefixOf_iff_prefix.1 fits).length_le
  dsimp only at h positive
  split at h <;> split at h <;> simp only [Except.ok.injEq, Prod.mk.injEq] at h
  all_goals
    obtain ⟨-, rfl⟩ := h
    simp only [List.length_drop]; omega

theorem scan_division_shortens (d : Dialect) : Scanner.Shortens (scanDivision d) := by
  intro cs token rest h
  unfold scanDivision at h
  split at h <;>
    simp only [Option.ite_none_right_eq_some, Option.some.injEq, Except.ok.injEq, Prod.mk.injEq,
      reduceCtorEq] at h
  obtain ⟨-, -, rfl⟩ := h
  simp only [List.length_cons]; omega

theorem word_from_length (d : Dialect) (first cs : List Char) :
    (wordFrom d first cs).2.length ≤ cs.length :=
  length_drop_while_le _ _

theorem scan_signed_word_shortens (d : Dialect) : Scanner.Shortens (scanSignedWord d) := by
  intro cs token rest h
  unfold scanSignedWord at h
  split at h <;>
    simp only [Option.ite_none_right_eq_some, Option.some.injEq, Except.ok.injEq,
      reduceCtorEq] at h
  all_goals
    have := congrArg (fun r => r.2.length) h.2
    have := word_from_length d
    grind

theorem scan_question_shortens (d : Dialect) : Scanner.Shortens (scanQuestion d) := by
  intro cs token rest h
  unfold scanQuestion at h
  repeat' split at h
  all_goals simp only [Option.some.injEq, Except.ok.injEq, Prod.mk.injEq, reduceCtorEq] at h
  all_goals obtain ⟨-, rfl⟩ := h
  all_goals have := length_drop_while_le Text.isNumeric
  all_goals grind

theorem scan_word_shortens (d : Dialect) : Scanner.Shortens (scanWord d) := by
  intro cs token rest h
  unfold scanWord at h
  split at h <;>
    simp only [Option.ite_none_right_eq_some, Option.some.injEq, Except.ok.injEq, reduceCtorEq] at h
  have := congrArg (fun r => r.2.length) h.2
  have := word_from_length d
  grind

theorem scan_dollar_shortens : Scanner.Shortens scanDollar := by
  intro cs token rest h
  unfold scanDollar at h
  split at h
  case h_1 =>
    split at h
    case h_1 found =>
      simp only [Option.some.injEq, Except.ok.injEq, Prod.mk.injEq] at h
      obtain ⟨-, rfl⟩ := h
      simp only [eq_of_dollar_text found, List.length_cons, List.length_append]; omega
    case h_2 => simp at h
  case h_2 cs _ =>
    have short := length_drop_while_le (fun c => Text.isAlphanumeric c || c == '_') cs
    dsimp only at h
    split at h
    case h_1 left =>
      split at h
      case h_1 found =>
        simp only [Option.some.injEq, Except.ok.injEq, Prod.mk.injEq] at h
        obtain ⟨-, rfl⟩ := h
        have := tagged_text_length found
        simp only [left, List.length_cons] at short ⊢; omega
      case h_2 => simp at h
    case h_2 =>
      simp only [Option.some.injEq, Except.ok.injEq, Prod.mk.injEq] at h
      obtain ⟨-, rfl⟩ := h
      simp only [List.length_cons]; omega
  case h_3 => simp at h

theorem scan_character_shortens : Scanner.Shortens scanCharacter := by
  intro cs token rest h
  unfold scanCharacter at h
  repeat' split at h
  all_goals simp only [Option.some.injEq, Except.ok.injEq, Prod.mk.injEq, reduceCtorEq] at h
  all_goals
    obtain ⟨-, rfl⟩ := h
    simp

theorem scanners_shorten {d : Dialect} {scan : Scanner} (h : scan ∈ scanners d) :
    scan.Shortens := by
  simp only [scanners, List.mem_cons, List.not_mem_nil, or_false] at h
  rcases h with rfl | rfl | rfl | rfl | rfl | rfl | rfl | rfl | rfl | rfl | rfl | rfl | rfl | rfl |
    rfl | rfl | rfl | rfl | rfl | rfl
  · exact scan_space_shortens
  · exact scan_bytes_shortens d
  · exact scan_raw_shortens d
  · exact scan_national_shortens
  · exact scan_escaped_shortens
  · exact scan_unicode_shortens d
  · exact scan_hex_shortens
  · exact scan_string_shortens
  · exact scan_quoted_word_shortens d
  · exact scan_number_shortens
  · exact scan_mark_shortens
  · exact scan_comment_shortens
  · exact scan_division_shortens d
  · exact scan_operator_shortens d (by decide)
  · exact scan_signed_word_shortens d
  · exact scan_operator_shortens d (by decide)
  · exact scan_question_shortens d
  · exact scan_word_shortens d
  · exact scan_dollar_shortens
  · exact scan_character_shortens

theorem next_shortens (d : Dialect) : (next d).Shortens := by
  intro cs token rest h
  obtain ⟨scan, found, h⟩ := List.exists_of_findSome?_eq_some h
  exact scanners_shorten found h

/-! ### The whole text -/

def tokens (d : Dialect) (cs : List Char) : Except Fault (List Token) :=
  match _found : next d cs with
  | none => .ok []
  | some (.error fault) => .error fault
  | some (.ok (token, rest)) => (tokens d rest).map (token :: ·)
termination_by cs.length
decreasing_by exact next_shortens d _found

theorem tokens_end {d : Dialect} {cs : List Char} (ends : next d cs = none) :
    tokens d cs = .ok [] := by
  rw [tokens]
  split
  · rfl
  · next fault found => simp [ends] at found
  · next t rest found => simp [ends] at found

theorem tokens_fault {d : Dialect} {cs : List Char} {fault : Fault}
    (fails : next d cs = some (.error fault)) : tokens d cs = .error fault := by
  rw [tokens]
  split
  · next found => simp [fails] at found
  · next other found =>
    rw [fails] at found
    cases found
    rfl
  · next t rest found => simp [fails] at found

theorem tokens_next {d : Dialect} {cs rest : List Char} {t : Token}
    (reads : next d cs = some (.ok (t, rest))) : tokens d cs = (tokens d rest).map (t :: ·) := by
  rw [tokens]
  split
  · next found => simp [reads] at found
  · next fault found => simp [reads] at found
  · next u others found =>
    rw [reads] at found
    cases found
    rfl

def ofText (d : Dialect) (text : String) : Except String (List Token) :=
  match tokens d text.toList with
  | .ok ts => .ok ts
  | .error fault => .error (fault.message text.toList)

end Token
end SqlCatalog
