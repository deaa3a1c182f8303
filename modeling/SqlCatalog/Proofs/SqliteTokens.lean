import Mathlib.Data.List.Chain
import SqlCatalog.Proofs.MarkerRegions
import SqlCatalog.Proofs.StatementTokens
/-!
The tokens that SQLite's dialect reads: what their spellings are made of, and what can stand next to
them (`tokens_read`).
-/
namespace SqlCatalog

namespace Marker

def OpensComment (c d : Char) : Prop := c = '-' ∧ d = '-' ∨ c = '/' ∧ d = '*'

-- Two characters that mean more to a scan for markers than each of them alone.
def Opens (c d : Char) : Prop := OpensComment c d ∨ c = ':' ∧ (d = ':' ∨ startsName d = true)

instance (c d : Char) : Decidable (OpensComment c d) := inferInstanceAs (Decidable (_ ∨ _))

instance (c d : Char) : Decidable (Opens c d) := inferInstanceAs (Decidable (_ ∨ _))

structure Inert (cs : List Char) : Prop where
  unquoted : ∀ c ∈ cs, c ≠ '\'' ∧ c ≠ '"'
  unopened : cs.IsChain fun c d => ¬ Opens c d

instance (cs : List Char) : Decidable (Inert cs) :=
  decidable_of_iff
    (cs.all (fun c => c != '\'' && c != '"') = true ∧ cs.IsChain fun c d => ¬ Opens c d)
    ⟨fun both => ⟨by simpa using both.1, both.2⟩, fun inert => ⟨by simpa using inert.1, inert.2⟩⟩

def harmful : List Char := ['\'', '"', '-', '/', '*', ':']

def isHarmless (c : Char) : Bool := !harmful.contains c

theorem harmless_of_class {p : Char → Bool} (excludes : harmful.all (fun c => !p c) = true)
    {c : Char} (inside : p c = true) : isHarmless c = true := by
  by_cases listed : c ∈ harmful
  · have outside := List.all_eq_true.mp excludes c listed
    simp [inside] at outside
  · simpa [isHarmless] using listed

theorem not_opens_left {c : Char} (harmless : isHarmless c = true) (d : Char) : ¬ Opens c d := by
  rintro ((⟨rfl, -⟩ | ⟨rfl, -⟩) | ⟨rfl, -⟩) <;> cases harmless

theorem not_opens_right {d : Char} (harmless : isHarmless d = true) (nameless : startsName d = false)
    (c : Char) : ¬ Opens c d := by
  rintro ((⟨-, rfl⟩ | ⟨-, rfl⟩) | ⟨-, rfl | starts⟩)
  · cases harmless
  · cases harmless
  · cases harmless
  · simp [nameless] at starts

theorem inert_of_harmless {cs : List Char} (harmless : ∀ c ∈ cs, isHarmless c = true) : Inert cs := by
  constructor
  · intro c mem
    have safe := harmless c mem
    constructor <;> rintro rfl <;> cases safe
  · induction cs with
    | nil => exact .nil
    | cons c cs ih =>
      refine List.isChain_cons.mpr ⟨fun d _ => ?_, ih fun d mem => harmless d (.tail c mem)⟩
      exact not_opens_left (harmless c (.head cs)) d

theorem inert_append {a b : List Char} (left : Inert a) (right : Inert b)
    (border : ∀ c ∈ a.getLast?, ∀ d ∈ b.head?, ¬ Opens c d) : Inert (a ++ b) := by
  refine ⟨fun c mem => ?_, List.isChain_append.mpr ⟨left.unopened, right.unopened, border⟩⟩
  rcases List.mem_append.mp mem with first | second
  · exact left.unquoted c first
  · exact right.unquoted c second

structure Quiet (cs : List Char) : Prop where
  nonempty : cs ≠ []
  inert : Inert cs
  nameless : ∀ c ∈ cs.head?, startsName c = false
  uncoloned : cs.getLast? ≠ some ':'

instance (cs : List Char) : Decidable (Quiet cs) :=
  decidable_of_iff
    (cs ≠ [] ∧ Inert cs ∧ cs.head?.all (fun c => !startsName c) = true ∧ cs.getLast? ≠ some ':')
    ⟨fun all => ⟨all.1, all.2.1, by simpa [Option.all_eq_true] using all.2.2.1, all.2.2.2⟩,
      fun quiet => ⟨quiet.1, quiet.2, by simpa [Option.all_eq_true] using quiet.3, quiet.4⟩⟩

end Marker

namespace Token

open Marker

abbrev continues (c : Char) : Bool := Dialect.sqlite.continuesWord c

def Formed : Token → Prop
  | blank _ | leftParen | rightParen | comma | semicolon | colon | period | star => True
  | word text none => text.toList ≠ [] ∧ ∀ c ∈ text.toList, continues c = true
  | word text (some .double) => QuotedText '"' (text.toList ++ ['"'])
  | word _ (some _) => True
  | literal .plain text => QuotedText '\'' (text.toList ++ ['\''])
  | literal .national _ | literal .escaped _ | literal .hex _ => True
  | literal _ _ => False
  | operator text => text = "::" ∨ Quiet text.toList
  | number digits long => Quiet (number digits long).spelling.toList
  | placeholder text => Quiet text.toList
  | endMark => False

-- A token may be spelled with other characters than it is read from, but no name and no colon comes
-- up at its beginning.
def Fronts (c : Char) (t : Token) : Prop :=
  ∀ x ∈ t.spelling.toList.head?, (x = ':' → c = ':') ∧ (continuesName x = true → continues c = true)

def Ends (t : Token) (rest : List Char) : Prop :=
  (t = .colon → rest.head? ≠ some ':') ∧
    ((∃ text, t = .word text none) → ∀ c ∈ rest.head?, continues c = false)

structure Read (cs : List Char) (t : Token) (rest : List Char) : Prop where
  formed : Formed t
  front : ∀ c ∈ cs.head?, Fronts c t
  behind : Ends t rest

theorem name_continues {c : Char} (name : continuesName c = true) : continues c = true := by
  simp only [continuesName, Char.isAlphanum, Bool.or_eq_true] at name
  simp only [continues, Dialect.continuesWord, Dialect.startsWord, Bool.or_eq_true]
  rcases name with (letter | digit) | underscore
  · exact .inl (.inl (.inl (.inl letter)))
  · exact .inr digit
  · exact .inl (.inl (.inl (.inr underscore)))

theorem front_same {c : Char} {t : Token} (same : t.spelling.toList.head? = some c) : Fronts c t := by
  intro x head
  obtain rfl := Option.some.inj (same.symm.trans head)
  exact ⟨id, name_continues⟩

theorem front_other {c x : Char} {t : Token} (other : t.spelling.toList.head? = some x)
    (outside : continuesName x = false) (uncoloned : x ≠ ':') : Fronts c t := by
  intro y head
  obtain rfl := Option.some.inj (other.symm.trans head)
  exact ⟨fun colon => absurd colon uncoloned, fun name => by simp [outside] at name⟩

theorem front_letter {c x : Char} {t : Token} (other : t.spelling.toList.head? = some x)
    (inside : continues c = true) (uncoloned : x ≠ ':') : Fronts c t := by
  intro y head
  obtain rfl := Option.some.inj (other.symm.trans head)
  exact ⟨fun colon => absurd colon uncoloned, fun _ => inside⟩

theorem ends_other {t : Token} (inner : t ≠ .colon) (quoted : ∀ text, t ≠ .word text none)
    (rest : List Char) : Ends t rest :=
  ⟨fun colon => absurd colon inner, fun ⟨text, bare⟩ => absurd bare (quoted text)⟩

theorem closed_read {c : Char} {after rest : List Char} {t : Token} (formed : Formed t)
    (front : Fronts c t) (inner : t ≠ .colon) (quoted : ∀ text, t ≠ .word text none) :
    Read (c :: after) t rest := by
  refine ⟨formed, fun d head => ?_, ends_other inner quoted rest⟩
  cases head
  exact front

def Scanner.Reads (scan : Scanner) : Prop :=
  ∀ {cs : List Char} {t : Token} {rest : List Char}, scan cs = some (.ok (t, rest)) → Read cs t rest

theorem blank_front (c : Char) (b : Blank) : Fronts c (.blank b) := by
  cases b with
  | space => exact front_other (x := ' ') rfl rfl (by decide)
  | newline => exact front_other (x := '\n') rfl rfl (by decide)
  | tab => exact front_other (x := '\t') rfl rfl (by decide)
  | lineComment text =>
    refine front_other (x := '-') ?_ rfl (by decide)
    simp [spelling, Blank.spelling]
  | blockComment text =>
    refine front_other (x := '/') ?_ rfl (by decide)
    simp [spelling, Blank.spelling]

theorem blank_read {cs rest : List Char} (b : Blank) : Read cs (.blank b) rest :=
  ⟨trivial, fun c _ => blank_front c b, ends_other (by simp) (by simp) rest⟩

theorem scan_space_read : Scanner.Reads scanSpace := by
  intro cs t rest reads
  unfold scanSpace at reads
  split at reads <;> cases reads <;> exact blank_read _

theorem quoted_text_read {quote : Char} {cs text rest : List Char}
    (found : quotedText? quote cs = some (text, rest)) : QuotedText quote (text ++ [quote]) := by
  fun_induction quotedText? quote cs generalizing text rest with
  | case1 => cases found
  | case2 =>
    cases found
    exact .close
  | case3 ds ih =>
    obtain ⟨⟨inside, behind⟩, inner, same⟩ := Option.map_eq_some_iff.1 found
    cases same
    exact .doubled (ih inner)
  | case4 =>
    cases found
    exact .close
  | case5 c cs different ih =>
    obtain ⟨⟨inside, behind⟩, inner, same⟩ := Option.map_eq_some_iff.1 found
    cases same
    exact .other different (ih inner)

theorem scan_string_read : Scanner.Reads scanString := by
  intro cs t rest reads
  unfold scanString at reads
  split at reads
  case h_2 => cases reads
  case h_1 cs =>
    unfold quotedLiteral at reads
    cases found : quotedText? '\'' cs with
    | none => simp [found] at reads
    | some read =>
      simp only [found, Option.some.injEq, Except.ok.injEq, Prod.mk.injEq] at reads
      obtain ⟨rfl, rfl⟩ := reads
      refine closed_read ?_ (front_same ?_) (by simp) (by simp)
      · simpa [Formed] using quoted_text_read found
      · simp [spelling, LiteralForm.opening]

theorem shielded_read {form : LiteralForm} {first : Char} {cs after rest : List Char} {t : Token}
    (reads : shieldedLiteral form cs = .ok (t, rest)) (formed : ∀ text, Formed (.literal form text))
    (front : ∀ text, Fronts first (.literal form text)) : Read (first :: after) t rest := by
  unfold shieldedLiteral at reads
  cases found : shieldedText? '\'' cs with
  | none => simp [found] at reads
  | some read =>
    simp only [found, Except.ok.injEq, Prod.mk.injEq] at reads
    obtain ⟨rfl, rfl⟩ := reads
    exact closed_read (formed _) (front _) (by simp) (by simp)

theorem front_lettered {form : LiteralForm} {c x : Char} (text : String)
    (opens : form.opening.toList.head? = some x) (inside : continues c = true)
    (uncoloned : x ≠ ':') : Fronts c (.literal form text) := by
  refine front_letter (x := x) ?_ inside uncoloned
  simp [spelling, List.head?_append, opens]

theorem scan_national_read : Scanner.Reads scanNational := by
  intro cs t rest reads
  unfold scanNational at reads
  split at reads
  case h_2 => cases reads
  case h_1 n cs =>
    simp only [Option.ite_none_right_eq_some, Option.some.injEq] at reads
    refine shielded_read reads.2 (fun text => trivial) (fun text => ?_)
    exact front_lettered (x := 'N') text rfl (by rcases reads.1 with rfl | rfl <;> rfl) (by decide)

theorem scan_hex_read : Scanner.Reads scanHex := by
  intro cs t rest reads
  unfold scanHex at reads
  split at reads
  case h_2 => cases reads
  case h_1 x cs =>
    simp only [Option.ite_none_right_eq_some, Option.some.injEq] at reads
    refine shielded_read reads.2 (fun text => trivial) (fun text => ?_)
    exact front_lettered (x := 'X') text rfl (by rcases reads.1 with rfl | rfl <;> rfl) (by decide)

theorem scan_escaped_read : Scanner.Reads scanEscaped := by
  intro cs t rest reads
  unfold scanEscaped at reads
  split at reads
  case h_2 => cases reads
  case h_1 e cs =>
    simp only [Option.ite_none_right_eq_some] at reads
    obtain ⟨letter, reads⟩ := reads
    cases found : escapedText? cs with
    | none => simp [found] at reads
    | some read =>
      simp only [found, Option.some.injEq, Except.ok.injEq, Prod.mk.injEq] at reads
      obtain ⟨rfl, rfl⟩ := reads
      refine closed_read trivial ?_ (by simp) (by simp)
      exact front_lettered (x := 'E') _ rfl (by rcases letter with rfl | rfl <;> rfl) (by decide)

theorem scan_quoted_word_read : Scanner.Reads (scanQuotedWord .sqlite) := by
  intro cs t rest reads
  unfold scanQuotedWord at reads
  split at reads
  case h_2 => cases reads
  case h_1 c cs =>
    obtain ⟨quote, opens, reads⟩ := Option.map_eq_some_iff.1 reads
    have first := Dialect.eq_of_opening_quote opens
    cases found : quotedText? quote.closing cs with
    | none => simp [found] at reads
    | some read =>
      simp only [found, Except.ok.injEq, Prod.mk.injEq] at reads
      obtain ⟨rfl, rfl⟩ := reads
      refine closed_read ?_ (front_same (by simp [spelling, first])) (by simp) (by simp)
      cases quote with
      | double =>
        rw [Formed, String.toList_ofList]
        exact quoted_text_read found
      | backtick => trivial
      | bracket => trivial

theorem scan_comment_read : Scanner.Reads scanComment := by
  intro cs t rest reads
  unfold scanComment at reads
  split at reads
  case h_1 =>
    cases reads
    exact blank_read _
  case h_2 =>
    split at reads <;> cases reads
    exact blank_read _
  case h_3 => cases reads

theorem mark_read {c : Char} {after rest : List Char} {t : Token} (formed : Formed t)
    (same : t.spelling.toList.head? = some c) (inner : t ≠ .colon)
    (quoted : ∀ text, t ≠ .word text none) : Read (c :: after) t rest :=
  closed_read formed (front_same same) inner quoted

theorem scan_mark_read : Scanner.Reads scanMark := by
  intro cs t rest reads
  unfold scanMark at reads
  split at reads
  case h_6 c cs _ _ _ _ _ =>
    simp only [Option.ite_none_right_eq_some, Option.some.injEq, Except.ok.injEq,
      Prod.mk.injEq] at reads
    obtain ⟨listed, rfl, rfl⟩ := reads
    refine mark_read (.inr ?_) (by simp [spelling]) (by simp) (by simp)
    simp only [List.contains_eq_mem, List.mem_cons, List.not_mem_nil, or_false,
      decide_eq_true_eq] at listed
    rcases listed with rfl | rfl | rfl | rfl | rfl | rfl <;> decide
  case h_7 => cases reads
  all_goals
    cases reads
    exact mark_read trivial rfl (by simp) (by simp)

theorem digit_harmless {c : Char} (digit : c.isDigit = true) : isHarmless c = true :=
  harmless_of_class rfl digit

theorem digit_nameless {c : Char} (digit : c.isDigit = true) : startsName c = false := by
  refine Bool.eq_false_iff.mpr fun starts => ?_
  simp only [startsName, Bool.or_eq_true, beq_iff_eq] at starts
  rcases starts with letter | rfl
  · simp only [Char.isAlpha, Char.isUpper, Char.isLower, Char.isDigit, Bool.or_eq_true,
      Bool.and_eq_true, decide_eq_true_eq, UInt32.le_iff_toNat_le, ge_iff_le] at letter digit
    have nine : '9'.val.toNat = 57 := rfl
    have upper : 'A'.val.toNat = 65 := rfl
    have lower : 'a'.val.toNat = 97 := rfl
    omega
  · cases digit

theorem exponent_cases (cs : List Char) :
    exponent cs = [] ∨ ∃ e sign digits, exponent cs = e :: (sign ++ digits) ∧ (e = 'e' ∨ e = 'E') ∧
      (sign = [] ∨ sign = ['+'] ∨ sign = ['-']) ∧ digits ≠ [] ∧ ∀ c ∈ digits, c.isDigit = true := by
  cases cs with
  | nil => exact .inl rfl
  | cons e rest =>
    unfold exponent
    by_cases marked : e = 'e' ∨ e = 'E'
    · simp only [if_pos marked]
      split
      · exact .inl rfl
      · next some =>
        refine .inr ⟨e, _, _, rfl, marked, ?_, by simpa using some, ?_⟩
        case refine_2 => exact List.all_eq_true.1 List.all_takeWhile
        cases rest with
        | nil => exact .inl rfl
        | cons c rest =>
          by_cases plus : c = '+'
          · exact .inr (.inl (by simp [plus]))
          · by_cases minus : c = '-'
            · exact .inr (.inr (by simp [minus]))
            · exact .inl (by simp [plus, minus])
    · exact .inl (by simp [marked])

theorem exponent_inert (cs : List Char) :
    Inert (exponent cs) ∧ ∀ c ∈ (exponent cs).getLast?, isHarmless c = true := by
  rcases exponent_cases cs with none | ⟨e, sign, digits, split, letter, signed, some, digit⟩
  · rw [none]
    exact ⟨inert_of_harmless (by simp), by simp⟩
  · have numeric : Inert digits := inert_of_harmless fun c mem => digit_harmless (digit c mem)
    have begun : Inert (e :: sign) := by
      rcases letter with rfl | rfl <;> rcases signed with rfl | rfl | rfl <;> decide
    rw [split, ← List.cons_append]
    refine ⟨inert_append begun numeric fun c _ d head => ?_, fun c last => ?_⟩
    · have first := digit d (List.mem_of_mem_head? head)
      exact not_opens_right (digit_harmless first) (digit_nameless first) c
    · rw [List.getLast?_append_of_ne_nil _ some] at last
      exact digit_harmless (digit c (List.mem_of_getLast? last))

def isNumeral (c : Char) : Bool := c.isDigit || c == '.'

theorem numeral_harmless {c : Char} (numeral : isNumeral c = true) : isHarmless c = true := by
  simp only [isNumeral, Bool.or_eq_true, beq_iff_eq] at numeral
  rcases numeral with digit | rfl
  · exact digit_harmless digit
  · rfl

theorem numeral_nameless {c : Char} (numeral : isNumeral c = true) : startsName c = false := by
  simp only [isNumeral, Bool.or_eq_true, beq_iff_eq] at numeral
  rcases numeral with digit | rfl
  · exact digit_nameless digit
  · rfl

theorem number_inert {digits : List Char} (numerals : ∀ c ∈ digits, isNumeral c = true)
    (cs : List Char) :
    Inert (digits ++ exponent cs) ∧
      ∀ c ∈ (digits ++ exponent cs).getLast?, isHarmless c = true := by
  obtain ⟨power, ends⟩ := exponent_inert cs
  have whole : Inert digits := inert_of_harmless fun c mem => numeral_harmless (numerals c mem)
  constructor
  · refine inert_append whole power fun c last d _ => not_opens_left ?_ d
    exact numeral_harmless (numerals c (List.mem_of_getLast? last))
  · intro c last
    by_cases none : exponent cs = []
    · rw [none, List.append_nil] at last
      exact numeral_harmless (numerals c (List.mem_of_getLast? last))
    · rw [List.getLast?_append_of_ne_nil _ none] at last
      exact ends c last

theorem number_quiet {digits : List Char} (numerals : ∀ c ∈ digits, isNumeral c = true)
    (some : digits ≠ []) (cs : List Char) (long : Bool) :
    Quiet (number (String.ofList (digits ++ exponent cs)) long).spelling.toList := by
  obtain ⟨inert, ends⟩ := number_inert numerals cs
  have nameless (after : List Char) : ∀ c ∈ (digits ++ after).head?, startsName c = false := by
    intro c head
    rw [List.head?_append_of_ne_nil _ some] at head
    exact numeral_nameless (numerals c (List.mem_of_mem_head? head))
  cases long with
  | false =>
    simp only [spelling, Bool.false_eq_true, if_false, String.toList_ofList]
    refine ⟨List.append_ne_nil_of_left_ne_nil some _, inert, nameless _, fun last => ?_⟩
    cases ends ':' last
  | true =>
    simp only [spelling, if_true, String.toList_append, String.toList_ofList]
    refine ⟨by simp, inert_append inert (by decide) fun c last d _ => ?_, ?_, ?_⟩
    · exact not_opens_left (ends c last) d
    · rw [List.append_assoc]
      exact nameless _
    · rw [List.getLast?_append_of_ne_nil _ (by decide)]
      decide

theorem number_from_read {digits cs after rest : List Char} {c : Char} {t : Token}
    (numerals : ∀ d ∈ digits, isNumeral d = true) (first : digits.head? = some c)
    (reads : numberFrom digits cs = (t, rest)) : Read (c :: after) t rest := by
  have some : digits ≠ [] := by
    rintro rfl
    cases first
  have front (long : Bool) :
      (number (String.ofList (digits ++ exponent cs)) long).spelling.toList.head? = .some c := by
    cases long <;> simp [spelling, List.head?_append, first]
  unfold numberFrom at reads
  by_cases point : digits = ['.']
  · subst point
    cases first
    cases reads
    exact mark_read trivial rfl (by simp) (by simp)
  · simp only [if_neg point] at reads
    split at reads <;> cases reads
    · exact mark_read (number_quiet numerals some cs true) (front true) (by simp) (by simp)
    · exact mark_read (number_quiet numerals some cs false) (front false) (by simp) (by simp)

theorem run_numeral {cs : List Char} : ∀ c ∈ cs.takeWhile Char.isDigit, isNumeral c = true := by
  intro c mem
  rw [isNumeral, List.all_eq_true.1 List.all_takeWhile c mem, Bool.true_or]

theorem digits_numeral (cs rest : List Char) :
    ∀ c ∈ cs.takeWhile Char.isDigit ++ fraction rest, isNumeral c = true := by
  intro c mem
  rcases List.mem_append.mp mem with whole | part
  · exact run_numeral c whole
  · unfold fraction at part
    split at part
    · rcases List.mem_cons.mp part with rfl | digits
      · rfl
      · exact run_numeral c digits
    · cases part

theorem digits_first {c : Char} {cs : List Char} (starts : (c.isDigit || c == '.') = true) :
    ((c :: cs).takeWhile Char.isDigit ++
      fraction ((c :: cs).drop ((c :: cs).takeWhile Char.isDigit).length)).head? = some c := by
  by_cases digit : c.isDigit = true
  · simp [digit]
  · obtain rfl : c = '.' := by simpa [digit] using starts
    simp [digit, fraction]

theorem scan_number_read : Scanner.Reads scanNumber := by
  intro cs t rest reads
  unfold scanNumber at reads
  split at reads
  case h_2 => cases reads
  case h_1 c cs =>
    simp only [Option.ite_none_right_eq_some] at reads
    obtain ⟨starts, reads⟩ := reads
    split at reads
    case isTrue hex =>
      simp only [Option.some.injEq, Except.ok.injEq, Prod.mk.injEq] at reads
      obtain ⟨rfl, -⟩ := reads
      have zero : c = '0' := by
        have whole := hex.1
        rw [List.takeWhile_cons] at whole
        split at whole
        · exact (List.cons.inj whole).1
        · cases whole
      refine closed_read trivial ?_ (by simp) (by simp)
      exact front_lettered (x := 'X') _ rfl (by rw [zero]; rfl) (by decide)
    case isFalse =>
      simp only [Option.some.injEq, Except.ok.injEq] at reads
      exact number_from_read (digits_numeral _ _) (digits_first starts) reads

theorem operator_spellings : ∀ spelled ∈ operators ++ signs, spelled.1.toList ≠ [] ∧
    (spelled.1 = ":" ∨ spelled.1 = "!=" ∨ spelled.1 = "::" ∨ Quiet spelled.1.toList) := by
  decide

theorem double_colon {spellings : List (String × Bool)} (known : spellings ∈ [operators, signs])
    (cs : List Char) (lengthens : Bool) :
    spellings.find? (fun s => s.1.toList.isPrefixOf (':' :: ':' :: cs)) ≠ some (":", lengthens) := by
  simp only [List.mem_cons, List.not_mem_nil, or_false] at known
  rcases known with rfl | rfl
  · have found : operators.find? (fun s => s.1.toList.isPrefixOf (':' :: ':' :: cs)) =
        some ("::", false) := rfl
    simp [found]
  · have found : signs.find? (fun s => s.1.toList.isPrefixOf (':' :: ':' :: cs)) = none := rfl
    simp [found]

theorem scan_operator_read {spellings : List (String × Bool)}
    (known : spellings ∈ [operators, signs]) : Scanner.Reads (scanOperator .sqlite spellings) := by
  intro cs t rest reads
  obtain ⟨⟨text, lengthens⟩, found, reads⟩ := Option.map_eq_some_iff.1 reads
  have fits : text.toList.isPrefixOf cs :=
    List.find?_some (p := fun s : String × Bool => s.1.toList.isPrefixOf cs) found
  obtain ⟨behind, rfl⟩ := List.isPrefixOf_iff_prefix.1 fits
  have listed : (text, lengthens) ∈ operators ++ signs := by
    have mem := List.mem_of_find?_eq_some found
    simp only [List.mem_cons, List.not_mem_nil, or_false] at known
    rcases known with rfl | rfl
    · exact List.mem_append_left _ mem
    · exact List.mem_append_right _ mem
  obtain ⟨some, kinds⟩ := operator_spellings _ listed
  have plain : behind.takeWhile (Dialect.continuesOperator .sqlite) = [] := by
    cases behind <;> rfl
  simp only [List.drop_left, plain, ite_self, List.isEmpty_nil, if_true, Except.ok.injEq,
    Prod.mk.injEq] at reads
  obtain ⟨rfl, rfl⟩ := reads
  obtain ⟨c, after, split⟩ := List.exists_cons_of_ne_nil some
  rw [split] at found ⊢
  unfold ofOperator
  by_cases colon : text = ":"
  · subst colon
    have spelled : [':'] = c :: after := by simpa using split
    cases spelled
    rw [if_pos rfl]
    refine ⟨trivial, fun d head => ?_, fun _ doubled => ?_, by simp⟩
    · cases head
      exact front_same rfl
    · obtain ⟨behind, rfl⟩ := List.head?_eq_some_iff.1 doubled
      exact double_colon known behind lengthens found
  · rw [if_neg colon]
    by_cases unequal : text = "!="
    · subst unequal
      have spelled : ['!', '='] = c :: after := by simpa using split
      cases spelled
      rw [if_pos rfl]
      refine closed_read (.inr (by decide)) ?_ (by simp) (by simp)
      exact front_other (x := '<') rfl rfl (by decide)
    · rw [if_neg unequal]
      refine mark_read ?_ (by simp [spelling, split]) (by simp) (by simp)
      exact (kinds.resolve_left colon).resolve_left unequal

theorem continues_harmless {c : Char} (inside : continues c = true) : isHarmless c = true :=
  harmless_of_class rfl inside

theorem numeric_harmless {c : Char} (numeric : Text.isNumeric c = true) : isHarmless c = true :=
  harmless_of_class rfl numeric

theorem scan_question_read : Scanner.Reads (scanQuestion .sqlite) := by
  intro cs t rest reads
  unfold scanQuestion at reads
  split at reads
  case h_2 => cases reads
  case h_1 cs =>
    simp only [reduceCtorEq, if_false, Option.some.injEq, Except.ok.injEq, Prod.mk.injEq] at reads
    obtain ⟨rfl, -⟩ := reads
    have harmless : ∀ c ∈ '?' :: cs.takeWhile Text.isNumeric, isHarmless c = true := by
      intro c mem
      rcases List.mem_cons.mp mem with rfl | digits
      · rfl
      · exact numeric_harmless (List.all_eq_true.1 List.all_takeWhile c digits)
    have spelled : ("?" ++ String.ofList (cs.takeWhile Text.isNumeric)).toList =
        '?' :: cs.takeWhile Text.isNumeric := by
      simp
    refine mark_read ?_ (by simp [spelling]) (by simp) (by simp)
    rw [Formed, spelled]
    refine ⟨by simp, inert_of_harmless harmless, fun c head => by cases head; rfl, fun last => ?_⟩
    cases harmless ':' (List.mem_of_getLast? last)

theorem scan_word_read : Scanner.Reads (scanWord .sqlite) := by
  intro cs t rest reads
  unfold scanWord at reads
  split at reads
  case h_2 => cases reads
  case h_1 c cs =>
    simp only [Option.ite_none_right_eq_some, Option.some.injEq, Except.ok.injEq, wordFrom,
      Prod.mk.injEq] at reads
    obtain ⟨starts, rfl, rfl⟩ := reads
    have first : continues c = true := by
      simp [continues, Dialect.continuesWord, starts]
    refine ⟨⟨by simp, fun d mem => ?_⟩, fun d head => ?_, by simp, fun _ d head => ?_⟩
    · simp only [String.toList_ofList, List.singleton_append, List.mem_cons] at mem
      rcases mem with rfl | later
      · exact first
      · exact List.all_eq_true.1 List.all_takeWhile d later
    · cases head
      exact front_same (by simp [spelling])
    · have stops := List.head?_dropWhile_not continues cs
      rwa [Option.mem_def.1 head] at stops

-- The last two scanners meet only what no other scanner fits: no quote, no colon and no letter.
theorem scan_last_read {cs rest : List Char} {t : Token} (unquoted : scanString cs = none)
    (wordless : scanQuotedWord .sqlite cs = none)
    (unspelled : scanOperator .sqlite operators cs = none) (bare : scanWord .sqlite cs = none)
    (reads : scanDollar cs = some (.ok (t, rest)) ∨ scanCharacter cs = some (.ok (t, rest))) :
    Read cs t rest := by
  cases cs with
  | nil => rcases reads with reads | reads <;> cases reads
  | cons c cs =>
    have outside : Dialect.sqlite.startsWord c = false := by simpa [scanWord] using bare
    rcases reads with reads | reads
    · have different : c ≠ '$' := by
        rintro rfl
        cases outside
      unfold scanDollar at reads
      split at reads <;> simp_all
    · unfold scanCharacter at reads
      by_cases blank : Text.isBlank c = true
      · simp only [if_pos blank, Option.some.injEq, Except.ok.injEq, Prod.mk.injEq] at reads
        obtain ⟨rfl, rfl⟩ := reads
        exact blank_read _
      · simp only [if_neg blank, Option.some.injEq, Except.ok.injEq, Prod.mk.injEq] at reads
        obtain ⟨rfl, rfl⟩ := reads
        refine mark_read (.inr ?_) (by simp [spelling]) (by simp) (by simp)
        rw [String.toList_ofList]
        refine ⟨by simp, ⟨fun d mem => ?_, .singleton c⟩, fun d head => ?_, fun last => ?_⟩
        · obtain rfl := List.mem_singleton.mp mem
          constructor
          · rintro rfl
            cases unquoted
          · rintro rfl
            cases wordless
        · cases head
          refine Bool.eq_false_iff.mpr fun starts => ?_
          simp only [startsName, Bool.or_eq_true] at starts
          simp only [Dialect.startsWord, Bool.or_eq_false_iff] at outside
          simp [outside] at starts
        · cases last
          have single := List.find?_eq_none.mp (Option.map_eq_none_iff.mp unspelled) (":", false)
          exact single (by decide) rfl

theorem never_read {scan : Scanner} (never : ∀ cs, scan cs = none) : Scanner.Reads scan := by
  intro cs t rest reads
  rw [never cs] at reads
  cases reads

theorem next_read : Scanner.Reads (next .sqlite) := by
  intro cs t rest reads
  have parts : scanners .sqlite = (scanners .sqlite).take 18 ++ [scanDollar, scanCharacter] := rfl
  rw [next, parts, List.findSome?_append, Option.or_eq_some_iff] at reads
  rcases reads with early | ⟨none, last⟩
  · obtain ⟨scan, mem, reads⟩ := List.exists_of_findSome?_eq_some early
    simp only [scanners, List.take_succ_cons, List.take_zero, List.mem_cons, List.not_mem_nil,
      or_false] at mem
    rcases mem with rfl | rfl | rfl | rfl | rfl | rfl | rfl | rfl | rfl | rfl | rfl | rfl | rfl |
      rfl | rfl | rfl | rfl | rfl
    · exact scan_space_read reads
    · exact never_read (fun cs => by unfold scanBytes; split <;> simp) reads
    · exact never_read (fun cs => by unfold scanRaw; split <;> simp) reads
    · exact scan_national_read reads
    · exact scan_escaped_read reads
    · exact never_read (fun cs => by unfold scanUnicode; split <;> simp) reads
    · exact scan_hex_read reads
    · exact scan_string_read reads
    · exact scan_quoted_word_read reads
    · exact scan_number_read reads
    · exact scan_mark_read reads
    · exact scan_comment_read reads
    · exact never_read (fun cs => by unfold scanDivision; split <;> simp) reads
    · exact scan_operator_read (by simp) reads
    · exact never_read (fun cs => by unfold scanSignedWord; split <;> simp) reads
    · exact scan_operator_read (by simp) reads
    · exact scan_question_read reads
    · exact scan_word_read reads
  · rw [List.findSome?_eq_none_iff] at none
    refine scan_last_read (none _ (by simp [scanners])) (none _ (by simp [scanners]))
      (none _ (by simp [scanners])) (none _ (by simp [scanners])) ?_
    obtain ⟨scan, mem, reads⟩ := List.exists_of_findSome?_eq_some last
    simp only [List.mem_cons, List.not_mem_nil, or_false] at mem
    rcases mem with rfl | rfl
    · exact .inl reads
    · exact .inr reads

-- What may stand behind a token in a text: no second colon behind a colon, and nothing behind a word
-- that would go on with it.
def Apart (t u : Token) : Prop :=
  (t = .colon → ∀ c ∈ u.spelling.toList.head?, c ≠ ':') ∧
    ((∃ text, t = .word text none) → ∀ c ∈ u.spelling.toList.head?, continuesName c = false)

theorem apart_front {t u : Token} {c : Char} (ends : Ends t [c]) (front : Fronts c u) :
    Apart t u := by
  constructor
  · intro colon x head
    rintro rfl
    exact ends.1 colon (congrArg some ((front ':' head).1 rfl))
  · intro bare x head
    refine Bool.eq_false_iff.mpr fun name => ?_
    have outside := ends.2 bare c rfl
    rw [(front x head).2 name] at outside
    cases outside

theorem formed_loose : Loose Formed Apart where
  separator t separator := by
    cases t <;> first | exact trivial | cases separator
  unmarked := id
  before t u separator := by
    have front : Fronts ' ' u := by
      simp only [separates, Bool.or_eq_true, beq_iff_eq] at separator
      rcases separator with blank | rfl
      · cases u with
        | blank b => exact blank_front ' ' b
        | _ => cases blank
      · exact front_other (x := ';') rfl rfl (by decide)
    exact apart_front ⟨fun _ => by decide, fun _ c head => by cases head; rfl⟩ front
  behind t u separator := by
    constructor
    · rintro rfl
      cases separator
    · rintro ⟨text, rfl⟩
      cases separator

theorem tokens_read {cs : List Char} {ts : List Token} (reads : tokens .sqlite cs = .ok ts) :
    Run Formed Apart ts ∧ ∀ t, Ends t cs → ∀ u ∈ ts.head?, Apart t u := by
  cases first : next .sqlite cs with
  | none =>
    rw [tokens_end first] at reads
    cases reads
    exact ⟨run_nil, by simp⟩
  | some result =>
    cases result with
    | error fault =>
      rw [tokens_fault first] at reads
      cases reads
    | ok read =>
      obtain ⟨t, rest⟩ := read
      rw [tokens_next first] at reads
      obtain ⟨us, others, rfl⟩ := map_eq_ok reads
      have shorter := next_shortens .sqlite first
      obtain ⟨run, behind⟩ := tokens_read others
      have here := next_read first
      refine ⟨run_cons.mpr ⟨here.formed, behind t here.behind, run⟩, fun u ends v head => ?_⟩
      cases head
      cases cs with
      | nil => cases shorter
      | cons c cs =>
        have same : Ends u [c] := ⟨fun colon head => ends.1 colon head, ends.2⟩
        exact apart_front same (here.front c rfl)
termination_by cs.length

end Token
end SqlCatalog
