import SqlCatalog.Statement.Source
/-!
The characters that a token is read from, and whether it is written down with the same ones
(`next_taken`). Numbers and quoted words always are; of the literals those are not whose letter is
written in upper case, the hexadecimal numbers, and those with an escape that is decoded.
-/
namespace SqlCatalog

def isEscape (c : Char) : Bool := c == '\'' || c == '\\'

namespace LiteralForm

-- Whether the text of the form is kept without its escapes.
def decodes : LiteralForm → Bool
  | escaped | unicode => true
  | _ => false

-- A literal that is not written as it was read: it began with another character than its form is
-- written with, or there was an escape in it.
def Respelled (form : LiteralForm) (source : List Char) : Prop :=
  source.head? ≠ form.opening.toList.head? ∨
    form.decodes = true ∧
      (source.drop form.opening.toList.length).dropLast.any isEscape = true

end LiteralForm

namespace Token

def isLiteral : Token → Bool
  | number _ _ | literal _ _ | word _ (some _) => true
  | _ => false

def Respelled (source : List Char) : Token → Prop
  | literal form _ => form.Respelled source
  | _ => False

-- What is known of a token and the characters it is read from.
structure Written (source : List Char) (t : Token) : Prop where
  verbatim_iff : t.isLiteral = true → (t.spelling.toList = source ↔ ¬ Respelled source t)
  semicolon : t = .semicolon → source = [';']

def Taken (cs : List Char) (t : Token) (rest : List Char) : Prop :=
  ∃ source, cs = source ++ rest ∧ Written source t

def Scanner.Takes (scan : Scanner) : Prop :=
  ∀ {cs : List Char} {t : Token} {rest : List Char}, scan cs = some (.ok (t, rest)) →
    Taken cs t rest

theorem taken_other {cs rest : List Char} {t : Token} (behind : rest <:+ cs)
    (other : t.isLiteral = false) (inner : t ≠ .semicolon) : Taken cs t rest := by
  obtain ⟨source, rfl⟩ := behind
  exact ⟨source, rfl, by simp [other], fun same => absurd same inner⟩

theorem taken_blank {cs rest : List Char} (b : Blank) (behind : rest <:+ cs) :
    Taken cs (.blank b) rest :=
  taken_other behind rfl (by simp)

theorem taken_operator {cs rest : List Char} (text : String) (behind : rest <:+ cs) :
    Taken cs (.operator text) rest :=
  taken_other behind rfl (by simp)

theorem taken_spelled {cs rest : List Char} {t : Token} (split : cs = t.spelling.toList ++ rest)
    (kept : ∀ source, ¬ Respelled source t) : Taken cs t rest := by
  refine ⟨_, split, fun _ => iff_of_true rfl (kept _), fun same => ?_⟩
  rw [same]
  rfl

section Literals

variable {form : LiteralForm} (first lead : Char) (mark : List Char)

theorem spelled_literal {lead : Char} {mark : List Char} (opens : form.opening.toList = lead :: mark) (text : String) :
    (literal form text).spelling.toList =
      lead :: (mark ++ (text.toList ++ form.closing.toList)) := by
  simp [spelling, opens]

theorem respelled_cons {lead : Char} {mark : List Char} (opens : form.opening.toList = lead :: mark)
    (first : Char) (after : List Char) :
    form.Respelled (first :: after) ↔
      first ≠ lead ∨ form.decodes = true ∧ (after.drop mark.length).dropLast.any isEscape = true := by
  simp [LiteralForm.Respelled, opens]

theorem taken_led {text cs rest : List Char}
    (opens : form.opening.toList = lead :: mark) (plain : form.decodes = false)
    (split : cs = first :: (mark ++ (text ++ (form.closing.toList ++ rest)))) :
    Taken cs (.literal form (String.ofList text)) rest := by
  refine ⟨first :: (mark ++ (text ++ form.closing.toList)), by simp [split], fun _ => ?_, by simp⟩
  rw [spelled_literal opens, String.toList_ofList, Respelled, respelled_cons opens]
  simpa [plain] using eq_comm

theorem taken_otherwise {after source rest : List Char} {text : String}
    (opens : form.opening.toList = lead :: mark) (other : first ≠ lead)
    (split : source = first :: after) : Taken (source ++ rest) (.literal form text) rest := by
  subst split
  refine ⟨_, rfl, fun _ => iff_of_false ?_ ?_, by simp⟩
  · rw [spelled_literal opens]
    exact fun same => other (List.cons.inj same).1.symm
  · rw [Respelled, respelled_cons opens]
    exact fun unchanged => unchanged (.inl other)

end Literals

theorem quoted_literal_taken {form : LiteralForm} {quote : Char} (first lead : Char)
    {start cs rest : List Char} {t : Token} (opens : form.opening.toList = [lead, quote])
    (closes : form.closing.toList = [quote]) (plain : form.decodes = false)
    (reads : quotedLiteral form quote start cs = .ok (t, rest)) :
    Taken (first :: quote :: cs) t rest := by
  unfold quotedLiteral at reads
  split at reads <;> cases reads
  case h_1 text found =>
    refine taken_led first lead [quote] opens plain ?_
    rw [closes, eq_of_quoted_text found]
    rfl

theorem shielded_literal_taken {form : LiteralForm} (first lead : Char) {cs rest : List Char}
    {t : Token} (opens : form.opening.toList = [lead, '\'']) (closes : form.closing = "'")
    (plain : form.decodes = false) (reads : shieldedLiteral form cs = .ok (t, rest)) :
    Taken (first :: '\'' :: cs) t rest := by
  unfold shieldedLiteral at reads
  split at reads <;> cases reads
  case h_1 text found =>
    refine taken_led first lead ['\''] opens plain ?_
    rw [closes, eq_of_shielded_text found]
    rfl

theorem scan_space_taken : Scanner.Takes scanSpace := by
  intro cs t rest reads
  unfold scanSpace at reads
  split at reads <;> cases reads
  case h_4 => exact taken_blank _ ((List.suffix_cons _ _).trans (List.suffix_cons _ _))
  all_goals exact taken_blank _ (List.suffix_cons _ _)

theorem scan_bytes_taken (d : Dialect) : Scanner.Takes (scanBytes d) := by
  intro cs t rest reads
  unfold scanBytes at reads
  split at reads
  case h_2 => cases reads
  case h_1 b quote cs =>
    simp only [Option.ite_none_right_eq_some, Option.some.injEq] at reads
    exact quoted_literal_taken b 'B' (by simp [LiteralForm.opening])
      (by simp [LiteralForm.closing]) rfl reads.2

theorem raw_literal_taken {first quote : Char} {cs rest : List Char} {t : Token}
    (reads : rawLiteral quote cs = .ok (t, rest)) : Taken (first :: quote :: cs) t rest := by
  unfold rawLiteral at reads
  by_cases tripled : cs.take 2 = [quote, quote]
  · have split : cs = quote :: quote :: cs.drop 2 := by
      rw [← List.take_append_drop 2 cs, tripled]
      simp
    rw [if_pos tripled] at reads
    cases found : tripleQuotedText? quote (cs.drop 2) with
    | none => simp [found] at reads
    | some read =>
      simp only [found, Except.ok.injEq, Prod.mk.injEq] at reads
      obtain ⟨rfl, rfl⟩ := reads
      refine taken_led first 'R' [quote, quote, quote]
        (by simp [LiteralForm.opening, List.replicate]) rfl ?_
      rw [split, eq_of_triple_quoted_text found]
      simp [LiteralForm.closing, List.replicate]
  · rw [if_neg tripled] at reads
    by_cases empty : cs.head? = some quote
    · obtain ⟨behind, rfl⟩ := List.head?_eq_some_iff.1 empty
      simp only [if_pos empty, List.tail_cons, Except.ok.injEq, Prod.mk.injEq] at reads
      obtain ⟨rfl, rfl⟩ := reads
      refine taken_led first 'R' [quote] (by simp [LiteralForm.opening]) rfl ?_
      simp [LiteralForm.closing]
    · rw [if_neg empty] at reads
      exact quoted_literal_taken first 'R' (by simp [LiteralForm.opening])
        (by simp [LiteralForm.closing]) rfl reads

theorem scan_raw_taken (d : Dialect) : Scanner.Takes (scanRaw d) := by
  intro cs t rest reads
  unfold scanRaw at reads
  split at reads
  case h_2 => cases reads
  case h_1 r quote cs =>
    simp only [Option.ite_none_right_eq_some, Option.some.injEq] at reads
    exact raw_literal_taken reads.2

theorem scan_national_taken : Scanner.Takes scanNational := by
  intro cs t rest reads
  unfold scanNational at reads
  split at reads
  case h_2 => cases reads
  case h_1 n cs =>
    simp only [Option.ite_none_right_eq_some, Option.some.injEq] at reads
    exact shielded_literal_taken n 'N' rfl rfl rfl reads.2

theorem scan_hex_taken : Scanner.Takes scanHex := by
  intro cs t rest reads
  unfold scanHex at reads
  split at reads
  case h_2 => cases reads
  case h_1 x cs =>
    simp only [Option.ite_none_right_eq_some, Option.some.injEq] at reads
    exact shielded_literal_taken x 'X' rfl rfl rfl reads.2

theorem scan_string_taken : Scanner.Takes scanString := by
  intro cs t rest reads
  unfold scanString at reads
  split at reads
  case h_2 => cases reads
  case h_1 cs =>
    unfold quotedLiteral at reads
    cases found : quotedText? '\'' cs with
    | none => simp [found] at reads
    | some read =>
      simp only [found, Option.some.injEq, Except.ok.injEq, Prod.mk.injEq] at reads
      obtain ⟨rfl, rfl⟩ := reads
      refine taken_led '\'' '\'' [] rfl rfl ?_
      rw [eq_of_quoted_text found]
      rfl

theorem scan_quoted_word_taken (d : Dialect) : Scanner.Takes (scanQuotedWord d) := by
  intro cs t rest reads
  unfold scanQuotedWord at reads
  split at reads
  case h_2 => cases reads
  case h_1 c cs =>
    obtain ⟨quote, opens, reads⟩ := Option.map_eq_some_iff.1 reads
    have first := Dialect.eq_of_opening_quote opens
    cases found : quotedText? quote.closing cs with
    | none => simp [found] at reads
    | some read =>
      simp only [found, Except.ok.injEq, Prod.mk.injEq] at reads
      obtain ⟨rfl, rfl⟩ := reads
      refine taken_spelled ?_ fun source respelled => respelled
      rw [eq_of_quoted_text found, ← first]
      simp [spelling]

/-! ### Text that is decoded -/

-- A decoded text is as long as its source only if there was no escape in it.
structure Decoded (body text : List Char) : Prop where
  length_le : text.length ≤ body.length
  same_iff : text = body ↔ body.any isEscape = false

theorem decoded_nil : Decoded [] [] := ⟨Nat.le_refl _, by simp⟩

theorem decoded_cons {c : Char} {body text : List Char} (plain : isEscape c = false)
    (decoded : Decoded body text) : Decoded (c :: body) (c :: text) := by
  refine ⟨Nat.succ_le_succ decoded.length_le, ?_⟩
  rw [List.cons_inj_right, decoded.same_iff, List.any_cons, plain, Bool.false_or]

theorem decoded_escape {c e : Char} {taken body text : List Char} (escape : isEscape c = true)
    (some : taken ≠ []) (decoded : Decoded body text) :
    Decoded (c :: (taken ++ body)) (e :: text) := by
  have shorter := decoded.length_le
  have positive := List.length_pos_iff.2 some
  have longer : (e :: text).length < (c :: (taken ++ body)).length := by
    simp only [List.length_cons, List.length_append]
    omega
  refine ⟨Nat.le_of_lt longer, iff_of_false (fun same => ?_) (by simp [escape])⟩
  rw [same] at longer
  exact absurd longer (Nat.lt_irrefl _)

theorem decoded_literal_taken {form : LiteralForm} (first lead : Char) (mark : List Char)
    {body text rest : List Char} (opens : form.opening.toList = lead :: mark)
    (closes : form.closing = "'") (decodes : form.decodes = true) (decoded : Decoded body text) :
    Taken (first :: (mark ++ (body ++ '\'' :: rest))) (.literal form (String.ofList text)) rest := by
  refine ⟨first :: (mark ++ (body ++ ['\''])), by simp, fun _ => ?_, by simp⟩
  rw [spelled_literal opens, String.toList_ofList, closes, Respelled, respelled_cons opens,
    List.drop_left, List.dropLast_concat, List.cons.injEq, List.append_cancel_left_eq,
    show "'".toList = ['\''] from rfl, List.append_cancel_right_eq, decoded.same_iff,
    eq_comm (a := lead)]
  simp [decodes]

theorem escaped_text_decoded {cs text rest : List Char}
    (found : escapedText? cs = some (text, rest)) :
    ∃ body, cs = body ++ '\'' :: rest ∧ Decoded body text := by
  fun_induction escapedText? cs generalizing text rest with
  | case1 => cases found
  | case2 =>
    cases found
    exact ⟨[], rfl, decoded_nil⟩
  | case3 ds ih =>
    obtain ⟨⟨inside, behind⟩, inner, same⟩ := Option.map_eq_some_iff.1 found
    cases same
    obtain ⟨body, rfl, decoded⟩ := ih inner
    exact ⟨'\'' :: (['\''] ++ body), rfl, decoded_escape rfl (by simp) decoded⟩
  | case4 =>
    cases found
    exact ⟨[], rfl, decoded_nil⟩
  | case5 => cases found
  | case6 => cases found
  | case7 cs e left shielded _ _ ih =>
    obtain ⟨⟨inside, behind⟩, inner, same⟩ := Option.map_eq_some_iff.1 found
    cases same
    obtain ⟨body, split, decoded⟩ := ih inner
    obtain ⟨c, after, count, rfl, rfl⟩ := backslashed?_drops shielded
    refine ⟨'\\' :: (c :: after.take count ++ body), ?_, decoded_escape rfl (by simp) decoded⟩
    simp only [List.cons_append, List.append_assoc, ← split, List.take_append_drop]
  | case8 c cs unquoted unshielded ih =>
    obtain ⟨⟨inside, behind⟩, inner, same⟩ := Option.map_eq_some_iff.1 found
    cases same
    obtain ⟨body, rfl, decoded⟩ := ih inner
    exact ⟨c :: body, rfl, decoded_cons (by simp [isEscape, unquoted, unshielded]) decoded⟩

theorem unicode_text_decoded {cs text rest : List Char}
    (found : unicodeText cs = .ok (text, rest)) :
    ∃ body, cs = body ++ '\'' :: rest ∧ Decoded body text := by
  fun_induction unicodeText cs generalizing text rest with
  | case1 => cases found
  | case2 =>
    cases found
    exact ⟨[], rfl, decoded_nil⟩
  | case3 ds ih =>
    obtain ⟨⟨inside, behind⟩, inner, same⟩ := map_eq_ok found
    cases same
    obtain ⟨body, rfl, decoded⟩ := ih inner
    exact ⟨'\'' :: (['\''] ++ body), rfl, decoded_escape rfl (by simp) decoded⟩
  | case4 =>
    cases found
    exact ⟨[], rfl, decoded_nil⟩
  | case5 => cases found
  | case6 cs e left shielded _ ih =>
    obtain ⟨⟨inside, behind⟩, inner, same⟩ := map_eq_ok found
    cases same
    obtain ⟨body, rfl, decoded⟩ := ih inner
    obtain ⟨taken, some, rfl⟩ := unicode_escape_drops shielded
    exact ⟨'\\' :: (taken ++ body), by simp, decoded_escape rfl some decoded⟩
  | case7 c cs unquoted unshielded ih =>
    obtain ⟨⟨inside, behind⟩, inner, same⟩ := map_eq_ok found
    cases same
    obtain ⟨body, rfl, decoded⟩ := ih inner
    exact ⟨c :: body, rfl, decoded_cons (by simp [isEscape, unquoted, unshielded]) decoded⟩

theorem scan_escaped_taken : Scanner.Takes scanEscaped := by
  intro cs t rest reads
  unfold scanEscaped at reads
  split at reads
  case h_2 => cases reads
  case h_1 e cs =>
    simp only [Option.ite_none_right_eq_some] at reads
    cases found : escapedText? cs with
    | none => simp [found] at reads
    | some read =>
      simp only [found, Option.some.injEq, Except.ok.injEq, Prod.mk.injEq] at reads
      obtain ⟨-, rfl, rfl⟩ := reads
      obtain ⟨body, split, decoded⟩ := escaped_text_decoded found
      rw [split]
      exact decoded_literal_taken e 'E' ['\''] rfl rfl rfl decoded

theorem scan_unicode_taken (d : Dialect) : Scanner.Takes (scanUnicode d) := by
  intro cs t rest reads
  unfold scanUnicode at reads
  split at reads
  case h_2 => cases reads
  case h_1 u cs =>
    simp only [Option.ite_none_right_eq_some, Option.some.injEq] at reads
    obtain ⟨⟨text, behind⟩, found, same⟩ := map_eq_ok reads.2
    cases same
    obtain ⟨body, split, decoded⟩ := unicode_text_decoded found
    rw [split]
    exact decoded_literal_taken u 'U' ['&', '\''] rfl rfl rfl decoded

/-! ### Numbers -/

theorem fraction_begins (cs : List Char) : fraction cs <+: cs := by
  unfold fraction
  split
  · exact List.cons_prefix_cons.mpr ⟨rfl, List.takeWhile_prefix _⟩
  · exact List.nil_prefix

theorem prefix_further {part next cs : List Char} (first : part <+: cs)
    (second : next <+: cs.drop part.length) : part ++ next <+: cs := by
  obtain ⟨rest, rfl⟩ := first
  rw [List.drop_left] at second
  exact (List.prefix_append_right_inj part).mpr second

theorem exponent_begins (cs : List Char) : exponent cs <+: cs := by
  cases cs with
  | nil => exact List.nil_prefix
  | cons e rest =>
    simp only [exponent]
    split
    · split
      · exact List.nil_prefix
      · have signed : (rest.take 1).takeWhile (fun c => c == '+' || c == '-') <+: rest :=
          (List.takeWhile_prefix _).trans (List.take_prefix 1 rest)
        refine List.cons_prefix_cons.mpr ⟨rfl, ?_⟩
        exact prefix_further signed (List.takeWhile_prefix _)
    · exact List.nil_prefix

theorem number_from_taken {digits cs rest : List Char} {t : Token}
    (reads : numberFrom digits cs = (t, rest)) : Taken (digits ++ cs) t rest := by
  unfold numberFrom at reads
  by_cases point : digits = ['.']
  · rw [if_pos point] at reads
    cases reads
    exact taken_other (List.suffix_append _ _) rfl (by simp)
  · have power := List.prefix_iff_eq_append.1 (exponent_begins cs)
    simp only [if_neg point] at reads
    split at reads <;> cases reads
    case h_1 long =>
      rw [long] at power
      refine taken_spelled ?_ fun source respelled => respelled
      simpa [spelling] using power.symm
    case h_2 =>
      refine taken_spelled ?_ fun source respelled => respelled
      simpa [spelling] using power.symm

-- Digits behind `0x` are not a number but a literal, which is written in another form.
theorem hex_number_taken (isHex : Char → Bool) (behind : List Char) :
    Taken ('0' :: 'x' :: behind) (.literal .hex (String.ofList (behind.takeWhile isHex)))
      (behind.dropWhile isHex) := by
  have taken (source rest : List Char) (text : String) :
      Taken ('0' :: source ++ rest) (.literal .hex text) rest :=
    taken_otherwise '0' 'X' ['\''] rfl (by decide) rfl
  have read := taken ('x' :: behind.takeWhile isHex) (behind.dropWhile isHex)
    (String.ofList (behind.takeWhile isHex))
  rwa [List.cons_append, List.cons_append, List.takeWhile_append_dropWhile] at read

theorem scan_number_taken : Scanner.Takes scanNumber := by
  intro cs t rest reads
  cases cs with
  | nil => cases reads
  | cons c cs =>
    simp only [scanNumber, Option.ite_none_right_eq_some] at reads
    obtain ⟨-, reads⟩ := reads
    have whole := List.prefix_iff_eq_append.1 (List.takeWhile_prefix Char.isDigit (l := c :: cs))
    split at reads
    case isTrue hex =>
      obtain ⟨behind, marked⟩ := List.head?_eq_some_iff.1 hex.2
      simp only [marked, List.tail_cons, Option.some.injEq, Except.ok.injEq, Prod.mk.injEq] at reads
      obtain ⟨rfl, rfl⟩ := reads
      rw [← whole, marked, hex.1]
      exact hex_number_taken _ behind
    case isFalse =>
      simp only [Option.some.injEq, Except.ok.injEq] at reads
      have part := List.prefix_iff_eq_append.1
        (fraction_begins ((c :: cs).drop ((c :: cs).takeWhile Char.isDigit).length))
      have taken := number_from_taken reads
      rwa [List.append_assoc, part, whole] at taken

/-! ### What is no literal -/

theorem scan_mark_taken : Scanner.Takes scanMark := by
  intro cs t rest reads
  unfold scanMark at reads
  split at reads
  case h_4 =>
    cases reads
    exact taken_spelled rfl fun source respelled => respelled
  case h_6 =>
    simp only [Option.ite_none_right_eq_some, Option.some.injEq, Except.ok.injEq,
      Prod.mk.injEq] at reads
    obtain ⟨-, rfl, rfl⟩ := reads
    exact taken_operator _ (List.suffix_cons _ _)
  case h_7 => cases reads
  all_goals
    cases reads
    exact taken_other (List.suffix_cons _ _) rfl (by simp)

theorem scan_comment_taken : Scanner.Takes scanComment := by
  intro cs t rest reads
  unfold scanComment at reads
  split at reads
  case h_1 cs =>
    cases reads
    refine taken_blank _ ((List.drop_suffix _ cs).trans ?_)
    exact (List.suffix_cons _ _).trans (List.suffix_cons _ _)
  case h_2 =>
    split at reads <;> cases reads
    case h_1 found =>
      rw [eq_of_block_comment found]
      exact taken_blank _ (List.suffix_append ('/' :: '*' :: _) _)
  case h_3 => cases reads

theorem scan_division_taken (d : Dialect) : Scanner.Takes (scanDivision d) := by
  intro cs t rest reads
  unfold scanDivision at reads
  split at reads
  case h_2 => cases reads
  case h_1 cs =>
    simp only [Option.ite_none_right_eq_some, Option.some.injEq, Except.ok.injEq,
      Prod.mk.injEq] at reads
    obtain ⟨-, rfl, rfl⟩ := reads
    exact taken_operator _ ((List.suffix_cons _ _).trans (List.suffix_cons _ _))

theorem scan_operator_taken (d : Dialect) (spellings : List (String × Bool)) :
    Scanner.Takes (scanOperator d spellings) := by
  intro cs t rest reads
  obtain ⟨⟨text, lengthens⟩, -, reads⟩ := Option.map_eq_some_iff.1 reads
  have plain : (ofOperator text).isLiteral = false ∧ ofOperator text ≠ .semicolon := by
    unfold ofOperator
    split
    · exact ⟨rfl, by simp⟩
    · split <;> exact ⟨rfl, by simp⟩
  dsimp only at reads
  split at reads <;> split at reads <;> cases reads
  · exact taken_other (List.drop_suffix _ _) plain.1 plain.2
  · exact taken_operator _ ((List.drop_suffix _ _).trans (List.drop_suffix _ _))
  · exact taken_other (List.drop_suffix _ _) plain.1 plain.2
  · exact taken_operator _ ((List.drop_suffix _ _).trans (List.drop_suffix _ _))

theorem word_from_taken {d : Dialect} {first cs rest : List Char} {t : Token}
    (reads : wordFrom d first cs = (t, rest)) : Taken (first ++ cs) t rest := by
  cases reads
  exact taken_other ((List.dropWhile_suffix _).trans (List.suffix_append _ _)) rfl (by simp)

theorem scan_signed_word_taken (d : Dialect) : Scanner.Takes (scanSignedWord d) := by
  intro cs t rest reads
  unfold scanSignedWord at reads
  split at reads
  case h_2 => cases reads
  case h_5 => cases reads
  all_goals
    simp only [Option.ite_none_right_eq_some, Option.some.injEq, Except.ok.injEq] at reads
    exact word_from_taken reads.2

theorem scan_word_taken (d : Dialect) : Scanner.Takes (scanWord d) := by
  intro cs t rest reads
  unfold scanWord at reads
  split at reads
  case h_2 => cases reads
  case h_1 =>
    simp only [Option.ite_none_right_eq_some, Option.some.injEq, Except.ok.injEq] at reads
    exact word_from_taken reads.2

theorem scan_question_taken (d : Dialect) : Scanner.Takes (scanQuestion d) := by
  intro cs t rest reads
  unfold scanQuestion at reads
  split at reads
  case h_2 => cases reads
  case h_1 cs =>
    by_cases postgres : d = .postgres
    · rw [if_pos postgres] at reads
      split at reads <;> cases reads
      case h_3 => exact taken_operator _ ((List.tail_suffix _).trans (List.suffix_cons _ _))
      all_goals exact taken_operator _ ((List.suffix_cons _ _).trans (List.suffix_cons _ _))
    · rw [if_neg postgres] at reads
      cases reads
      exact taken_other ((List.dropWhile_suffix _).trans (List.suffix_cons _ _)) rfl (by simp)

theorem scan_character_taken : Scanner.Takes scanCharacter := by
  intro cs t rest reads
  unfold scanCharacter at reads
  split at reads
  case h_2 => cases reads
  case h_1 =>
    split at reads <;> cases reads
    · exact taken_blank _ (List.suffix_cons _ _)
    · exact taken_operator _ (List.suffix_cons _ _)

/-! ### Dollar signs -/

theorem scan_dollar_taken : Scanner.Takes scanDollar := by
  intro cs t rest reads
  unfold scanDollar at reads
  split at reads
  case h_1 cs =>
    split at reads <;> cases reads
    case h_1 text found =>
      refine taken_led '$' '$' ['$'] rfl rfl ?_
      rw [eq_of_dollar_text found]
      rfl
  case h_2 cs _ =>
    dsimp only at reads
    let inTag := fun c => Text.isAlphanumeric c || c == '_'
    have tagged : cs.takeWhile inTag ++ cs.dropWhile inTag = cs := List.takeWhile_append_dropWhile
    split at reads
    case h_1 behind left =>
      split at reads <;> cases reads
      case h_1 text found =>
        have split : cs = cs.takeWhile inTag ++ '$' :: behind := by rw [← left, tagged]
        refine taken_led '$' '$' (cs.takeWhile inTag ++ ['$']) ?_ rfl ?_
        · simp [LiteralForm.opening, inTag]
        · refine congrArg ('$' :: ·) (split.trans ?_)
          simp [LiteralForm.closing, eq_of_tagged_text found, inTag]
    case h_2 =>
      cases reads
      exact taken_other ((List.dropWhile_suffix _).trans (List.suffix_cons _ _)) rfl (by simp)
  case h_3 => cases reads

theorem next_taken (d : Dialect) : Scanner.Takes (next d) := by
  intro cs t rest reads
  obtain ⟨scan, mem, reads⟩ := List.exists_of_findSome?_eq_some reads
  simp only [scanners, List.mem_cons, List.not_mem_nil, or_false] at mem
  rcases mem with rfl | rfl | rfl | rfl | rfl | rfl | rfl | rfl | rfl | rfl | rfl | rfl | rfl | rfl |
    rfl | rfl | rfl | rfl | rfl | rfl
  · exact scan_space_taken reads
  · exact scan_bytes_taken d reads
  · exact scan_raw_taken d reads
  · exact scan_national_taken reads
  · exact scan_escaped_taken reads
  · exact scan_unicode_taken d reads
  · exact scan_hex_taken reads
  · exact scan_string_taken reads
  · exact scan_quoted_word_taken d reads
  · exact scan_number_taken reads
  · exact scan_mark_taken reads
  · exact scan_comment_taken reads
  · exact scan_division_taken d reads
  · exact scan_operator_taken d operators reads
  · exact scan_signed_word_taken d reads
  · exact scan_operator_taken d signs reads
  · exact scan_question_taken d reads
  · exact scan_word_taken d reads
  · exact scan_dollar_taken reads
  · exact scan_character_taken reads

end Token
end SqlCatalog
