import Mathlib
import SqlCatalog.Database.Connection
import SqlCatalog.Operation.Basic
import SqlCatalog.Proofs.MarkerTokens
/-!
Texts that begin with the word INSERT. An operation that inserts has one, and it stays one when its
markers are compiled (`single_insert`). The database runs such a text only where the word is spelled
in ASCII and stands alone, and then as an insertion (`runs_insertion`).
-/
namespace SqlCatalog

/-! ### The letters of INSERT -/

namespace Keyword

def SpellsInsert (word : List Char) : Prop := word.flatMap upperLetters = "INSERT".toList

theorem of_word_spelling {word : String} {k : Keyword} (read : ofWord? word = some k) :
    word.toList.flatMap upperLetters = k.spelling.toList := by
  have same := List.find?_some read
  exact (eq_of_beq same).symm

theorem upper_letters_alpha {c : Char} (alpha : c.isAlpha = true) :
    upperLetters c = [c.toUpper] := by
  unfold upperLetters
  split <;> first | rfl | exact absurd alpha (by decide)

-- The other characters whose upper case is made of ASCII letters.
def foreignLetters : List Char := ['ı', 'ſ', 'ß', 'ﬀ', 'ﬁ', 'ﬂ', 'ﬃ', 'ﬄ', 'ﬅ', 'ﬆ']

def IsLetter (c : Char) : Prop := c.isAlpha = true ∨ c ∈ foreignLetters

theorem upper_letters_cases {c u : Char} (upper : u ∈ upperLetters c) (ascii : u.isUpper = true) :
    IsLetter c := by
  unfold upperLetters at upper
  split at upper
  case h_11 =>
    rw [List.mem_singleton] at upper
    rw [upper, Char.isUpper_toUpper_eq_isAlpha] at ascii
    exact .inl ascii
  all_goals exact .inr (by decide)

theorem upper_letters_ne_nil (c : Char) : upperLetters c ≠ [] := by
  unfold upperLetters
  split <;> simp

theorem spells_letters {word : List Char} (spells : SpellsInsert word) : ∀ c ∈ word, IsLetter c := by
  intro c mem
  obtain ⟨u, upper⟩ := List.exists_mem_of_ne_nil _ (upper_letters_ne_nil c)
  have listed : u ∈ "INSERT".toList := by
    rw [← spells]
    exact List.mem_flatMap.mpr ⟨c, mem, upper⟩
  have ascii : "INSERT".toList.all Char.isUpper = true := by decide
  exact upper_letters_cases upper (List.all_eq_true.mp ascii u listed)

theorem spells_first {word : List Char} (spells : SpellsInsert word) :
    ∃ c cs, word = c :: cs ∧ c ≠ 'x' ∧ c ≠ 'X' := by
  cases word with
  | nil => cases spells
  | cons c cs =>
    refine ⟨c, cs, rfl, ?_, ?_⟩
    · rintro rfl
      simp [SpellsInsert, upperLetters] at spells
    · rintro rfl
      simp [SpellsInsert, upperLetters] at spells

theorem spells_lower {word : List Char} (spells : SpellsInsert word)
    (ascii : ∀ c ∈ word, c.isAlpha = true) : word.map Char.toLower = "insert".toList := by
  have lowered : ∀ cs : List Char, (∀ c ∈ cs, c.isAlpha = true) →
      (cs.flatMap upperLetters).map Char.toLower = cs.map Char.toLower := by
    intro cs alphas
    induction cs with
    | nil => rfl
    | cons c cs ih =>
      rw [List.flatMap_cons, upper_letters_alpha (alphas c (.head cs)), List.map_append,
        ih fun d mem => alphas d (.tail c mem)]
      simp
  rw [← lowered word ascii, spells]
  decide

theorem letter_lower {c : Char} (letter : IsLetter c) (lower : c.toLower.isLower = true) :
    c.isAlpha = true := by
  rcases letter with alpha | listed
  · exact alpha
  · rwa [Char.isLower_toLower_eq_isAlpha] at lower

end Keyword

open Keyword

theorem letter_harmless {c : Char} (letter : IsLetter c) : Marker.isHarmless c = true := by
  rcases letter with alpha | listed
  · exact Marker.harmless_of_class (by decide) alpha
  · exact List.all_eq_true.mp (by decide : foreignLetters.all Marker.isHarmless = true) c listed

theorem letter_not_blank {c : Char} (letter : IsLetter c) : Text.isBlank c = false := by
  rcases letter with alpha | listed
  · have bounds : 'A'.toNat ≤ c.toNat ∧ c.toNat ≤ 'z'.toNat := by
      simp [Char.isAlpha, Char.isUpper, Char.isLower, UInt32.le_iff_toNat_le] at alpha ⊢
      omega
    have ascii : c.val < 0x80 := by
      rw [UInt32.lt_iff_toNat_lt]
      exact Nat.lt_of_le_of_lt bounds.2 (by decide)
    rw [Text.isBlank, if_pos ascii]
    simp [UInt32.le_iff_toNat_le, ← UInt32.toNat_inj] at bounds ⊢
    omega
  · have unblank : foreignLetters.all (fun d => !Text.isBlank d) = true := by decide
    simpa using List.all_eq_true.mp unblank c listed

/-! ### Operations -/

def BeginsInsert (sql : String) : Prop :=
  ∃ word rest, sql.toList = word ++ rest ∧ SpellsInsert word

theorem of_markers_begins {sql : String} (begins : BeginsInsert sql) :
    BeginsInsert (CompiledSql.ofMarkers sql .sqlite).sql := by
  obtain ⟨word, rest, split, spells⟩ := begins
  have harmless : ∀ c ∈ word, Marker.isHarmless c = true :=
    fun c mem => letter_harmless (spells_letters spells c mem)
  have scan := Marker.scanned_harmless harmless rest
  rw [← split] at scan
  have front (names : List String) :
      String.join ((Marker.pieces .sqlite sql).map (·.compile .sqlite names)) = String.ofList word ++
        String.join ((Marker.scanned .sqlite .plain rest).map (·.compile .sqlite names)) := by
    rw [← Marker.join_pieces, ← Marker.join_characters .sqlite names word, ← String.join_append,
      ← List.map_append, ← scan]
    rfl
  have text := congrArg String.toList (front (Marker.names (Marker.pieces .sqlite sql)))
  rw [String.toList_append, String.toList_ofList] at text
  exact ⟨word, _, text, spells⟩

theorem squeezed_head (ts : List Token) :
    ∀ t ∈ (Token.squeezed ts).head?, t.isSignificant = true := by
  induction ts with
  | nil => simp [Token.squeezed]
  | cons t ts ih =>
    by_cases significant : t.isSignificant = true
    · simp [Token.squeezed, significant]
    · simpa [Token.squeezed, significant] using ih

theorem insert_begins (s : Statement) (inserts : s.isInsert = true) : BeginsInsert s.sql := by
  cases tokens : s.tokens with
  | nil => exact absurd tokens s.tokens_ne_nil
  | cons t ts =>
    have significant : t.isSignificant = true := by
      have first := squeezed_head s.tokens
      rw [s.tokens_squeezed, tokens] at first
      exact first t rfl
    have solid : t.isBlank = false := by simp_all [Token.isSignificant]
    have keyword : t.isKeyword .insert = true := by
      simpa [Statement.isInsert, Statement.significant, tokens, solid] using inserts
    cases t with
    | word text quote =>
      cases quote with
      | none =>
        have read : Keyword.ofWord? text = some .insert := eq_of_beq keyword
        refine ⟨text.toList, (Token.concat ts).toList, ?_, of_word_spelling read⟩
        rw [Statement.sql, tokens, Token.concat_cons, String.toList_append]
        rfl
      | some quote => cases keyword
    | _ => cases keyword

theorem single_insert_cases {l : StatementList} (single : Category.ofStatements l = .singleInsert) :
    l.first.isInsert = true ∧ l.statements = [l.first] := by
  unfold Category.ofStatements Category.ofQuery at single
  split at single
  · next inserts =>
    split at single
    · next one =>
      obtain ⟨s, only⟩ := List.length_eq_one_iff.mp one
      refine ⟨inserts, ?_⟩
      simp only [StatementList.first, only, List.head_cons]
    · cases single
  · repeat' split at single
    all_goals cases single

theorem single_insert {name : String} {l : StatementList}
    (single : (Operation.ofStatements name l .sqlite).category = .singleInsert) :
    (Operation.ofStatements name l .sqlite).others = [] ∧
      (Operation.ofStatements name l .sqlite).script = none ∧
      BeginsInsert (Operation.ofStatements name l .sqlite).first.sql := by
  have category : Category.ofStatements l = .singleInsert := single
  obtain ⟨inserts, only⟩ := single_insert_cases category
  refine ⟨?_, ?_, of_markers_begins (insert_begins l.first inserts)⟩
  · simp only [Operation.ofStatements, only, List.tail_cons, List.map_nil, ite_self]
  · simp [Operation.ofStatements, category]

/-! ### The database -/

namespace Database

theorem letter_continues {c : Char} (letter : IsLetter c) : isNameChar c = true := by
  rcases letter with alpha | listed
  · simp [isNameChar, startsName, alpha]
  · exact List.all_eq_true.mp (by decide : foreignLetters.all isNameChar = true) c listed

theorem letter_starts {c : Char} (letter : IsLetter c) : startsName c = true := by
  rcases letter with alpha | listed
  · simp [startsName, alpha]
  · exact List.all_eq_true.mp (by decide : foreignLetters.all startsName = true) c listed

theorem letter_not_digit {c : Char} (letter : IsLetter c) : c.isDigit = false := by
  rcases letter with alpha | listed
  · simp [Char.isAlpha, Char.isUpper, Char.isLower, Char.isDigit, UInt32.le_iff_toNat_le] at alpha ⊢
    omega
  · have digitless : foreignLetters.all (fun d => !d.isDigit) = true := by decide
    simpa using List.all_eq_true.mp digitless c listed

def marks : List Char :=
  ['\'', '"', '`', '[', '.', '?', ':', '@', '$', '#', '=', '-', '/', '\ufeff', '\x00', ' ', '\t',
    '\n', '\x0c', '\r']

theorem letter_not_mark {c : Char} (letter : IsLetter c) : ∀ d ∈ marks, c ≠ d := by
  rintro d mark rfl
  rcases letter with alpha | listed
  · have marked : marks.all (fun d => !d.isAlpha) = true := by decide
    simpa [alpha] using List.all_eq_true.mp marked c mark
  · have marked : marks.all (fun d => !foreignLetters.contains d) = true := by decide
    simpa [listed] using List.all_eq_true.mp marked c mark

theorem kind_word {c : Char} {cs : List Char} (letter : IsLetter c) (unhexed : c ≠ 'x' ∧ c ≠ 'X') :
    kindFrom c cs = (.word, cs.dropWhile isNameChar) := by
  have unmarked := letter_not_mark letter
  simp only [marks, List.forall_mem_cons] at unmarked
  simp [kindFrom, unmarked, letter_not_digit letter, letter_starts letter, unhexed]

theorem behind_blanks_letter {c : Char} (cs : List Char) (letter : IsLetter c) :
    behindBlanks (c :: cs) = c :: cs := by
  have unmarked := letter_not_mark letter
  simp only [marks, List.forall_mem_cons] at unmarked
  have none : behindBlank? (c :: cs) = none := by
    simp [behindBlank?, startsSpace, unmarked]
  rw [behindBlanks]
  split
  · next found =>
    rw [none] at found
    cases found
  · rfl

theorem lexemes_word {c : Char} {cs : List Char} (rest : List Char)
    (letters : ∀ d ∈ c :: cs, IsLetter d) (unhexed : c ≠ 'x' ∧ c ≠ 'X') :
    ∃ more behind others, lexemes (c :: (cs ++ rest)) =
      ⟨.word, String.ofList (c :: (cs ++ more)), behind⟩ :: others := by
  have front : (c :: (cs ++ rest)).takeWhile (· != '\x00') =
      c :: (cs ++ rest.takeWhile (· != '\x00')) := by
    rw [← List.cons_append, List.takeWhile_append_of_pos fun d mem => ?_]
    · rfl
    · simpa using letter_not_mark (letters d mem) '\x00' (by decide)
  rw [lexemes, front, behind_blanks_letter _ (letters c (.head cs)), lexemesFrom,
    kind_word (letters c (.head cs)) unhexed]
  generalize rest.takeWhile (· != '\x00') = text
  have kept : (cs ++ text).dropWhile isNameChar = text.dropWhile isNameChar :=
    List.dropWhile_append_of_pos fun d mem => letter_continues (letters d (.tail c mem))
  have whole : c :: (cs ++ text) =
      (c :: (cs ++ text.takeWhile isNameChar)) ++ text.dropWhile isNameChar := by
    rw [List.cons_append, List.append_assoc, List.takeWhile_append_dropWhile]
  have spelled : (c :: (cs ++ text)).take ((cs ++ text).length + 1 -
      (text.dropWhile isNameChar).length) = c :: (cs ++ text.takeWhile isNameChar) := by
    rw [whole]
    refine List.take_left' ?_
    have length := congrArg List.length whole
    simp only [List.length_cons, List.length_append] at length ⊢
    omega
  dsimp only
  rw [kept, spelled]
  exact ⟨_, _, _, rfl⟩

theorem statements_word {text : List Char} {l : Lexeme} {ls : List Lexeme}
    (reads : lexemes text = l :: ls) (unended : l.isMark ';' = false) :
    ∃ others more, statements text = (l :: others) :: more := by
  rw [statements, reads, divided, unended, if_neg (by simp)]
  cases divided ls with
  | nil => exact ⟨[], [], rfl⟩
  | cons others more => exact ⟨others, _, rfl⟩

theorem trimmed_word {c : Char} {cs : List Char} (rest : List Char)
    (letters : ∀ d ∈ c :: cs, IsLetter d) :
    ∃ shorter, Connection.trimmed (c :: (cs ++ rest)) = c :: (cs ++ shorter) := by
  have solid (d : Char) (mem : d ∈ c :: cs) : ¬ Text.isBlank d = true := by
    simp [letter_not_blank (letters d mem)]
  have kept : (c :: cs).reverse.dropWhile Text.isBlank = (c :: cs).reverse := by
    rw [List.dropWhile_eq_self_iff]
    intro some
    exact solid _ (List.mem_reverse.mp (List.getElem_mem some))
  refine ⟨(rest.reverse.dropWhile Text.isBlank).reverse, ?_⟩
  rw [Connection.trimmed, List.dropWhile_cons_of_neg (solid c (.head cs)), ← List.cons_append,
    List.reverse_append, List.dropWhile_append, kept]
  split
  · next none =>
    rw [List.isEmpty_iff.mp none, List.reverse_reverse, List.reverse_nil, List.append_nil]
  · rw [List.reverse_append, List.reverse_reverse, List.cons_append]

theorem only_statement_word {sql : String} {c : Char} {cs rest : List Char}
    {statement : List Lexeme} (split : sql.toList = c :: (cs ++ rest))
    (letters : ∀ d ∈ c :: cs, IsLetter d) (unhexed : c ≠ 'x' ∧ c ≠ 'X')
    (reads : Connection.onlyStatement sql = .ok statement) :
    ∃ more behind others,
      statement = ⟨.word, String.ofList (c :: (cs ++ more)), behind⟩ :: others := by
  obtain ⟨shorter, trims⟩ := trimmed_word rest letters
  obtain ⟨more, behind, later, lexed⟩ := lexemes_word shorter letters unhexed
  obtain ⟨others, further, parts⟩ := statements_word lexed rfl
  rw [Connection.onlyStatement, split, trims, parts] at reads
  cases further with
  | nil =>
    cases reads
    exact ⟨more, behind, others, rfl⟩
  | cons next further => cases reads

/-! ### Insertions among the commands -/

def leading : List String :=
  ["create", "insert", "replace", "update", "delete", "select", "begin", "commit", "end", "rollback"]

theorem insertion_inserts {conflict : Conflict} {ls : List Lexeme} {command : Command}
    (reads : insertion? conflict ls = some command) :
    ∃ rows returning, command = .insert conflict rows returning := by
  simp only [insertion?, bind, Option.bind_eq_some_iff] at reads
  obtain ⟨⟨columns, ls⟩, -, ls, -, rows, -, made⟩ := reads
  split at made
  · cases made
    exact ⟨rows, false, rfl⟩
  · split at made
    · cases made
      exact ⟨rows, true, rfl⟩
    · cases made

theorem forms_leading : ∀ form ∈ forms, ∃ k ∈ leading, ∃ parts, form.1 = .keyword k :: parts ∧
    (k = "insert" → ∃ conflict, form.2 = insertion? conflict) := by
  intro form mem
  simp only [forms, forms.words, forms.modes, List.map_cons, List.map_nil, List.cons_append,
    List.nil_append, List.mem_cons, List.not_mem_nil, or_false] at mem
  rcases mem with rfl | rfl | rfl | rfl | rfl | rfl | rfl | rfl | rfl | rfl | rfl | rfl | rfl | rfl |
    rfl | rfl | rfl
  all_goals refine ⟨_, ?_, _, rfl, ?_⟩
  all_goals
    first
    | decide
    | exact fun same => absurd same (by decide)
    | exact fun _ => ⟨_, rfl⟩

theorem command_leading {l : Lexeme} {ls : List Lexeme} {command : Command}
    (word : l.kind = .word) (meaning : Command.ofLexemes? (l :: ls) = some command) :
    ∃ k ∈ leading, l.spelling.toLower = k ∧
      (k = "insert" → ∃ conflict rows returning, command = .insert conflict rows returning) := by
  have unnumbered : numbered ⟨0, []⟩ (l :: ls) = l :: numbered ⟨0, []⟩ ls := by
    rw [numbered, word]
  rw [Command.ofLexemes?, unnumbered] at meaning
  obtain ⟨⟨parts, rest?⟩, mem, made⟩ := List.exists_of_findSome?_eq_some meaning
  obtain ⟨k, listed, parts, rfl, inserts⟩ := forms_leading _ mem
  dsimp only [expect?] at made inserts
  by_cases fits : (Part.keyword k).fits l = true
  · simp only [Part.fits, Lexeme.isKeyword, Bool.and_eq_true, beq_iff_eq] at fits
    refine ⟨k, listed, fits.2, fun same => ?_⟩
    obtain ⟨conflict, rfl⟩ := inserts same
    obtain ⟨rest, -, read⟩ := Option.bind_eq_some_iff.mp made
    obtain ⟨rows, returning, made⟩ := insertion_inserts read
    exact ⟨conflict, rows, returning, made⟩
  · rw [if_neg fits] at made
    cases made

theorem leading_insert {more : List Char} {k : String} (listed : k ∈ leading)
    (same : "insert".toList ++ more = k.toList) : k = "insert" ∧ more = [] := by
  simp only [leading, List.mem_cons, List.not_mem_nil, or_false] at listed
  rcases listed with rfl | rfl | rfl | rfl | rfl | rfl | rfl | rfl | rfl | rfl
  case inr.inl => exact ⟨rfl, List.append_right_eq_self.mp same⟩
  all_goals cases same

theorem leading_alpha {word more : List Char} {k : String} (listed : k ∈ leading)
    (letters : ∀ c ∈ word, IsLetter c) (lower : word.map Char.toLower ++ more = k.toList) :
    ∀ c ∈ word, c.isAlpha = true := by
  intro c mem
  have all : leading.all (fun k => k.toList.all Char.isLower) = true := by decide
  have small := List.all_eq_true.mp (List.all_eq_true.mp all k listed)
  refine letter_lower (letters c mem) (small _ ?_)
  rw [← lower]
  exact List.mem_append_left _ (List.mem_map_of_mem mem)

theorem is_insertion_word {sql : String} {word rest : List Char} (split : sql.toList = word ++ rest)
    (ascii : ∀ c ∈ word, c.isAlpha = true) (lower : word.map Char.toLower = "insert".toList)
    (alone : rest.takeWhile Char.isAlpha = []) : isInsertion sql = true := by
  have unblank : (word ++ rest).dropWhile Text.isBlank = word ++ rest := by
    cases word with
    | nil => cases lower
    | cons c cs =>
      have solid := letter_not_blank (.inl (ascii c (.head cs)))
      rw [List.cons_append, List.dropWhile_cons_of_neg (by simp [solid])]
  have taken : (sql.toList.dropWhile Text.isBlank).takeWhile Char.isAlpha = word := by
    rw [split, unblank, List.takeWhile_append_of_pos ascii, alone, List.append_nil]
  have spelled : (String.ofList word).toLower = "insert" := by
    rw [← String.toList_inj, ← lower]
    simp [String.toLower]
  unfold isInsertion
  dsimp only
  rw [taken, spelled]
  rfl

-- A text that begins with INSERT and has a meaning to the database is an insertion, and the word is
-- just that.
theorem runs_insertion {sql : String} {statement : List Lexeme} {command : Command}
    (begins : BeginsInsert sql) (reads : Connection.onlyStatement sql = .ok statement)
    (meaning : Command.ofLexemes? statement = some command) :
    isInsertion sql = true ∧
      ∃ conflict rows returning, command = .insert conflict rows returning := by
  obtain ⟨word, rest, split, spells⟩ := begins
  obtain ⟨c, cs, rfl, unhexed⟩ := spells_first spells
  -- All the letters at the beginning, so that the first word of the database has them all.
  have letters : ∀ d ∈ c :: (cs ++ rest.takeWhile Char.isAlpha), IsLetter d := by
    intro d mem
    rcases List.mem_append.mp (List.cons_append ▸ mem : d ∈ (c :: cs) ++ _) with own | alpha
    · exact spells_letters spells d own
    · exact .inl (List.mem_takeWhile_imp alpha)
  have further : sql.toList =
      c :: (cs ++ rest.takeWhile Char.isAlpha ++ rest.dropWhile Char.isAlpha) := by
    rw [split, List.append_assoc, List.takeWhile_append_dropWhile, List.cons_append]
  obtain ⟨more, behind, others, rfl⟩ := only_statement_word further letters unhexed reads
  obtain ⟨k, listed, lower, inserts⟩ := command_leading rfl meaning
  have lowered : (c :: cs).map Char.toLower ++
      (rest.takeWhile Char.isAlpha ++ more).map Char.toLower = k.toList := by
    rw [← lower]
    simp [String.toLower]
  have ascii := leading_alpha listed (spells_letters spells) lowered
  have small := spells_lower spells ascii
  rw [small] at lowered
  obtain ⟨rfl, none⟩ := leading_insert listed lowered
  have alone : rest.takeWhile Char.isAlpha = [] :=
    (List.append_eq_nil_iff.mp (List.map_eq_nil_iff.mp none)).1
  exact ⟨is_insertion_word split ascii small alone, inserts rfl⟩

end Database

end SqlCatalog
