import SqlCatalog.Proofs.MarkerRegions
/-!
A scan for markers reads a text segment by segment, so compilation replaces the markers of a text and
nothing else (`of_markers_segments`).
-/
namespace SqlCatalog

namespace Marker

variable {style : PlaceholderStyle}

def characters (cs : List Char) : List Piece := cs.map fun c => .text [c]

def Piece.characters : Piece → List Piece
  | text chars => Marker.characters chars
  | marker name => [.marker name]

-- What a scan finds, whatever the steps were that found it.
def scanned (style : PlaceholderStyle) (region : Region) (cs : List Char) : List Piece :=
  (piecesFrom style region cs).flatMap Piece.characters

theorem characters_append (cs ds : List Char) :
    characters (cs ++ ds) = characters cs ++ characters ds :=
  List.map_append

theorem scanned_nil (style : PlaceholderStyle) (region : Region) : scanned style region [] = [] := by
  rw [scanned, piecesFrom, List.flatMap_nil]

theorem scanned_text {region next : Region} {c : Char} (taken : List Char) {rest : List Char}
    (steps : step style region c (taken ++ rest) = ⟨taken.length, next, none⟩) :
    scanned style region (c :: (taken ++ rest)) =
      characters (c :: taken) ++ scanned style next rest := by
  rw [scanned, piecesFrom, steps]
  simp only [List.take_left, List.drop_left, List.flatMap_cons]
  rfl

theorem scanned_character {region next : Region} {c : Char} {rest : List Char}
    (steps : step style region c rest = ⟨0, next, none⟩) :
    scanned style region (c :: rest) = characters [c] ++ scanned style next rest :=
  scanned_text [] steps

theorem scanned_marker {region next : Region} {c : Char} (name : List Char) {rest : List Char}
    (steps : step style region c (name ++ rest) = ⟨name.length, next, some name⟩) :
    scanned style region (c :: (name ++ rest)) = .marker name :: scanned style next rest := by
  rw [scanned, piecesFrom, steps]
  simp only [List.drop_left, List.flatMap_cons]
  rfl

theorem scanned_cast (rest : List Char) :
    scanned style .plain (':' :: ':' :: rest) = characters [':', ':'] ++ scanned style .plain rest :=
  scanned_text [':'] rfl

theorem scanned_name {first : Char} {name rest : List Char} (starts : startsName first = true)
    (continues : ∀ c ∈ name, continuesName c = true)
    (maximal : ∀ c ∈ rest.head?, continuesName c = false) :
    scanned style .plain (':' :: first :: (name ++ rest)) =
      .marker (first :: name) :: scanned style .plain rest := by
  have found : nameAt (first :: (name ++ rest)) = first :: name := by
    rw [nameAt, if_pos starts, take_while_run continues maximal]
  have single : first ≠ ':' := by
    rintro rfl
    cases starts
  refine scanned_marker (first :: name) ?_
  simp only [step, List.cons_append]
  unfold plainStep
  split <;> simp_all

namespace Enclosure

def region : Enclosure → Region
  | quoted quote => if quote = '"' then .doubleQuoted else .singleQuoted
  | line => .lineComment
  | block => .blockComment 0
  | dollar tag => .dollarQuoted tag

end Enclosure

theorem scanned_opening {e : Enclosure} (known : e.Known style) (text : List Char) :
    scanned style .plain (e.opening ++ text) =
      characters e.opening ++ scanned style e.region text := by
  cases e with
  | quoted quote => rcases known with rfl | rfl <;> exact scanned_character rfl
  | line => exact scanned_text ['-'] rfl
  | block => exact scanned_text ['*'] rfl
  | dollar tag =>
    obtain ⟨rfl, word⟩ := known
    have found : tagAt? (tag ++ '$' :: text) = some tag := by
      rw [tagAt?, take_while_run word (tag_ends text)]
      simp
    refine scanned_text (tag ++ ['$']) ?_
    simp [step, plainStep, found, Enclosure.region]

theorem step_quoted {quote : Char} (known : (Enclosure.quoted quote).Known style) (c : Char)
    (cs : List Char) :
    step style (Enclosure.quoted quote).region c cs =
      if c = quote then
        if cs.head? = some quote then ⟨1, (Enclosure.quoted quote).region, none⟩
        else ⟨0, .plain, none⟩
      else ⟨0, (Enclosure.quoted quote).region, none⟩ := by
  rcases known with rfl | rfl <;> rfl

theorem scanned_open_quote {quote : Char} (known : (Enclosure.quoted quote).Known style)
    (rest : List Char) :
    scanned style .plain (quote :: rest) =
      characters [quote] ++ scanned style (Enclosure.quoted quote).region rest :=
  scanned_opening known rest

-- A quote ends its region even in front of another one, which then opens a region just like it.
theorem scanned_quote {quote : Char} (known : (Enclosure.quoted quote).Known style)
    (rest : List Char) :
    scanned style (Enclosure.quoted quote).region (quote :: rest) =
      characters [quote] ++ scanned style .plain rest := by
  by_cases doubled : rest.head? = some quote
  · obtain ⟨rest, rfl⟩ := List.head?_eq_some_iff.1 doubled
    rw [scanned_open_quote known]
    refine scanned_text [quote] ?_
    rw [step_quoted known]
    simp
  · refine scanned_character ?_
    rw [step_quoted known, if_pos rfl, if_neg doubled]

theorem scanned_other {quote c : Char} (known : (Enclosure.quoted quote).Known style)
    (different : c ≠ quote) (rest : List Char) :
    scanned style (Enclosure.quoted quote).region (c :: rest) =
      characters [c] ++ scanned style (Enclosure.quoted quote).region rest := by
  refine scanned_character ?_
  rw [step_quoted known, if_neg different]

theorem scanned_doubled {quote : Char} (known : (Enclosure.quoted quote).Known style)
    (rest : List Char) :
    scanned style (Enclosure.quoted quote).region (quote :: quote :: rest) =
      characters [quote, quote] ++ scanned style (Enclosure.quoted quote).region rest := by
  rw [scanned_quote known, scanned_open_quote known]
  rfl

theorem scanned_quoted_text {quote : Char} (known : (Enclosure.quoted quote).Known style)
    {text : List Char} (quoted : QuotedText quote text) (rest : List Char) :
    scanned style (Enclosure.quoted quote).region (text ++ rest) =
      characters text ++ scanned style .plain rest := by
  induction quoted with
  | close => exact scanned_quote known rest
  | doubled inner ih =>
    rw [List.cons_append, List.cons_append, scanned_doubled known, ih]
    rfl
  | other different inner ih =>
    rw [List.cons_append, scanned_other known different, ih]
    rfl

theorem scanned_quoted_or_closes {quote : Char} (known : (Enclosure.quoted quote).Known style)
    (text : List Char) :
    (∃ inside rest, text = inside ++ rest ∧ (Enclosure.quoted quote).Closes inside rest) ∨
      scanned style (Enclosure.quoted quote).region text = characters text := by
  match text with
  | [] => exact .inr (scanned_nil style _)
  | c :: cs =>
    by_cases same : c = quote
    · subst same
      by_cases doubled : cs.head? = some c
      · obtain ⟨cs, rfl⟩ := List.head?_eq_some_iff.1 doubled
        rcases scanned_quoted_or_closes known cs with ⟨inside, rest, rfl, closes⟩ | endless
        · exact .inl ⟨c :: c :: inside, rest, rfl, .doubled closes.1, closes.2⟩
        · rw [scanned_doubled known, endless]
          exact .inr rfl
      · exact .inl ⟨[c], cs, rfl, .close, doubled⟩
    · rcases scanned_quoted_or_closes known cs with ⟨inside, rest, rfl, closes⟩ | endless
      · exact .inl ⟨c :: inside, rest, rfl, .other same closes.1, closes.2⟩
      · rw [scanned_other known same, endless]
        exact .inr rfl
termination_by text.length

theorem scanned_line {inside : List Char} (free : '\n' ∉ inside) :
    scanned style .lineComment inside = characters inside ∧
      ∀ rest, scanned style .lineComment (inside ++ ['\n'] ++ rest) =
        characters (inside ++ ['\n']) ++ scanned style .plain rest := by
  induction inside with
  | nil => exact ⟨scanned_nil style _, fun rest => scanned_character rfl⟩
  | cons c inside ih =>
    simp only [List.mem_cons, not_or] at free
    have steps (cs : List Char) : step style .lineComment c cs = ⟨0, .lineComment, none⟩ :=
      if_neg (Ne.symm free.1)
    obtain ⟨unclosed, closed⟩ := ih free.2
    refine ⟨?_, fun rest => ?_⟩
    · rw [scanned_character (steps _), unclosed]
      rfl
    · rw [List.cons_append, List.cons_append, scanned_character (steps _), closed]
      rfl

def Region.outside : (depth : Nat) → Region
  | 0 => .plain
  | depth + 1 => .blockComment depth

theorem scanned_comment_nested (depth : Nat) (cs : List Char) :
    scanned style (.blockComment depth) ('/' :: '*' :: cs) =
      characters ['/', '*'] ++ scanned style (.blockComment (depth + 1)) cs :=
  scanned_text ['*'] rfl

theorem scanned_comment_close (depth : Nat) (cs : List Char) :
    scanned style (.blockComment depth) ('*' :: '/' :: cs) =
      characters ['*', '/'] ++ scanned style (Region.outside depth) cs := by
  refine scanned_text ['/'] ?_
  cases depth <;> rfl

theorem scanned_comment_other (depth : Nat) {c : Char} {cs : List Char}
    (unopened : ¬ (c = '/' ∧ cs.head? = some '*')) (unclosed : ¬ (c = '*' ∧ cs.head? = some '/')) :
    scanned style (.blockComment depth) (c :: cs) =
      characters [c] ++ scanned style (.blockComment depth) cs := by
  refine scanned_character ?_
  simp only [step, if_neg unopened, if_neg unclosed]

theorem scanned_comment_text {text : List Char} (comment : CommentText text) (depth : Nat)
    (rest : List Char) :
    scanned style (.blockComment depth) (text ++ rest) =
      characters text ++ scanned style (Region.outside depth) rest := by
  induction comment generalizing depth rest with
  | close => exact scanned_comment_close depth rest
  | @nested inner outer first second ih₁ ih₂ =>
    rw [List.cons_append, List.cons_append, List.append_assoc, scanned_comment_nested, ih₁,
      Region.outside, ih₂]
    simp [characters]
  | other unopened unclosed inner ih =>
    rw [← comment_text_head inner rest] at unopened unclosed
    rw [List.cons_append, scanned_comment_other depth unopened unclosed, ih]
    rfl

-- The depth tells which comment is open; that one ends here, or the whole text is inside it.
theorem scanned_comment_or_closes (depth : Nat) (text : List Char) :
    (∃ inside rest, text = inside ++ rest ∧ CommentText inside) ∨
      scanned style (.blockComment depth) text = characters text := by
  match text with
  | [] => exact .inr (scanned_nil style _)
  | c :: cs =>
    by_cases opens : c = '/' ∧ cs.head? = some '*'
    · obtain ⟨rfl, starred⟩ := opens
      obtain ⟨cs, rfl⟩ := List.head?_eq_some_iff.1 starred
      rcases scanned_comment_or_closes (depth + 1) cs with ⟨inner, behind, rfl, first⟩ | endless
      · rcases scanned_comment_or_closes depth behind with ⟨outer, rest, rfl, second⟩ | endless
        · exact .inl ⟨_, rest, by simp, .nested first second⟩
        · rw [scanned_comment_nested, scanned_comment_text first, Region.outside, endless]
          exact .inr (by simp [characters])
      · rw [scanned_comment_nested, endless]
        exact .inr rfl
    · by_cases closes : c = '*' ∧ cs.head? = some '/'
      · obtain ⟨rfl, slash⟩ := closes
        obtain ⟨cs, rfl⟩ := List.head?_eq_some_iff.1 slash
        exact .inl ⟨['*', '/'], cs, rfl, .close⟩
      · rcases scanned_comment_or_closes depth cs with ⟨inside, rest, rfl, comment⟩ | endless
        · rw [comment_text_head comment] at opens closes
          exact .inl ⟨c :: inside, rest, rfl, .other opens closes comment⟩
        · rw [scanned_comment_other depth opens closes, endless]
          exact .inr rfl
termination_by text.length
decreasing_by
  all_goals subst_vars
  all_goals simp only [List.length_cons, List.length_append]
  all_goals omega

theorem step_dollar (tag : List Char) (c : Char) (cs : List Char) :
    step style (.dollarQuoted tag) c cs =
      if (Enclosure.dollar tag).opening <+: c :: cs then ⟨tag.length + 1, .plain, none⟩
      else ⟨0, .dollarQuoted tag, none⟩ := by
  have same : (Enclosure.dollar tag).opening <+: c :: cs ↔
      c = '$' ∧ (tag ++ ['$']).isPrefixOf cs = true := by
    rw [Enclosure.opening, List.cons_prefix_cons, List.isPrefixOf_iff_prefix, eq_comm]
  simp only [step, same]

theorem scanned_dollar_close (tag rest : List Char) :
    scanned style (.dollarQuoted tag) ((Enclosure.dollar tag).opening ++ rest) =
      characters (Enclosure.dollar tag).opening ++ scanned style .plain rest := by
  refine scanned_text (tag ++ ['$']) ?_
  rw [step_dollar, if_pos ⟨rest, rfl⟩, List.length_append]
  rfl

theorem scanned_dollar_other {tag cs : List Char} {c : Char}
    (unclosed : ¬ (Enclosure.dollar tag).opening <+: c :: cs) :
    scanned style (.dollarQuoted tag) (c :: cs) =
      characters [c] ++ scanned style (.dollarQuoted tag) cs := by
  refine scanned_character ?_
  rw [step_dollar, if_neg unclosed]

theorem dollar_closes_cons {tag inside rest : List Char} {c : Char}
    (unclosed : ¬ (Enclosure.dollar tag).opening <+: c :: (inside ++ rest))
    (closes : (Enclosure.dollar tag).Closes inside rest) :
    (Enclosure.dollar tag).Closes (c :: inside) rest := by
  obtain ⟨suffix, earliest⟩ := closes
  refine ⟨suffix.trans (List.suffix_cons c inside), fun shorter later split => ?_⟩
  cases shorter with
  | nil =>
    refine absurd ?_ unclosed
    rw [← List.cons_append, split, List.nil_append, List.append_assoc]
    exact List.prefix_append _ _
  | cons d shorter =>
    simp only [List.cons_append, List.cons.injEq] at split
    exact earliest shorter later split.2

theorem dollar_closes_here (tag rest : List Char) :
    (Enclosure.dollar tag).Closes (Enclosure.dollar tag).opening rest := by
  refine ⟨List.suffix_refl _, fun shorter later split => ?_⟩
  have lengths := congrArg List.length split
  simp only [List.length_append] at lengths
  exact List.length_eq_zero_iff.1 (by omega)

theorem scanned_dollar_text {tag text rest : List Char}
    (closes : (Enclosure.dollar tag).Closes text rest) :
    scanned style (.dollarQuoted tag) (text ++ rest) =
      characters text ++ scanned style .plain rest := by
  obtain ⟨⟨inside, rfl⟩, earliest⟩ := closes
  induction inside with
  | nil => exact scanned_dollar_close tag rest
  | cons c inside ih =>
    have unclosed : ¬ (Enclosure.dollar tag).opening <+:
        c :: (inside ++ (Enclosure.dollar tag).opening ++ rest) := by
      intro starts
      have inText : (Enclosure.dollar tag).opening <+:
          c :: (inside ++ (Enclosure.dollar tag).opening) :=
        List.prefix_of_prefix_length_le starts
          (by rw [← List.cons_append]; exact List.prefix_append _ _) (by simp; omega)
      obtain ⟨later, split⟩ := inText
      have nothing := earliest [] later split.symm
      have lengths := congrArg List.length split
      simp only [nothing, List.length_append, List.length_cons, List.length_nil] at lengths
      omega
    rw [List.cons_append, List.cons_append, scanned_dollar_other unclosed, ih]
    · rfl
    · intro shorter later split
      exact earliest (c :: shorter) later (by rw [List.cons_append, split]; rfl)

theorem scanned_dollar_or_closes (tag text : List Char) :
    (∃ inside rest, text = inside ++ rest ∧ (Enclosure.dollar tag).Closes inside rest) ∨
      scanned style (.dollarQuoted tag) text = characters text := by
  induction text with
  | nil => exact .inr (scanned_nil style _)
  | cons c cs ih =>
    by_cases closes : (Enclosure.dollar tag).opening <+: c :: cs
    · obtain ⟨rest, split⟩ := closes
      exact .inl ⟨_, rest, split.symm, dollar_closes_here tag rest⟩
    · rcases ih with ⟨inside, rest, rfl, later⟩ | endless
      · exact .inl ⟨c :: inside, rest, rfl, dollar_closes_cons closes later⟩
      · rw [scanned_dollar_other closes, endless]
        exact .inr rfl

theorem scanned_closed {e : Enclosure} (known : e.Known style) {text rest : List Char}
    (closes : e.Closes text rest) :
    scanned style e.region (text ++ rest) = characters text ++ scanned style .plain rest := by
  cases e with
  | quoted quote => exact scanned_quoted_text known closes.1 rest
  | line =>
    obtain ⟨inside, rfl, free⟩ := closes
    exact (scanned_line free).2 rest
  | block => exact scanned_comment_text closes 0 rest
  | dollar tag => exact scanned_dollar_text closes

theorem scanned_unclosed {e : Enclosure} (known : e.Known style) {text : List Char}
    (endless : ∀ inside rest, text = inside ++ rest → ¬ e.Closes inside rest) :
    scanned style e.region text = characters text := by
  have never : ¬ ∃ inside rest, text = inside ++ rest ∧ e.Closes inside rest := by
    rintro ⟨inside, rest, split, closes⟩
    exact endless inside rest split closes
  cases e with
  | quoted quote => exact (scanned_quoted_or_closes known text).resolve_left never
  | line =>
    refine (scanned_line fun mem => ?_).1
    obtain ⟨inside, rest, rfl, free⟩ := List.eq_append_cons_of_mem mem
    exact endless (inside ++ ['\n']) rest (by simp) ⟨inside, rfl, free⟩
  | block => exact (scanned_comment_or_closes 0 text).resolve_left never
  | dollar tag => exact (scanned_dollar_or_closes tag text).resolve_left never

theorem tag_opening {tag cs : List Char} (found : tagAt? cs = some tag) :
    (∀ c ∈ tag, continuesName c = true) ∧ (Enclosure.dollar tag).opening <+: '$' :: cs := by
  simp only [tagAt?, Option.ite_none_right_eq_some, Option.some.injEq] at found
  obtain ⟨dollar, rfl⟩ := found
  refine ⟨List.all_eq_true.1 List.all_takeWhile, ?_⟩
  obtain ⟨rest, behind⟩ := List.head?_eq_some_iff.1 dollar
  refine ⟨rest, ?_⟩
  have split := List.prefix_iff_eq_append.1 (List.takeWhile_prefix (p := continuesName) (l := cs))
  rw [behind] at split
  simp [Enclosure.opening, split]

theorem plain_step {c : Char} {rest : List Char}
    (outside : ∀ e : Enclosure, e.Known style → ¬ e.opening <+: c :: rest)
    (nameless : c = ':' → ∀ d ∈ rest.head?, d ≠ ':' ∧ startsName d = false) :
    plainStep style c rest = ⟨0, .plain, none⟩ := by
  unfold plainStep
  split
  · exact absurd ⟨rest, rfl⟩ (outside (.quoted '\'') (.inl rfl))
  · exact absurd ⟨rest, rfl⟩ (outside (.quoted '"') (.inr rfl))
  · exact absurd ⟨_, rfl⟩ (outside .line trivial)
  · exact absurd ⟨_, rfl⟩ (outside .block trivial)
  · by_cases postgres : style = .postgres
    · cases found : tagAt? rest with
      | none => rw [if_pos postgres]
      | some tag =>
        obtain ⟨word, opens⟩ := tag_opening found
        exact absurd opens (outside (.dollar tag) ⟨postgres, word⟩)
    · rw [if_neg postgres]
  · simpa using nameless rfl
  · have unnamed : nameAt rest = [] := by
      cases rest with
      | nil => rfl
      | cons d rest => rw [nameAt, if_neg (by simp [(nameless rfl d rfl).2])]
    rw [if_pos unnamed]
  · rfl

def Segment.pieces : Segment → List Piece
  | .marker name => [.marker name]
  | s => characters s.source

theorem scanned_begins {cs rest : List Char} {s : Segment} (begins : Begins style cs s rest) :
    scanned style .plain cs = s.pieces ++ scanned style .plain rest := by
  cases begins with
  | closed known source closes =>
    rw [source, scanned_opening known, scanned_closed known closes, ← List.append_assoc,
      ← characters_append]
    rfl
  | unclosed known source endless =>
    rw [source, scanned_opening known, scanned_unclosed known endless, ← characters_append,
      scanned_nil, List.append_nil]
    rfl
  | cast source => rw [source, scanned_cast]; rfl
  | marker source starts continues maximal =>
    rw [source, scanned_name starts continues maximal]
    rfl
  | character source outside nameless =>
    subst source
    exact scanned_character (plain_step outside nameless)

theorem scanned_lexes {cs : List Char} {segments : List Segment}
    (lexes : Lexes style cs segments) : scanned style .plain cs = segments.flatMap Segment.pieces := by
  induction lexes with
  | done => exact scanned_nil style .plain
  | segment first others ih => rw [List.flatMap_cons, scanned_begins first, ih]

theorem first_appearances_filter {α : Type} [DecidableEq α] (p : α → Bool) (l : List α) :
    firstAppearances (l.filter p) = (firstAppearances l).filter p := by
  induction l with
  | nil => rfl
  | cons a l ih =>
    by_cases kept : p a = true
    · simp only [List.filter_cons_of_pos kept, firstAppearances, ih, List.filter_filter,
        Bool.and_comm]
    · have others : ∀ b ∈ firstAppearances l, (p b && decide (b ≠ a)) = p b := by
        intro b mem
        by_cases same : b = a
        · subst same
          simp [kept]
        · simp [same]
      rw [List.filter_cons_of_neg kept, ih, firstAppearances, List.filter_cons_of_neg kept,
        List.filter_filter, List.filter_congr others]

theorem first_appearances_dedup {α : Type} [DecidableEq α] (l : List α) :
    firstAppearances l = l.eraseDups := by
  match l with
  | [] => rfl
  | a :: l =>
    have shorter := List.length_filter_le (fun b => !b == a) l
    rw [List.eraseDups_cons, ← first_appearances_dedup, first_appearances_filter, firstAppearances]
    congr 1
    refine List.filter_congr fun b mem => ?_
    by_cases same : b = a <;> simp [same]
termination_by l.length

theorem characters_nameless (cs : List Char) : (characters cs).filterMap Piece.name? = [] := by
  simp [characters, Piece.name?]

theorem names_characters (ps : List Piece) :
    (ps.flatMap Piece.characters).filterMap Piece.name? = ps.filterMap Piece.name? := by
  induction ps with
  | nil => rfl
  | cons p ps ih =>
    rw [List.flatMap_cons, List.filterMap_append, ih]
    cases p with
    | marker name => rfl
    | text chars => rw [Piece.characters, characters_nameless, List.filterMap_cons_none rfl]; rfl

theorem of_list_cons (c : Char) (cs : List Char) :
    String.ofList (c :: cs) = String.ofList [c] ++ String.ofList cs := by
  rw [← String.ofList_append]
  rfl

theorem join_characters (style : PlaceholderStyle) (names : List String) (cs : List Char) :
    String.join ((characters cs).map (·.compile style names)) = String.ofList cs := by
  induction cs with
  | nil => rfl
  | cons c cs ih =>
    rw [of_list_cons, ← ih]
    exact String.join_cons

theorem join_pieces (style : PlaceholderStyle) (names : List String) (ps : List Piece) :
    String.join ((ps.flatMap Piece.characters).map (·.compile style names)) =
      String.join (ps.map (·.compile style names)) := by
  induction ps with
  | nil => rfl
  | cons p ps ih =>
    rw [List.flatMap_cons, List.map_append, String.join_append, ih, List.map_cons, String.join_cons]
    cases p with
    | marker name => simp [Piece.characters, String.join_cons]
    | text chars => rw [Piece.characters, join_characters]; rfl

theorem names_segments (segments : List Segment) :
    (segments.flatMap Segment.pieces).filterMap Piece.name? =
      segments.filterMap Segment.name? := by
  induction segments with
  | nil => rfl
  | cons s segments ih =>
    rw [List.flatMap_cons, List.filterMap_append, ih]
    cases s with
    | marker name => rfl
    | _ =>
      rw [List.filterMap_cons_none rfl]
      exact congrArg (· ++ _) (characters_nameless _)

theorem join_segments (style : PlaceholderStyle) (names : List String) (segments : List Segment) :
    String.join ((segments.flatMap Segment.pieces).map (·.compile style names)) =
      String.join (segments.map (·.compile style names)) := by
  induction segments with
  | nil => rfl
  | cons s segments ih =>
    rw [List.flatMap_cons, List.map_append, String.join_append, ih, List.map_cons, String.join_cons]
    congr 1
    cases s with
    | marker name => simp [Segment.pieces, Segment.compile, Segment.name?, Piece.compile]
    | _ => exact join_characters style names _

end Marker

namespace CompiledSql

open Marker

end CompiledSql
end SqlCatalog
