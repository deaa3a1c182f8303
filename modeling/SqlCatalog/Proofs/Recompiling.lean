import SqlCatalog.Proofs.MarkerScan
/-!
Compiling leaves no marker behind: a compiled text is compiled to itself (`compiled_unmarked`). In
the place of a marker the second scan sees a placeholder, and in PostgreSQL two placeholders side by
side even open a region of their own.
-/
namespace SqlCatalog

namespace Marker

variable {style : PlaceholderStyle}

/-! ### What is written in the place of segments -/

def mark : PlaceholderStyle → Char
  | .postgres => '$'
  | _ => '?'

def written (style : PlaceholderStyle) (names : List String) (segments : List Segment) :
    List Char :=
  segments.flatMap fun s => (s.compile style names).toList

theorem join_written (names : List String) (segments : List Segment) :
    String.join (segments.map (·.compile style names)) =
      String.ofList (written style names segments) := by
  induction segments with
  | nil => rfl
  | cons s segments ih =>
    have apart : written style names (s :: segments) =
        (s.compile style names).toList ++ written style names segments := List.flatMap_cons
    rw [List.map_cons, String.join_cons, ih, apart, String.ofList_append, String.ofList_toList]

theorem written_unnamed (names : List String) {s : Segment} (unnamed : s.name? = none)
    (segments : List Segment) :
    written style names (s :: segments) = s.source ++ written style names segments := by
  rw [written, List.flatMap_cons, Segment.compile, unnamed, String.toList_ofList]
  rfl

theorem written_marker (numbered : style ≠ .named) (names : List String) (name : List Char)
    (segments : List Segment) :
    ∃ digits : List Char, (∀ d ∈ digits, d.isDigit = true) ∧
      written style names (.marker name :: segments) =
        mark style :: (digits ++ written style names segments) := by
  let slot := names.idxOf (String.ofList name) + 1
  refine ⟨(toString slot).toList, fun d mem => ?_, ?_⟩
  · rw [Nat.toString_eq_ofList_toDigits, String.toList_ofList] at mem
    exact Nat.isDigit_of_mem_toDigits (b := 10) (by decide) (by decide) mem
  · cases style with
    | named => exact absurd rfl numbered
    | _ =>
      simp only [written, List.flatMap_cons, Segment.compile, Segment.name?, placeholder,
        String.toList_append]
      rfl

-- The text `out` begins as `rest` does, or with a placeholder in the place of a marker.
def Follows (style : PlaceholderStyle) (rest out : List Char) : Prop :=
  out.head? = rest.head? ∨ rest.head? = some ':' ∧ out.head? = some (mark style)

theorem written_follows (numbered : style ≠ .named) (names : List String) {cs : List Char}
    {segments : List Segment} (lexes : Lexes style cs segments) :
    Follows style cs (written style names segments) := by
  cases lexes with
  | done => exact .inl rfl
  | @segment _ rest s segments first others =>
    rw [begins_source first]
    cases s with
    | marker name =>
      obtain ⟨digits, -, placed⟩ := written_marker numbered names name segments
      rw [placed]
      exact .inr ⟨rfl, rfl⟩
    | _ =>
      rw [written_unnamed names rfl, Follows, List.head?_append_of_ne_nil _ (source_ne_nil _),
        List.head?_append_of_ne_nil _ (source_ne_nil _)]
      exact .inl rfl

theorem Follows.nil {out : List Char} (follows : Follows style [] out) : out = [] := by
  rcases follows with same | ⟨colon, -⟩
  · exact List.head?_eq_none_iff.1 same
  · cases colon

theorem Follows.head {rest out : List Char} {c : Char} (follows : Follows style rest out)
    (head : out.head? = some c) : rest.head? = some c ∨ c = mark style := by
  rcases follows with same | ⟨-, placed⟩
  · exact .inl (same ▸ head)
  · rw [head, Option.some.injEq] at placed
    exact .inr placed

theorem Follows.pair {rest out : List Char} {a b c : Char} (follows : Follows style rest out)
    (apart : b ≠ mark style) (opens : [a, b] <+: c :: out) : [a, b] <+: c :: rest := by
  obtain ⟨behind, same⟩ := opens
  simp only [List.cons_append, List.nil_append, List.cons.injEq] at same
  obtain ⟨rfl, rfl⟩ := same
  obtain ⟨behind, rfl⟩ := List.head?_eq_some_iff.1 ((follows.head rfl).resolve_right apart)
  exact ⟨behind, rfl⟩

theorem mark_apart (style : PlaceholderStyle) :
    mark style ∉ ['\'', '"', '-', '*', ':'] ∧ continuesName (mark style) = false ∧
      startsName (mark style) = false := by
  cases style <;> decide

theorem begins_kept {cs rest out : List Char} {s : Segment} (begins : Begins style cs s rest)
    (unnamed : s.name? = none) (follows : Follows style rest out)
    (free : style = .postgres → '$' ∉ cs) : Begins style (s.source ++ out) s out := by
  obtain ⟨apart, -, nameless'⟩ := mark_apart style
  simp only [List.mem_cons, List.not_mem_nil, or_false, not_or] at apart
  cases begins with
  | @closed e text rest known source closes =>
    refine .closed known (by rw [Segment.source, List.append_assoc]) ?_
    cases e with
    | quoted quote =>
      refine ⟨closes.1, fun head => ?_⟩
      rcases follows.head head with same | rfl
      · exact closes.2 same
      · rcases known with quote | quote <;> simp [quote] at apart
    | _ => exact closes
  | unclosed known source endless =>
    obtain rfl := follows.nil
    exact .unclosed known (List.append_nil _) endless
  | cast source => exact .cast rfl
  | marker source starts continues maximal => cases unnamed
  | @character c rest source outside nameless =>
    subst source
    refine .character rfl (fun e known opens => outside e known ?_) fun colon d head => ?_
    · cases e with
      | quoted quote =>
        exact List.cons_prefix_cons.2 ⟨(List.cons_prefix_cons.1 opens).1, List.nil_prefix⟩
      | line => exact follows.pair (Ne.symm apart.2.2.1) opens
      | block => exact follows.pair (Ne.symm apart.2.2.2.1) opens
      | dollar tag =>
        obtain ⟨postgres, -⟩ := known
        refine absurd ?_ (free postgres)
        rw [← (List.cons_prefix_cons.1 opens).1]
        exact List.mem_cons_self
    · rcases follows.head head with same | rfl
      · exact nameless colon d same
      · exact ⟨apart.2.2.2.2, nameless'⟩

/-! ### Regions between placeholders -/

def Region.Around (style : PlaceholderStyle) (region : Region) : Prop :=
  region = .plain ∨
    style = .postgres ∧ ∃ tag, (∀ c ∈ tag, continuesName c = true) ∧ region = .dollarQuoted tag

def Silent (style : PlaceholderStyle) (text : List Char) : Prop :=
  ∀ region, Region.Around style region → scanned style region text = characters text

theorem scanned_dollarless {tag text : List Char} (free : '$' ∉ text) (rest : List Char) :
    scanned style (.dollarQuoted tag) (text ++ rest) =
      characters text ++ scanned style (.dollarQuoted tag) rest := by
  induction text with
  | nil => rfl
  | cons c text ih =>
    simp only [List.mem_cons, not_or] at free
    have unclosed : ¬ (Enclosure.dollar tag).opening <+: c :: (text ++ rest) := fun opens =>
      free.1 (List.cons_prefix_cons.1 opens).1
    rw [List.cons_append, scanned_dollar_other unclosed, ih free.2]
    rfl

theorem scanned_digits {digits : List Char} (numeral : ∀ d ∈ digits, d.isDigit = true)
    (rest : List Char) :
    scanned style .plain (digits ++ rest) = characters digits ++ scanned style .plain rest := by
  induction digits with
  | nil => rfl
  | cons d digits ih =>
    obtain ⟨digit, others⟩ := List.forall_mem_cons.1 numeral
    have steps : step style .plain d (digits ++ rest) = ⟨0, .plain, none⟩ := by
      simp only [step]
      unfold plainStep
      split <;> first | rfl | cases digit
    rw [List.cons_append, scanned_character steps, ih others]
    rfl

theorem silent_digits {digits rest : List Char} (numeral : ∀ d ∈ digits, d.isDigit = true)
    (silent : Silent style rest) : Silent style (digits ++ rest) := by
  intro region around
  have here := silent region around
  rcases around with rfl | ⟨-, tag, -, rfl⟩
  · rw [scanned_digits numeral, here, characters_append]
  · have free : '$' ∉ digits := fun mem => absurd (numeral '$' mem) (by decide)
    rw [scanned_dollarless free, here, characters_append]

theorem placeholder_tag {tag digits rest : List Char} (word : ∀ c ∈ tag, continuesName c = true)
    (numeral : ∀ d ∈ digits, d.isDigit = true)
    (ends : ∀ c ∈ rest.head?, continuesName c = false)
    (opens : (Enclosure.dollar tag).opening <+: '$' :: (digits ++ rest)) :
    tag = digits ∧ ∃ behind, rest = '$' :: behind := by
  obtain ⟨behind, split⟩ := opens
  simp only [Enclosure.opening, List.cons_append, List.append_assoc, List.nil_append,
    List.cons.injEq, true_and] at split
  have digitsWord : ∀ d ∈ digits, continuesName d = true := by
    intro d mem
    simp [continuesName, Char.isAlphanum, numeral d mem]
  have run := take_while_run word (tag_ends behind)
  rw [split, take_while_run digitsWord ends] at run
  subst run
  exact ⟨rfl, behind, (List.append_cancel_left split).symm⟩

theorem silent_dollar {digits rest : List Char} (numeral : ∀ d ∈ digits, d.isDigit = true)
    (ends : ∀ c ∈ rest.head?, continuesName c = false) (silent : Silent .postgres rest)
    (inside : ∀ behind, rest = '$' :: behind → Silent .postgres behind) :
    Silent .postgres ('$' :: (digits ++ rest)) := by
  have opening (tag behind : List Char) :
      '$' :: (tag ++ '$' :: behind) = (Enclosure.dollar tag).opening ++ behind := by
    simp [Enclosure.opening]
  intro region around
  have alone := silent_digits numeral silent region around
  rcases around with rfl | ⟨-, tag, word, rfl⟩
  · cases found : tagAt? (digits ++ rest) with
    | none =>
      have steps : step .postgres .plain '$' (digits ++ rest) = ⟨0, .plain, none⟩ := by
        simp [step, plainStep, found]
      rw [scanned_character steps, alone]
      rfl
    | some tag =>
      obtain ⟨word, opens⟩ := tag_opening found
      obtain ⟨rfl, behind, rfl⟩ := placeholder_tag word numeral ends opens
      have later := inside behind rfl (.dollarQuoted tag) (.inr ⟨rfl, tag, word, rfl⟩)
      have known : (Enclosure.dollar tag).Known .postgres := ⟨rfl, word⟩
      rw [opening, scanned_opening known, Enclosure.region, later, characters_append]
  · by_cases closes : (Enclosure.dollar tag).opening <+: '$' :: (digits ++ rest)
    · obtain ⟨rfl, behind, rfl⟩ := placeholder_tag word numeral ends closes
      have later := inside behind rfl .plain (.inl rfl)
      rw [opening, scanned_dollar_close, later, characters_append]
    · rw [scanned_dollar_other closes, alone]
      rfl

theorem silent_placeholder (numbered : style ≠ .named) {digits rest : List Char}
    (numeral : ∀ d ∈ digits, d.isDigit = true)
    (ends : ∀ c ∈ rest.head?, continuesName c = false) (silent : Silent style rest)
    (inside : style = .postgres → ∀ behind, rest = '$' :: behind → Silent style behind) :
    Silent style (mark style :: (digits ++ rest)) := by
  cases style with
  | named => exact absurd rfl numbered
  | postgres => exact silent_dollar numeral ends silent (inside rfl)
  | sqlite =>
    intro region around
    rcases around with rfl | ⟨postgres, -⟩
    · have steps : step .sqlite .plain '?' (digits ++ rest) = ⟨0, .plain, none⟩ := rfl
      change scanned .sqlite .plain ('?' :: (digits ++ rest)) = _
      rw [scanned_character steps, silent_digits numeral silent .plain (.inl rfl)]
      rfl
    · cases postgres

theorem begins_without {cs rest : List Char} {s : Segment} {c : Char}
    (begins : Begins style cs s rest) (free : c ∉ cs) : c ∉ s.source ∧ c ∉ rest := by
  rw [begins_source begins, List.mem_append, not_or] at free
  exact free

theorem silent_kept {cs rest out : List Char} {s : Segment} (begins : Begins style cs s rest)
    (unnamed : s.name? = none) (follows : Follows style rest out)
    (free : style = .postgres → '$' ∉ cs) (silent : Silent style out) :
    Silent style (s.source ++ out) := by
  intro region around
  have later := silent region around
  rcases around with rfl | ⟨postgres, tag, -, rfl⟩
  · rw [scanned_begins (begins_kept begins unnamed follows free), later, characters_append]
    cases s with
    | marker name => cases unnamed
    | _ => rfl
  · obtain ⟨dollarless, -⟩ := begins_without begins (free postgres)
    rw [scanned_dollarless dollarless, later, characters_append]

/-! ### The second scan -/

-- Behind a placeholder's mark nothing is found either: the mark may be the end of a tag that the
-- placeholder in front of it begins.
theorem silent_written (numbered : style ≠ .named) (names : List String) {cs : List Char}
    {segments : List Segment} (lexes : Lexes style cs segments)
    (free : style = .postgres → '$' ∉ cs) :
    Silent style (written style names segments) ∧
      (style = .postgres → ∀ behind, written style names segments = '$' :: behind →
        Silent style behind) := by
  induction lexes with
  | done =>
    refine ⟨fun region around => scanned_nil style region, fun postgres behind same => ?_⟩
    cases same
  | @segment cs rest s segments first others ih =>
    have follows := written_follows numbered names others
    have parts (postgres : style = .postgres) := begins_without first (free postgres)
    obtain ⟨silent, inside⟩ := ih fun postgres => (parts postgres).2
    cases named : s.name? with
    | none =>
      rw [written_unnamed names named]
      refine ⟨silent_kept first named follows free silent, fun postgres behind same => ?_⟩
      have head := congrArg List.head? same
      rw [List.head?_append_of_ne_nil _ (source_ne_nil s)] at head
      exact absurd (List.mem_of_head? head) (parts postgres).1
    | some name =>
      cases first with
      | @marker first name rest source starts continues maximal =>
        obtain ⟨digits, numeral, placed⟩ :=
          written_marker numbered names (first :: name) segments
        have ends : ∀ c ∈ (written style names segments).head?, continuesName c = false := by
          intro c head
          rcases follows.head head with same | rfl
          · exact maximal c same
          · exact (mark_apart style).2.1
        rw [placed]
        refine ⟨silent_placeholder numbered numeral ends silent inside, ?_⟩
        rintro - behind same
        obtain ⟨-, rfl⟩ := List.cons.inj same
        exact silent_digits numeral silent
      | _ => cases named

theorem join_lexes (names : List String) {sql : String} {segments : List Segment}
    (lexes : Lexes style sql.toList segments) :
    String.join ((pieces style sql).map (·.compile style names)) =
      String.ofList (written style names segments) := by
  have scan : (pieces style sql).flatMap Piece.characters = segments.flatMap Segment.pieces :=
    scanned_lexes lexes
  rw [← join_pieces, scan, join_segments, join_written]

end Marker

namespace CompiledSql

open Marker

variable {style : PlaceholderStyle}

theorem of_markers_silent {sql : String}
    (found : scanned style .plain sql.toList = characters sql.toList) :
    ofMarkers sql style = ⟨sql, []⟩ ∧
      ∀ segments, Lexes style sql.toList segments → ∀ s ∈ segments, s.name? = none := by
  have scan : (pieces style sql).flatMap Piece.characters = characters sql.toList := found
  have nameless : (pieces style sql).filterMap Piece.name? = [] := by
    rw [← names_characters, scan, characters_nameless]
  have source : String.join ((pieces style sql).map (·.compile style [])) = sql := by
    rw [← join_pieces, scan, join_characters, String.ofList_toList]
  constructor
  · simp only [ofMarkers, names, nameless, firstAppearances, source]
  · intro segments lexes
    have none : segments.filterMap Segment.name? = [] := by
      rw [← names_segments, ← scanned_lexes lexes, found, characters_nameless]
    exact List.filterMap_eq_nil_iff.1 none

-- Compiling the output again returns it with no parameters, and however it is cut into segments,
-- none of them is a marker.
theorem compiled_unmarked (sql : String) (style : PlaceholderStyle)
    (fits : style = .sqlite ∨ style = .postgres ∧ '$' ∉ sql.toList) :
    ofMarkers (ofMarkers sql style).sql style = ⟨(ofMarkers sql style).sql, []⟩ ∧
      ∀ segments, Lexes style (ofMarkers sql style).sql.toList segments →
        ∀ s ∈ segments, s.name? = none := by
  have numbered : style ≠ .named := by
    rcases fits with rfl | ⟨rfl, -⟩ <;> decide
  have free : style = .postgres → '$' ∉ sql.toList := by
    rintro rfl
    simpa using fits
  obtain ⟨segments, lexes⟩ := lexes_exists style sql.toList
  obtain ⟨silent, -⟩ := silent_written numbered (names (pieces style sql)) lexes free
  refine of_markers_silent ?_
  rw [show (ofMarkers sql style).sql = _ from join_lexes _ lexes, String.toList_ofList]
  exact silent .plain (.inl rfl)

theorem compiled_unmarked_adjacent :
    (ofMarkers ":a:b:a:b ':c'" .postgres).sql = "$1$2$1$2 ':c'" ∧
      ofMarkers (ofMarkers ":a:b:a:b ':c'" .postgres).sql .postgres =
        ⟨(ofMarkers ":a:b:a:b ':c'" .postgres).sql, []⟩ :=
  ⟨by decide +kernel, (compiled_unmarked ":a:b:a:b ':c'" .postgres (.inr ⟨rfl, by decide⟩)).1⟩

-- A dollar sign of the text's own can be what a placeholder completes a tag with.
example : ofMarkers (ofMarkers ":a$ '$1$ :y'" .postgres).sql .postgres =
    ⟨"$1$ '$1$ $1'", ["y"]⟩ := by
  decide +kernel

end CompiledSql
end SqlCatalog
