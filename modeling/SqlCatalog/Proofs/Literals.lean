import SqlCatalog.Proofs.MarkerTokens
import SqlCatalog.Proofs.TokenSources
/-!
Literals on their way from a source to its statements: none is lost or added, they stay in order and
in the statement they stood in, and each is spelled as in the source unless its form is written in
another way (`literals_kept_iff`).
-/
namespace SqlCatalog

open Token

structure Span where
  source : List Char
  token : Token
deriving DecidableEq

inductive Spans (d : Dialect) : List Char → List Span → Prop where
  | done : Spans d [] []
  | token {source rest : List Char} {t : Token} {spans : List Span}
      (reads : next d (source ++ rest) = some (.ok (t, rest))) (others : Spans d rest spans) :
      Spans d (source ++ rest) (⟨source, t⟩ :: spans)

namespace Span

def isLiteral (span : Span) : Bool := span.token.isLiteral

def Respelled (span : Span) : Prop := Token.Respelled span.source span.token

def semicolon : Span := ⟨[';'], .semicolon⟩

end Span

theorem next_none {d : Dialect} {cs : List Char} (none : next d cs = none) : cs = [] := by
  have last := List.findSome?_eq_none_iff.1 none scanCharacter (by simp [scanners])
  cases cs with
  | nil => rfl
  | cons c cs =>
    simp only [scanCharacter] at last
    split at last <;> cases last

theorem spans_of_tokens {d : Dialect} {cs : List Char} {ts : List Token}
    (reads : Token.tokens d cs = .ok ts) :
    ∃ spans, Spans d cs spans ∧ spans.map Span.token = ts ∧
      ∀ span ∈ spans, Written span.source span.token := by
  fun_induction Token.tokens d cs generalizing ts with
  | case1 cs ended =>
    cases reads
    rw [next_none ended]
    exact ⟨[], .done, rfl, by simp⟩
  | case2 => cases reads
  | case3 cs t rest found ih =>
    obtain ⟨others, later, same⟩ := map_eq_ok reads
    obtain ⟨spans, split, tokens, written⟩ := ih later
    obtain ⟨source, rfl, first⟩ := next_taken d found
    refine ⟨⟨source, t⟩ :: spans, .token found split, by rw [List.map_cons, tokens, same], ?_⟩
    simpa using ⟨first, written⟩

def Token.uncommented : Token → Token
  | .blank b => .blank (if b.isComment then .space else b)
  | t => t

theorem uncommented_other {t : Token} (visible : t.isBlank = false) : t.uncommented = t := by
  cases t with
  | blank b => cases visible
  | _ => rfl

theorem uncommented_semicolon (t : Token) : t.uncommented = .semicolon ↔ t = .semicolon := by
  cases t <;> simp [Token.uncommented]

theorem uncommented_literal (t : Token) : t.uncommented.isLiteral = t.isLiteral := by
  cases t <;> rfl

namespace Inclusion

def Bare (ts : List Token) : Prop := ∀ p ∈ pieces ts, ∃ t, p = .token t

theorem read_token_kept (atStart : Bool) (t : Token) :
    (∃ next, readToken atStart t = (some (.token t.uncommented), .statement next)) ∨
      readToken atStart t = (none, .name) := by
  cases blank : t.isBlank with
  | true =>
    cases t with
    | blank b => exact .inl ⟨atStart, rfl⟩
    | _ => cases blank
  | false =>
    rw [uncommented_other blank]
    by_cases inside : t = .semicolon
    · subst inside
      exact .inl ⟨true, rfl⟩
    · rw [read_token_visible atStart t blank inside]
      split
      · exact .inr rfl
      · exact .inl ⟨false, rfl⟩

theorem pieces_from_bare (atStart : Bool) (ts : List Token)
    (bare : ∀ p ∈ piecesFrom (.statement atStart) ts, ∃ t, p = .token t) :
    piecesFrom (.statement atStart) ts = (ts.map Token.uncommented).map .token := by
  induction ts generalizing atStart with
  | nil => rfl
  | cons t ts ih =>
    rw [piecesFrom] at bare ⊢
    rcases read_token_kept atStart t with ⟨next, reads⟩ | reads
    · simp only [reads, Option.toList_some, List.singleton_append] at bare ⊢
      rw [ih next fun p mem => bare p (List.mem_cons_of_mem _ mem)]
      rfl
    · simp only [reads, Option.toList_none, List.nil_append] at bare
      rcases pieces_name_cases ts with nameless | ⟨target, rest, directive⟩
      · obtain ⟨t, token⟩ := bare .nameless (by simp [nameless])
        cases token
      · obtain ⟨t, token⟩ := bare (.directive target) (by simp [directive])
        cases token

theorem expand_bare (s : Setting) (origin : String) {ts : List Token} (bare : Bare ts) :
    expand s origin ts = .ok (ts.map Token.uncommented) := by
  rw [expand, pieces, pieces_from_bare true ts bare, expand_tokens]

end Inclusion

theorem intercalate_longer {α : Type} (a b : α) (g : List α) (gs : List (List α)) :
    [a].intercalate ((b :: g) :: gs) = b :: [a].intercalate (g :: gs) := by
  cases gs with
  | nil => simp
  | cons h gs => simp [List.intercalate_cons_cons]

theorem intercalate_part {α : Type} {a b : α} {part : List α} {groups : List (List α)}
    (mem : part ∈ groups) (inside : b ∈ part) : b ∈ [a].intercalate groups := by
  induction groups with
  | nil => cases mem
  | cons g gs ih =>
    cases gs with
    | nil =>
      rw [List.mem_singleton.mp mem] at inside
      rwa [List.intercalate_singleton]
    | cons h hs =>
      rw [List.intercalate_cons_cons, List.mem_append]
      rcases List.mem_cons.mp mem with rfl | later
      · exact .inl (List.mem_append_left _ inside)
      · exact .inr (ih later)

theorem written_semicolon {span : Span} (written : Written span.source span.token)
    (ends : span.token.uncommented = .semicolon) : span = Span.semicolon := by
  have token := (uncommented_semicolon _).mp ends
  have source := written.semicolon token
  cases span
  cases token
  cases source
  rfl

theorem groups_from_spans (n : Nesting) (spans : List Span)
    (written : ∀ span ∈ spans, Written span.source span.token) :
    ∃ cut cuts, spans = [Span.semicolon].intercalate (cut :: cuts) ∧
      groupsFrom n (spans.map (·.token.uncommented)) =
        (cut :: cuts).map (·.map (·.token.uncommented)) := by
  induction spans generalizing n with
  | nil => exact ⟨[], [], rfl, rfl⟩
  | cons span spans ih =>
    have others := fun other mem => written other (List.mem_cons_of_mem _ mem)
    rw [List.map_cons, groupsFrom]
    by_cases ends : span.token.uncommented = .semicolon ∧ n.depth = 0
    · obtain ⟨cut, cuts, split, same⟩ := ih .outer others
      have semicolon := written_semicolon (written span List.mem_cons_self) ends.1
      refine ⟨[], cut :: cuts, ?_, ?_⟩
      · rw [List.intercalate_cons_cons, ← split, semicolon]
        rfl
      · rw [if_pos ends, same]
        rfl
    · obtain ⟨cut, cuts, split, same⟩ := ih (n.after span.token.uncommented) others
      refine ⟨span :: cut, cuts, ?_, ?_⟩
      · rw [intercalate_longer, ← split]
      · rw [if_neg ends, same]
        rfl

theorem literal_significant {t : Token} (literal : t.isLiteral = true) : t.isSignificant = true := by
  cases t <;> first | rfl | cases literal

theorem literals_squeezed (ts : List Token) :
    (squeezed ts).filter Token.isLiteral = ts.filter Token.isLiteral := by
  have within (us : List Token) :
      (us.filter isSignificant).filter Token.isLiteral = us.filter Token.isLiteral := by
    rw [List.filter_filter]
    apply List.filter_congr
    intro t _
    cases literal : t.isLiteral with
    | true => simp [literal_significant literal]
    | false => simp
  rw [← within, significant_squeezed, within]

theorem literals_uncommented (cut : List Span) :
    (cut.map (·.token.uncommented)).filter Token.isLiteral =
      (cut.filter Span.isLiteral).map Span.token := by
  induction cut with
  | nil => rfl
  | cons span cut ih =>
    rw [List.map_cons, List.filter_cons, List.filter_cons, uncommented_literal, ih]
    by_cases literal : span.token.isLiteral = true
    · have seen := literal_significant literal
      simp only [isSignificant, Bool.and_eq_true, Bool.not_eq_true'] at seen
      rw [if_pos literal, if_pos (show span.isLiteral = true from literal),
        uncommented_other seen.1]
      rfl
    · rw [if_neg literal, if_neg (show ¬ span.isLiteral = true from literal)]

namespace Span

-- A text that is written token by token. Its literals are those of the spans, in this order, each with
-- the characters of its span unless these are respelled.
def Rendered (spans : List Span) (sql : String) : Prop :=
  ∃ ts, sql = Token.concat ts ∧
    List.Forall₂
      (fun t span => t = span.token ∧ (t.spelling.toList = span.source ↔ ¬ span.Respelled))
      (ts.filter Token.isLiteral) spans

theorem rendered_tokens {ts : List Token} {spans : List Span}
    (same : ts.filter Token.isLiteral = spans.map Span.token)
    (literal : ∀ span ∈ spans, span.isLiteral = true)
    (written : ∀ span ∈ spans, Written span.source span.token) :
    Rendered spans (Token.concat ts) := by
  refine ⟨ts, rfl, ?_⟩
  rw [same, List.forall₂_map_left_iff, List.forall₂_same]
  exact fun span mem => ⟨rfl, (written span mem).verbatim_iff (literal span mem)⟩

def compacted? (cut : List Span) : Option Statement :=
  Statement.ofTokens? (cut.map (·.token.uncommented))

def Kept (cut : List Span) : Option Statement → Prop
  | none => cut.filter isLiteral = []
  | some s => Rendered (cut.filter isLiteral) s.sql

theorem compacted_kept {cut : List Span}
    (written : ∀ span ∈ cut, Written span.source span.token) : Kept cut (compacted? cut) := by
  have literals : (squeezed (cut.map (·.token.uncommented))).filter Token.isLiteral =
      (cut.filter isLiteral).map Span.token := by
    rw [literals_squeezed, literals_uncommented]
  unfold compacted? Statement.ofTokens?
  by_cases empty : squeezed (cut.map (·.token.uncommented)) = []
  · rw [dif_pos empty]
    rw [empty] at literals
    exact List.map_eq_nil_iff.mp literals.symm
  · rw [dif_neg empty]
    exact rendered_tokens literals (fun span mem => (List.mem_filter.mp mem).2)
      fun span mem => written span (List.mem_filter.mp mem).1

end Span

namespace SqlSource

theorem tokens_ok_iff {source : SqlSource} {d : Dialect} {ts : List Token} :
    source.tokens d = .ok ts ↔ Token.tokens d source.text.toList = .ok ts := by
  rw [← of_text_ok_iff, SqlSource.tokens]
  cases Token.ofText d source.text <;> simp

theorem statements_bare {source : SqlSource} (files : FileView) {d : Dialect} {ts : List Token}
    (reads : source.tokens d = .ok ts) (bare : Inclusion.Bare ts) :
    source.statements files d =
      if h : Statement.listOfTokens (ts.map Token.uncommented) = [] then
        .error (.source source.origin .nothingLeft)
      else .ok ⟨source.origin, Statement.listOfTokens (ts.map Token.uncommented), h⟩ := by
  simp only [statements, expanded, reads, bind, Except.bind, Inclusion.expand_bare _ _ bare]

-- The text is cut at semicolons, and what each cut leaves holds the literals of the cut, spelled as in
-- the text unless they are respelled.
theorem literals_kept_iff {source : SqlSource} (files : FileView) {d : Dialect} {ts : List Token}
    (reads : source.tokens d = .ok ts) (bare : Inclusion.Bare ts) :
    ∃ cuts, Spans d source.text.toList ([Span.semicolon].intercalate cuts) ∧
      (∀ cut ∈ cuts, Span.Kept cut (Span.compacted? cut)) ∧
      source.statements files d =
        if h : cuts.filterMap Span.compacted? = [] then .error (.source source.origin .nothingLeft)
        else .ok ⟨source.origin, cuts.filterMap Span.compacted?, h⟩ := by
  obtain ⟨spans, split, tokens, written⟩ := spans_of_tokens (tokens_ok_iff.mp reads)
  obtain ⟨cut, cuts, rfl, same⟩ := groups_from_spans .outer spans written
  have listed : Statement.listOfTokens (ts.map Token.uncommented) =
      (cut :: cuts).filterMap Span.compacted? := by
    rw [Statement.listOfTokens, groups, ← tokens, List.map_map]
    exact (congrArg _ same).trans List.filterMap_map
  refine ⟨cut :: cuts, split, fun part mem => ?_, ?_⟩
  · exact Span.compacted_kept fun span inside => written span (intercalate_part mem inside)
  · simp only [statements_bare files reads bare, listed]

theorem literals_kept_iff_doubled :
    let source : SqlSource := ⟨"SELECT 'it''s'; SELECT X'FF'", "op", none⟩
    ∃ ts, source.tokens .sqlite = .ok ts ∧ Inclusion.Bare ts ∧
      ∃ cuts, Spans .sqlite source.text.toList ([Span.semicolon].intercalate cuts) ∧
        (∀ cut ∈ cuts, Span.Kept cut (Span.compacted? cut)) ∧
        source.statements .empty .sqlite =
          if h : cuts.filterMap Span.compacted? = [] then
            .error (.source source.origin .nothingLeft)
          else .ok ⟨source.origin, cuts.filterMap Span.compacted?, h⟩ := by
  intro source
  let ts : List Token := [.word "SELECT" none, .blank .space, .literal .plain "it''s", .semicolon,
    .blank .space, .word "SELECT" none, .blank .space, .literal .hex "FF"]
  have reads : source.tokens .sqlite = .ok ts :=
    tokens_ok_iff.mpr (of_text_ok_iff.mp (by decide +kernel))
  have bare : Inclusion.Bare ts := by
    have pieces : Inclusion.pieces ts = ts.map .token := by decide +kernel
    intro p mem
    rw [pieces] at mem
    obtain ⟨t, -, same⟩ := List.mem_map.mp mem
    exact ⟨t, same.symm⟩
  exact ⟨ts, reads, bare, literals_kept_iff .empty reads bare⟩

theorem hex_number_respelled :
    let spans : List Span := [⟨"SELECT".toList, .word "SELECT" none⟩, ⟨" ".toList, .blank .space⟩,
      ⟨"0xFF".toList, .literal .hex "FF"⟩]
    ∃ s : Statement, Spans .sqlite "SELECT 0xFF".toList spans ∧
      SqlSource.statements ⟨"SELECT 0xFF", "op", none⟩ .empty .sqlite =
        .ok ⟨"op", [s], by simp⟩ ∧
      s.sql = "SELECT X'FF'" ∧ ¬ "0xFF".toList <:+: s.sql.toList := by
  intro spans
  let s : Statement := ⟨[.word "SELECT" none, .blank .space, .literal .hex "FF"], by decide, by simp⟩
  have number : Spans .sqlite ("0xFF".toList ++ []) [⟨"0xFF".toList, .literal .hex "FF"⟩] :=
    .token (by decide +kernel) .done
  have blank : Spans .sqlite (" ".toList ++ "0xFF".toList) spans.tail :=
    .token (by decide +kernel) number
  have split : Spans .sqlite ("SELECT".toList ++ " 0xFF".toList) spans :=
    .token (by decide +kernel) blank
  refine ⟨s, split, ?_, by decide +kernel, by decide +kernel⟩
  exact statements_single .empty s (by decide +kernel) (by decide +kernel) (by decide +kernel)

end SqlSource
end SqlCatalog
