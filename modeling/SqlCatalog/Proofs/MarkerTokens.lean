import SqlCatalog.Proofs.MarkerScan
import SqlCatalog.Proofs.SqliteTokens
/-!
Markers and the tokens of a statement. A scan of a statement's text takes for a marker just what the
tokens say is one, a colon in front of a word, if no other token's spelling looks different to it
(`markers_at_colons`).
-/
namespace SqlCatalog

namespace Marker

def Occurs (ps : List Piece) (offset : Nat) (name : List Char) : Prop :=
  ∃ before after, ps = before ++ .marker name :: after ∧
    (before.flatMap Piece.source).length = offset

variable {offset : Nat} {name : List Char}

theorem occurs_nil : ¬ Occurs [] offset name := by
  rintro ⟨before, after, split, -⟩
  simp at split

theorem occurs_cons {p : Piece} {ps : List Piece} :
    Occurs (p :: ps) offset name ↔
      (offset = 0 ∧ p = .marker name) ∨ ∃ n, offset = p.source.length + n ∧ Occurs ps n name := by
  constructor
  · rintro ⟨before, after, split, length⟩
    cases before with
    | nil =>
      obtain ⟨rfl, -⟩ := List.cons.inj split
      exact .inl ⟨length.symm, rfl⟩
    | cons q before =>
      obtain ⟨rfl, others⟩ := List.cons.inj split
      rw [List.flatMap_cons, List.length_append] at length
      exact .inr ⟨_, length.symm, before, after, others, rfl⟩
  · rintro (⟨rfl, rfl⟩ | ⟨n, rfl, before, after, split, rfl⟩)
    · exact ⟨[], ps, rfl, rfl⟩
    · refine ⟨p :: before, after, by rw [split]; rfl, ?_⟩
      rw [List.flatMap_cons, List.length_append]

theorem occurs_text {cs : List Char} {ps : List Piece} :
    Occurs (.text cs :: ps) offset name ↔ ∃ n, offset = cs.length + n ∧ Occurs ps n name := by
  rw [occurs_cons]
  simp [Piece.source]

theorem occurs_characters {cs : List Char} {ps : List Piece} :
    Occurs (characters cs ++ ps) offset name ↔ ∃ n, offset = cs.length + n ∧ Occurs ps n name := by
  induction cs generalizing offset with
  | nil => simp [characters]
  | cons c cs ih =>
    have split : characters (c :: cs) ++ ps = .text [c] :: (characters cs ++ ps) := rfl
    rw [split, occurs_text]
    constructor
    · rintro ⟨n, rfl, later⟩
      obtain ⟨m, rfl, behind⟩ := ih.mp later
      exact ⟨m, by simp only [List.length_cons, List.length_nil]; omega, behind⟩
    · rintro ⟨m, rfl, behind⟩
      refine ⟨cs.length + m, ?_, ih.mpr ⟨m, rfl, behind⟩⟩
      simp only [List.length_cons, List.length_nil]
      omega

theorem occurs_flat {ps : List Piece} :
    Occurs (ps.flatMap Piece.characters) offset name ↔ Occurs ps offset name := by
  induction ps generalizing offset with
  | nil => rfl
  | cons p ps ih =>
    rw [List.flatMap_cons]
    cases p with
    | text chars =>
      rw [Piece.characters, occurs_characters, occurs_text]
      simp only [ih]
    | marker other =>
      rw [Piece.characters, List.singleton_append, occurs_cons, occurs_cons]
      simp only [ih]

theorem occurs_scanned {style : PlaceholderStyle} {sql : String} :
    Occurs (pieces style sql) offset name ↔ Occurs (scanned style .plain sql.toList) offset name :=
  occurs_flat.symm

theorem scanned_unopened {c : Char} {rest : List Char} (unquoted : c ≠ '\'' ∧ c ≠ '"')
    (unopened : ∀ d ∈ rest.head?, ¬ Opens c d) :
    scanned .sqlite .plain (c :: rest) = characters [c] ++ scanned .sqlite .plain rest := by
  refine scanned_character (plain_step (fun e known opens => ?_) fun colon d head => ?_)
  · cases e with
    | quoted quote =>
      obtain ⟨rfl, -⟩ := List.cons_prefix_cons.mp opens
      rcases known with rfl | rfl
      · exact unquoted.1 rfl
      · exact unquoted.2 rfl
    | line =>
      obtain ⟨rfl, second⟩ := List.cons_prefix_cons.mp opens
      obtain ⟨behind, rfl⟩ := second
      exact unopened '-' rfl (.inl (.inl ⟨rfl, rfl⟩))
    | block =>
      obtain ⟨rfl, second⟩ := List.cons_prefix_cons.mp opens
      obtain ⟨behind, rfl⟩ := second
      exact unopened '*' rfl (.inl (.inr ⟨rfl, rfl⟩))
    | dollar tag => cases known.1
  · have apart := unopened d head
    refine ⟨?_, Bool.eq_false_iff.mpr fun starts => ?_⟩
    · rintro rfl
      exact apart (.inr ⟨colon, .inl rfl⟩)
    · exact apart (.inr ⟨colon, .inr starts⟩)

theorem scanned_inert {cs rest : List Char} (inert : Inert cs)
    (border : ∀ c ∈ cs.getLast?, ∀ d ∈ rest.head?, ¬ Opens c d) :
    scanned .sqlite .plain (cs ++ rest) = characters cs ++ scanned .sqlite .plain rest := by
  induction cs with
  | nil => rfl
  | cons c cs ih =>
    have unopened := List.isChain_cons.mp inert.unopened
    have others : Inert cs := ⟨fun d mem => inert.unquoted d (.tail c mem), unopened.2⟩
    have behind : ∀ d ∈ cs.getLast?, ∀ e ∈ rest.head?, ¬ Opens d e := by
      intro d last
      cases cs with
      | nil => cases last
      | cons e cs => exact border d (by rwa [List.getLast?_cons_cons])
    have next : ∀ d ∈ (cs ++ rest).head?, ¬ Opens c d := by
      cases cs with
      | nil => exact border c rfl
      | cons d cs => exact unopened.1
    rw [List.cons_append, scanned_unopened (inert.unquoted c (.head cs)) next, ih others behind]
    rfl

theorem scanned_harmless {cs : List Char} (harmless : ∀ c ∈ cs, isHarmless c = true)
    (rest : List Char) :
    scanned .sqlite .plain (cs ++ rest) = characters cs ++ scanned .sqlite .plain rest := by
  refine scanned_inert (inert_of_harmless harmless) fun c last d _ => ?_
  exact not_opens_left (harmless c (List.mem_of_getLast? last)) d

theorem scanned_quotation (lead : List Char) {text rest : List Char} {quote : Char}
    (known : (Enclosure.quoted quote).Known .sqlite) (plain : lead.all isHarmless = true)
    (quoted : QuotedText quote text) :
    scanned .sqlite .plain (lead ++ quote :: text ++ rest) =
      characters (lead ++ quote :: text) ++ scanned .sqlite .plain rest := by
  rw [List.append_assoc, List.cons_append, scanned_harmless (List.all_eq_true.mp plain),
    scanned_open_quote known, scanned_quoted_text known quoted]
  simp [characters]

theorem inert_enclosed {text : List Char} {first last : Char} (inert : Inert text)
    (opening : isHarmless first = true) (closing : isHarmless last = true)
    (nameless : startsName last = false) : Inert (first :: (text ++ [last])) := by
  have single {c : Char} (harmless : isHarmless c = true) : Inert [c] :=
    inert_of_harmless (by simpa using harmless)
  have ends : Inert (text ++ [last]) := by
    refine inert_append inert (single closing) fun c _ d head => ?_
    cases head
    exact not_opens_right closing nameless c
  refine inert_append (single opening) ends fun c head d _ => ?_
  cases head
  exact not_opens_left opening d

end Marker

namespace Token

open Marker

-- Enough to keep a scan from being led astray: between back quotes or brackets nothing looks like a
-- quote, a comment, a cast or a marker, apostrophes in literals stand in pairs, no comment begins where
-- two tokens meet, and the letter that a literal opens with stands behind no colon.
structure Legible (ts : List Token) : Prop where
  quoted : ∀ text quote, .word text (some quote) ∈ ts → quote ≠ .double → Inert text.toList
  literal : ∀ form text, .literal form text ∈ ts → form ≠ .plain →
    QuotedText '\'' (text.toList ++ ['\''])
  meets : ts.IsChain fun t u => ∀ c ∈ t.spelling.toList.getLast?, ∀ d ∈ u.spelling.toList.head?,
    ¬ OpensComment c d
  named : ts.IsChain fun t u => t = .colon → ∀ form text, u = .literal form text → form = .plain

theorem legible_cons {t : Token} {ts : List Token} (legible : Legible (t :: ts)) : Legible ts where
  quoted text quote mem := legible.quoted text quote (.tail t mem)
  literal form text mem := legible.literal form text (.tail t mem)
  meets := (List.isChain_cons.mp legible.meets).2
  named := (List.isChain_cons.mp legible.named).2

theorem quoted_spelling (text : String) (quote : Quote) :
    (Token.word text (some quote)).spelling.toList =
      quote.opening :: (text.toList ++ [quote.closing]) := by
  simp [spelling]

theorem inert_quoted_word {text : String} {quote : Quote} (other : quote ≠ .double)
    (inert : Inert text.toList) :
    Inert (Token.word text (some quote)).spelling.toList ∧
      (Token.word text (some quote)).spelling.toList.getLast? ≠ some ':' := by
  rw [quoted_spelling]
  constructor
  · cases quote with
    | double => exact absurd rfl other
    | backtick => exact inert_enclosed inert rfl rfl rfl
    | bracket => exact inert_enclosed inert rfl rfl rfl
  · rw [← List.cons_append, List.getLast?_concat]
    cases quote <;> decide

theorem scanned_literal {form : LiteralForm} {text : String} (formed : Formed (.literal form text))
    (paired : form ≠ .plain → QuotedText '\'' (text.toList ++ ['\''])) (rest : List Char) :
    scanned .sqlite .plain ((Token.literal form text).spelling.toList ++ rest) =
      characters (Token.literal form text).spelling.toList ++ scanned .sqlite .plain rest := by
  have quotation (lead : List Char) (plain : lead.all isHarmless = true)
      (closes : QuotedText '\'' (text.toList ++ ['\'']))
      (opening : form.opening = String.ofList (lead ++ ['\''])) (closing : form.closing = "'") :
      scanned .sqlite .plain ((Token.literal form text).spelling.toList ++ rest) =
        characters (Token.literal form text).spelling.toList ++ scanned .sqlite .plain rest := by
    have spelled : (Token.literal form text).spelling.toList =
        lead ++ '\'' :: (text.toList ++ ['\'']) := by
      simp [spelling, opening, closing]
    rw [spelled]
    exact scanned_quotation lead (.inl rfl) plain closes
  cases form with
  | plain => exact quotation [] rfl formed rfl rfl
  | national => exact quotation ['N'] rfl (paired (by simp)) rfl rfl
  | escaped => exact quotation ['E'] rfl (paired (by simp)) rfl rfl
  | hex => exact quotation ['X'] rfl (paired (by simp)) rfl rfl
  | _ => exact formed.elim

theorem scanned_token {t : Token} {rest : List Char} (formed : Formed t) (inner : t ≠ .colon)
    (blank : t.isBlank = true → t = space) (legible : Legible [t])
    (meets : ∀ c ∈ t.spelling.toList.getLast?, ∀ d ∈ rest.head?, ¬ OpensComment c d) :
    scanned .sqlite .plain (t.spelling.toList ++ rest) =
      characters t.spelling.toList ++ scanned .sqlite .plain rest := by
  have uncoloned (inert : Inert t.spelling.toList)
      (last : t.spelling.toList.getLast? ≠ some ':') :
      scanned .sqlite .plain (t.spelling.toList ++ rest) =
        characters t.spelling.toList ++ scanned .sqlite .plain rest := by
    refine scanned_inert inert fun c ends d head => ?_
    rintro (comment | ⟨colon, -⟩)
    · exact meets c ends d head comment
    · exact last (colon ▸ ends)
  cases t with
  | blank b =>
    obtain rfl := Token.blank.inj (blank rfl)
    exact uncoloned (by decide) (by decide)
  | word text quote =>
    cases quote with
    | none =>
      have harmless (c : Char) (mem : c ∈ text.toList) : isHarmless c = true :=
        continues_harmless (formed.2 c mem)
      refine uncoloned (inert_of_harmless harmless) fun last => ?_
      cases harmless ':' (List.mem_of_getLast? last)
    | some quote =>
      by_cases double : quote = .double
      · subst double
        rw [quoted_spelling]
        exact scanned_quotation [] (.inr rfl) rfl formed
      · have inert := legible.quoted text quote (.head _) double
        exact uncoloned (inert_quoted_word double inert).1 (inert_quoted_word double inert).2
  | literal form text => exact scanned_literal formed (legible.literal form text (.head _)) rest
  | operator text =>
    rcases formed with rfl | quiet
    · exact scanned_cast rest
    · exact uncoloned quiet.inert quiet.uncoloned
  | number digits long => exact uncoloned formed.inert formed.uncoloned
  | placeholder text => exact uncoloned formed.inert formed.uncoloned
  | colon => exact absurd rfl inner
  | endMark => exact formed.elim
  | _ => exact uncoloned (by decide) (by decide)

theorem concat_cons (t : Token) (ts : List Token) : concat (t :: ts) = t.spelling ++ concat ts := by
  rw [concat, List.map_cons, String.join_cons]
  rfl

theorem concat_characters (t : Token) (ts : List Token) :
    (concat (t :: ts)).toList = t.spelling.toList ++ (concat ts).toList := by
  rw [concat_cons, String.toList_append]

theorem formed_ne_nil {t : Token} (formed : Formed t) : t.spelling.toList ≠ [] := by
  cases t with
  | blank b => cases b <;> simp [spelling, Blank.spelling]
  | word text quote =>
    cases quote with
    | none => exact formed.1
    | some quote => simp [quoted_spelling]
  | literal form text => cases form <;> simp [spelling, LiteralForm.opening]
  | operator text =>
    rcases formed with rfl | quiet
    · decide
    · exact quiet.nonempty
  | number digits long => exact formed.nonempty
  | placeholder text => exact formed.nonempty
  | endMark => exact formed.elim
  | _ => decide

structure Readable (ts : List Token) : Prop where
  run : Run Formed Apart ts
  blank : ∀ t ∈ ts, t.isBlank = true → t = space
  legible : Legible ts

theorem readable_cons {t : Token} {ts : List Token} (readable : Readable (t :: ts)) :
    Readable ts where
  run := (run_cons.mp readable.run).2.2
  blank u mem := readable.blank u (.tail t mem)
  legible := legible_cons readable.legible

theorem concat_head {ts : List Token} (readable : Readable ts) {d : Char}
    (head : d ∈ (concat ts).toList.head?) :
    ∃ u us, ts = u :: us ∧ d ∈ u.spelling.toList.head? := by
  cases ts with
  | nil => simp [concat_nil] at head
  | cons u us =>
    have formed := (run_cons.mp readable.run).1
    rw [concat_characters, List.head?_append_of_ne_nil _ (formed_ne_nil formed)] at head
    exact ⟨u, us, rfl, head⟩

theorem scanned_cons {t : Token} {ts : List Token} (readable : Readable (t :: ts))
    (inner : t ≠ .colon) :
    scanned .sqlite .plain (concat (t :: ts)).toList =
      characters t.spelling.toList ++ scanned .sqlite .plain (concat ts).toList := by
  have formed := (run_cons.mp readable.run).1
  have meets := (List.isChain_cons.mp readable.legible.meets).1
  have alone : Legible [t] := by
    refine ⟨fun text quote mem => ?_, fun form text mem => ?_, .singleton t, .singleton t⟩
    · exact readable.legible.quoted text quote (by simp_all)
    · exact readable.legible.literal form text (by simp_all)
  rw [concat_characters]
  refine scanned_token formed inner (readable.blank t (.head ts)) alone fun c last d head => ?_
  obtain ⟨u, us, rfl, first⟩ := concat_head (readable_cons readable) head
  exact meets u rfl c last d first

theorem name_split {cs : List Char} (named : nameAt cs ≠ []) :
    ∃ first run tail, cs = first :: (run ++ tail) ∧ nameAt cs = first :: run ∧
      startsName first = true ∧ (∀ c ∈ run, continuesName c = true) ∧
      ∀ c ∈ tail.head?, continuesName c = false := by
  cases cs with
  | nil => exact absurd rfl named
  | cons first cs =>
    by_cases starts : startsName first = true
    · refine ⟨first, cs.takeWhile continuesName, cs.dropWhile continuesName, ?_, ?_, starts, ?_, ?_⟩
      · rw [List.takeWhile_append_dropWhile]
      · rw [nameAt, if_pos starts]
      · exact List.all_eq_true.1 List.all_takeWhile
      · intro c head
        have stops := List.head?_dropWhile_not continuesName cs
        rwa [Option.mem_def.1 head] at stops
    · exact absurd (by rw [nameAt, if_neg starts]) named

-- Behind a colon, only a word can begin with what begins a name.
theorem colon_nameless {u : Token} {us : List Token} (readable : Readable (.colon :: u :: us))
    (unnamed : ∀ text, u = .word text none → nameAt text.toList = []) :
    ∀ d ∈ u.spelling.toList.head?, startsName d = false := by
  have formed := (run_cons.mp (readable_cons readable).run).1
  have plain := (List.isChain_cons_cons.mp readable.legible.named).1 rfl
  intro d head
  cases u with
  | blank b =>
    obtain rfl := Token.blank.inj (readable.blank (.blank b) (by simp) rfl)
    cases head
    rfl
  | word text quote =>
    cases quote with
    | none =>
      obtain ⟨cs, split⟩ := List.head?_eq_some_iff.mp head
      have none := unnamed text rfl
      refine Bool.eq_false_iff.mpr fun starts => ?_
      rw [show text.toList = d :: cs from split, nameAt, if_pos starts] at none
      cases none
    | some quote =>
      rw [quoted_spelling] at head
      cases head
      cases quote <;> rfl
  | literal form text =>
    obtain rfl := plain form text rfl
    simp only [spelling, LiteralForm.opening, String.toList_append] at head
    cases head
    rfl
  | operator text =>
    rcases formed with rfl | quiet
    · cases head
      rfl
    · exact quiet.nameless d head
  | number digits long => exact formed.nameless d head
  | placeholder text => exact formed.nameless d head
  | endMark => exact formed.elim
  | _ =>
    cases head
    rfl

-- A colon in front of a word that begins a name, at this place in the text of the tokens.
def Named (ts : List Token) (offset : Nat) (name : List Char) : Prop :=
  ∃ before word after, ts = before ++ .colon :: .word word none :: after ∧
    (concat before).length = offset ∧ nameAt word.toList = name ∧ name ≠ []

variable {offset : Nat} {name : List Char}

def Leads (ts : List Token) (name : List Char) : Prop :=
  ∃ word after, ts = .colon :: .word word none :: after ∧ nameAt word.toList = name ∧ name ≠ []

theorem named_cons {t : Token} {ts : List Token} :
    Named (t :: ts) offset name ↔
      (offset = 0 ∧ Leads (t :: ts) name) ∨
        ∃ n, offset = t.spelling.toList.length + n ∧ Named ts n name := by
  constructor
  · rintro ⟨before, word, after, split, rfl, named⟩
    cases before with
    | nil => exact .inl ⟨rfl, word, after, split, named⟩
    | cons u before =>
      obtain ⟨rfl, others⟩ := List.cons.inj split
      refine .inr ⟨(concat before).length, ?_, before, word, after, others, rfl, named⟩
      rw [concat_cons, String.length_append, String.length_toList]
  · rintro (⟨rfl, word, after, split, named⟩ | ⟨n, rfl, before, word, after, split, rfl, named⟩)
    · exact ⟨[], word, after, split, rfl, named⟩
    · refine ⟨t :: before, word, after, by rw [split]; rfl, ?_, named⟩
      rw [concat_cons, String.length_append, String.length_toList]

theorem leads_word {text : String} {us : List Token} (named : nameAt text.toList ≠ []) :
    Leads (.colon :: .word text none :: us) name ↔ nameAt text.toList = name := by
  constructor
  · rintro ⟨word, after, split, found, -⟩
    cases split
    exact found
  · rintro rfl
    exact ⟨text, us, rfl, rfl, named⟩

theorem scanned_colon_word {text : String} {us : List Token}
    (readable : Readable (.colon :: .word text none :: us)) (named : nameAt text.toList ≠ []) :
    ∃ tail, text.toList = nameAt text.toList ++ tail ∧
      scanned .sqlite .plain (':' :: (concat (.word text none :: us)).toList) =
        .marker (nameAt text.toList) ::
          (characters tail ++ scanned .sqlite .plain (concat us).toList) := by
  obtain ⟨first, run, tail, split, found, starts, continues, stops⟩ := name_split named
  obtain ⟨formed, apart, -⟩ := run_cons.mp (readable_cons readable).run
  have maximal : ∀ c ∈ (tail ++ (concat us).toList).head?, continuesName c = false := by
    intro c head
    cases tail with
    | cons d tail => exact stops c head
    | nil =>
      obtain ⟨u, vs, rfl, spelled⟩ := concat_head (readable_cons (readable_cons readable)) head
      exact (apart u rfl).2 ⟨text, rfl⟩ c spelled
  have harmless (c : Char) (mem : c ∈ tail) : isHarmless c = true := by
    refine continues_harmless (formed.2 c ?_)
    rw [split]
    exact .tail first (List.mem_append_right run mem)
  have spelled : (Token.word text none).spelling.toList = first :: (run ++ tail) := split
  refine ⟨tail, by rw [found, split]; rfl, ?_⟩
  rw [concat_characters, spelled, found, List.cons_append, List.append_assoc,
    scanned_name starts continues maximal, scanned_harmless harmless]

theorem occurs_colon {ts : List Token} (readable : Readable (.colon :: ts)) :
    Occurs (scanned .sqlite .plain (concat (.colon :: ts)).toList) offset name ↔
      (offset = 0 ∧ Leads (.colon :: ts) name) ∨
        ∃ n, offset = 1 + n ∧ Occurs (scanned .sqlite .plain (concat ts).toList) n name := by
  have spelled : (concat (.colon :: ts)).toList = ':' :: (concat ts).toList := by
    rw [concat_characters]
    rfl
  rw [spelled]
  by_cases marks : ∃ text us, ts = .word text none :: us ∧ nameAt text.toList ≠ []
  · obtain ⟨text, us, rfl, named⟩ := marks
    obtain ⟨tail, split, scan⟩ := scanned_colon_word readable named
    have word := scanned_cons (readable_cons readable) (by simp)
    have length : (Token.word text none).spelling.toList.length =
        (nameAt text.toList).length + tail.length := by
      rw [← List.length_append, ← split]
      rfl
    have width : (Piece.marker (nameAt text.toList)).source.length =
        (nameAt text.toList).length + 1 := rfl
    rw [scan, word, occurs_cons, leads_word named, Piece.marker.injEq]
    simp only [occurs_characters]
    refine or_congr Iff.rfl ?_
    constructor
    · rintro ⟨n, rfl, m, rfl, behind⟩
      exact ⟨_, by omega, m, rfl, behind⟩
    · rintro ⟨n, rfl, m, rfl, behind⟩
      exact ⟨tail.length + m, by omega, m, rfl, behind⟩
  · have bare : ¬ Leads (.colon :: ts) name := by
      rintro ⟨word, after, split, rfl, named⟩
      obtain ⟨-, rfl⟩ := List.cons.inj split
      exact marks ⟨word, after, rfl, named⟩
    rw [scanned_unopened (by decide), occurs_characters]
    · simp [bare]
    · intro d head
      obtain ⟨u, us, rfl, first⟩ := concat_head (readable_cons readable) head
      have apart := (run_cons.mp readable.run).2.1 u rfl
      have unnamed (text : String) (same : u = .word text none) : nameAt text.toList = [] := by
        by_contra named
        exact marks ⟨text, us, by rw [same], named⟩
      have nameless := colon_nameless readable unnamed d first
      rintro ((⟨colon, -⟩ | ⟨colon, -⟩) | ⟨-, double | starts⟩)
      · cases colon
      · cases colon
      · exact apart.1 rfl d first double
      · simp [nameless] at starts

theorem occurs_readable {ts : List Token} (readable : Readable ts) :
    Occurs (scanned .sqlite .plain (concat ts).toList) offset name ↔ Named ts offset name := by
  induction ts generalizing offset with
  | nil =>
    have nothing : ¬ Named [] offset name := by
      rintro ⟨before, word, after, split, -⟩
      simp at split
    have empty : (concat []).toList = [] := rfl
    rw [empty, scanned_nil]
    exact ⟨fun occurs => absurd occurs occurs_nil, fun named => absurd named nothing⟩
  | cons t ts ih =>
    have behind := fun n => @ih n (readable_cons readable)
    by_cases colon : t = .colon
    · subst colon
      rw [occurs_colon readable, named_cons]
      simp only [behind]
      rfl
    · have bare : ¬ Leads (t :: ts) name := by
        rintro ⟨word, after, split, -⟩
        exact colon (List.cons.inj split).1
      rw [scanned_cons readable colon, occurs_characters, named_cons]
      simp [behind, bare]

theorem concat_append (ts us : List Token) : concat (ts ++ us) = concat ts ++ concat us := by
  rw [concat, List.map_append, String.join_append]
  rfl

theorem name_length (cs : List Char) : (nameAt cs).length ≤ cs.length := by
  cases cs with
  | nil => exact Nat.le_refl _
  | cons c cs =>
    rw [nameAt]
    split
    · have run := (List.takeWhile_prefix (p := continuesName) (l := cs)).length_le
      simp only [List.length_cons]
      omega
    · exact Nat.zero_le _

def isQuoted : Token → Bool
  | literal _ _ => true
  | word _ (some _) => true
  | _ => false

theorem named_beside {before after : List Token} {t : Token}
    (named : Named (before ++ t :: after) offset name) (quoted : t.isQuoted = true) :
    offset + 1 + name.length ≤ (concat before).length ∨
      (concat before).length + t.spelling.length ≤ offset := by
  obtain ⟨first, word, rest, split, rfl, rfl, -⟩ := named
  have width : (nameAt word.toList).length ≤ (Token.word word none).spelling.length := by
    rw [← String.length_toList]
    exact name_length word.toList
  rcases List.append_eq_append_iff.mp split with ⟨between, rfl, behind⟩ | ⟨between, rfl, behind⟩
  · right
    match between, behind with
    | [], behind =>
      cases behind
      cases quoted
    | u :: between, behind =>
      obtain ⟨rfl, -⟩ := List.cons.inj behind
      rw [concat_append, concat_cons, String.length_append, String.length_append]
      omega
  · left
    match between, behind with
    | [], behind =>
      cases behind
      cases quoted
    | [u], behind =>
      cases behind
      cases quoted
    | u :: v :: between, behind =>
      cases behind
      have colon : (Token.colon).spelling.length = 1 := rfl
      simp only [concat_append, concat_cons, String.length_append]
      omega

end Token

namespace SqlSource

open Token Marker

theorem markers_at_colons (source : SqlSource) (files : FileView) (list : StatementList)
    (accepted : source.statements files .sqlite = .ok list) (s : Statement)
    (mem : s ∈ list.statements) (legible : Legible s.tokens) :
    (∀ offset name, Occurs (pieces .sqlite s.sql) offset name ↔ Named s.tokens offset name) ∧
    ∀ offset name before t after, Occurs (pieces .sqlite s.sql) offset name →
      s.tokens = before ++ t :: after → t.isQuoted = true →
        offset + 1 + name.length ≤ (concat before).length ∨
          (concat before).length + t.spelling.length ≤ offset := by
  have readable : Readable s.tokens := by
    refine ⟨statements_run formed_loose accepted (fun cs ts reads => (tokens_read reads).1) mem,
      fun t mem blank => ?_, legible⟩
    rw [← s.tokens_squeezed] at mem
    exact squeezed_blank mem blank
  have same (offset : Nat) (name : List Char) :
      Occurs (pieces .sqlite s.sql) offset name ↔ Named s.tokens offset name := by
    rw [occurs_scanned, Statement.sql, occurs_readable readable]
  refine ⟨same, fun offset name before t after occurs split quoted => ?_⟩
  have named := (same offset name).mp occurs
  rw [split] at named
  exact named_beside named quoted

theorem statements_single {source : SqlSource} (files : FileView) {d : Dialect} (s : Statement)
    (reads : Token.ofText d source.text = .ok s.tokens)
    (plain : Inclusion.pieces s.tokens = s.tokens.map .token) (whole : groups s.tokens = [s.tokens]) :
    source.statements files d = .ok ⟨source.origin, [s], by simp⟩ := by
  have expanded : source.expanded files d = .ok s.tokens := by
    simp only [SqlSource.expanded, SqlSource.tokens, reads, bind, Except.bind, Inclusion.expand,
      plain, Inclusion.expand_tokens]
  have listed : Statement.listOfTokens s.tokens = [s] := by
    have made : Statement.ofTokens? s.tokens = some s := by
      unfold Statement.ofTokens?
      rw [dif_neg (by rw [s.tokens_squeezed]; exact s.tokens_ne_nil)]
      exact congrArg some (Statement.ext s.tokens_squeezed)
    rw [Statement.listOfTokens, whole, List.filterMap_cons_some made]
    rfl
  simp [statements, expanded, listed, bind, Except.bind]

theorem markers_at_colons_literal :
    let source : SqlSource := ⟨"':b' = :a", "op", none⟩
    ∃ list s, source.statements .empty .sqlite = .ok list ∧ s ∈ list.statements ∧
      Legible s.tokens ∧ Occurs (pieces .sqlite s.sql) 7 ['a'] ∧
      ¬ Occurs (pieces .sqlite s.sql) 1 ['b'] := by
  intro source
  let s : Statement := ⟨[.literal .plain ":b", .blank .space, .operator "=", .blank .space, .colon,
    .word "a" none], by decide, by simp⟩
  have text : "':b' = :a".toList = ['\'', ':', 'b', '\'', ' ', '=', ' ', ':', 'a'] := rfl
  have literal : next .sqlite ['\'', ':', 'b', '\'', ' ', '=', ' ', ':', 'a'] =
      some (.ok (.literal .plain ":b", [' ', '=', ' ', ':', 'a'])) := by cbv
  have space : next .sqlite [' ', '=', ' ', ':', 'a'] =
      some (.ok (.blank .space, ['=', ' ', ':', 'a'])) := by cbv
  have equals : next .sqlite ['=', ' ', ':', 'a'] =
      some (.ok (.operator "=", [' ', ':', 'a'])) := by cbv
  have second : next .sqlite [' ', ':', 'a'] = some (.ok (.blank .space, [':', 'a'])) := by cbv
  have colon : next .sqlite [':', 'a'] = some (.ok (.colon, ['a'])) := by cbv
  have name : next .sqlite ['a'] = some (.ok (.word "a" none, [])) := by cbv
  have reads : Token.ofText .sqlite source.text = .ok s.tokens := by
    change Token.ofText .sqlite "':b' = :a" = _
    rw [Token.ofText, text, tokens_next literal, tokens_next space, tokens_next equals,
      tokens_next second, tokens_next colon, tokens_next name, tokens_end (by cbv)]
    rfl
  have accepted := statements_single .empty s reads (by cbv) (by decide)
  have legible : Legible s.tokens := by
    refine ⟨fun text quote mem => ?_, fun form text mem => ?_, ?_, ?_⟩
    · simp [s] at mem
    · simp_all [s]
    · simp [s, spelling, Blank.spelling, LiteralForm.opening, LiteralForm.closing, OpensComment]
    · simp [s]
  obtain ⟨same, beside⟩ := markers_at_colons source .empty _ accepted s (.head _) legible
  refine ⟨_, s, accepted, .head _, legible, (same 7 ['a']).mpr ?_, fun occurs => ?_⟩
  · exact ⟨[.literal .plain ":b", .blank .space, .operator "=", .blank .space], "a", [], rfl,
      by decide, by decide, by simp⟩
  · rcases beside 1 ['b'] [] _ _ occurs rfl rfl with before | behind
    · cases before
    · revert behind
      decide

-- Back-quoted names are read as one token, but what is in them is scanned for markers.
theorem marker_in_back_quotes :
    let source : SqlSource := ⟨"SELECT `:a` FROM t", "op", none⟩
    ∃ list s, source.statements .empty .sqlite = .ok list ∧ s ∈ list.statements ∧
      s.tokens = [.word "SELECT" none, .blank .space, .word ":a" (some .backtick), .blank .space,
        .word "FROM" none, .blank .space, .word "t" none] ∧
      Occurs (pieces .sqlite s.sql) 8 ['a'] ∧ (∀ offset name, ¬ Named s.tokens offset name) ∧
      CompiledSql.ofMarkers s.sql .sqlite = ⟨"SELECT `?1` FROM t", ["a"]⟩ := by
  intro source
  let s : Statement := ⟨[.word "SELECT" none, .blank .space, .word ":a" (some .backtick),
    .blank .space, .word "FROM" none, .blank .space, .word "t" none], by decide, by simp⟩
  have text : "SELECT `:a` FROM t".toList = ['S', 'E', 'L', 'E', 'C', 'T', ' ', '`', ':', 'a', '`',
    ' ', 'F', 'R', 'O', 'M', ' ', 't'] := rfl
  have select : next .sqlite ['S', 'E', 'L', 'E', 'C', 'T', ' ', '`', ':', 'a', '`', ' ', 'F', 'R',
      'O', 'M', ' ', 't'] = some (.ok (.word "SELECT" none, [' ', '`', ':', 'a', '`', ' ', 'F', 'R',
        'O', 'M', ' ', 't'])) := by cbv
  have first : next .sqlite [' ', '`', ':', 'a', '`', ' ', 'F', 'R', 'O', 'M', ' ', 't'] =
      some (.ok (.blank .space, ['`', ':', 'a', '`', ' ', 'F', 'R', 'O', 'M', ' ', 't'])) := by cbv
  have quoted : next .sqlite ['`', ':', 'a', '`', ' ', 'F', 'R', 'O', 'M', ' ', 't'] =
      some (.ok (.word ":a" (some .backtick), [' ', 'F', 'R', 'O', 'M', ' ', 't'])) := by cbv
  have second : next .sqlite [' ', 'F', 'R', 'O', 'M', ' ', 't'] =
      some (.ok (.blank .space, ['F', 'R', 'O', 'M', ' ', 't'])) := by cbv
  have «from» : next .sqlite ['F', 'R', 'O', 'M', ' ', 't'] =
      some (.ok (.word "FROM" none, [' ', 't'])) := by cbv
  have third : next .sqlite [' ', 't'] = some (.ok (.blank .space, ['t'])) := by cbv
  have table : next .sqlite ['t'] = some (.ok (.word "t" none, [])) := by cbv
  have reads : Token.ofText .sqlite source.text = .ok s.tokens := by
    change Token.ofText .sqlite "SELECT `:a` FROM t" = _
    rw [Token.ofText, text, tokens_next select, tokens_next first, tokens_next quoted,
      tokens_next second, tokens_next «from», tokens_next third, tokens_next table,
      tokens_end (by cbv)]
    rfl
  have accepted := statements_single .empty s reads (by cbv) (by decide)
  have sql : s.sql = "SELECT `:a` FROM t" := by decide
  refine ⟨_, s, accepted, .head _, rfl, ?_, ?_, ?_⟩
  · rw [sql]
    exact ⟨characters "SELECT `".toList, characters "` FROM t".toList, by cbv, by decide⟩
  · rintro offset name ⟨before, word, after, split, -⟩
    have colon : Token.colon ∈ s.tokens := by rw [split]; simp
    simp [s] at colon
  · rw [sql]
    cbv

end SqlSource
end SqlCatalog
