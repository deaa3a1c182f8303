import SqlCatalog.Proofs.Splicing
import SqlCatalog.Proofs.StatementTokens
/-!
Empty statements in bodies. Outside of bodies they are dropped, inside nothing drops them; and the
semicolon that is put behind an included file makes one just where the file's own tokens end in a
semicolon (`empty_statement_iff`).
-/
namespace SqlCatalog

namespace Token

open Inclusion (visible visible_cons visible_append)

/-! ### The end mark is not read -/

def Scanner.Unmarked (scan : Scanner) : Prop :=
  ∀ {cs : List Char} {t : Token} {rest : List Char}, scan cs = some (.ok (t, rest)) → t ≠ .endMark

theorem quoted_literal_unmarked {form : LiteralForm} {quote : Char} {start cs rest : List Char}
    {t : Token} (reads : quotedLiteral form quote start cs = .ok (t, rest)) : t ≠ .endMark := by
  unfold quotedLiteral at reads
  grind

theorem shielded_literal_unmarked {form : LiteralForm} {cs rest : List Char} {t : Token}
    (reads : shieldedLiteral form cs = .ok (t, rest)) : t ≠ .endMark := by
  unfold shieldedLiteral at reads
  grind

theorem raw_literal_unmarked {quote : Char} {cs rest : List Char} {t : Token}
    (reads : rawLiteral quote cs = .ok (t, rest)) : t ≠ .endMark := by
  unfold rawLiteral at reads
  grind [quoted_literal_unmarked]

theorem number_from_unmarked {digits cs rest : List Char} {t : Token}
    (reads : numberFrom digits cs = (t, rest)) : t ≠ .endMark := by
  unfold numberFrom at reads
  grind

theorem of_operator_unmarked (text : String) : ofOperator text ≠ .endMark := by
  unfold ofOperator
  grind

theorem scanners_unmarked {d : Dialect} {scan : Scanner} (listed : scan ∈ scanners d) :
    scan.Unmarked := by
  intro cs t rest reads
  simp only [scanners, List.mem_cons, List.not_mem_nil, or_false] at listed
  rcases listed with rfl | rfl | rfl | rfl | rfl | rfl | rfl | rfl | rfl | rfl | rfl | rfl | rfl |
    rfl | rfl | rfl | rfl | rfl | rfl | rfl
  · unfold scanSpace at reads
    grind
  · unfold scanBytes at reads
    grind [quoted_literal_unmarked]
  · unfold scanRaw at reads
    grind [raw_literal_unmarked]
  · unfold scanNational at reads
    grind [shielded_literal_unmarked]
  · unfold scanEscaped at reads
    grind
  · unfold scanUnicode at reads
    split at reads
    · simp only [Option.ite_none_right_eq_some, Option.some.injEq] at reads
      obtain ⟨read, -, same⟩ := map_eq_ok reads.2
      cases same
      simp
    · cases reads
  · unfold scanHex at reads
    grind [shielded_literal_unmarked]
  · unfold scanString at reads
    grind [quoted_literal_unmarked]
  · unfold scanQuotedWord at reads
    grind [Option.map_eq_some_iff]
  · unfold scanNumber at reads
    grind [number_from_unmarked]
  · unfold scanMark at reads
    grind
  · unfold scanComment at reads
    grind
  · unfold scanDivision at reads
    grind
  · unfold scanOperator at reads
    grind [Option.map_eq_some_iff, of_operator_unmarked]
  · unfold scanSignedWord at reads
    grind [wordFrom]
  · unfold scanOperator at reads
    grind [Option.map_eq_some_iff, of_operator_unmarked]
  · unfold scanQuestion at reads
    grind
  · unfold scanWord at reads
    grind [wordFrom]
  · unfold scanDollar at reads
    grind
  · unfold scanCharacter at reads
    grind

abbrev AllUnmarked (ts : List Token) : Prop := Run (· ≠ .endMark) (fun _ _ => True) ts

theorem unmarked_loose : Loose (· ≠ .endMark) fun _ _ => True where
  separator := by
    rintro t separator rfl
    cases separator
  unmarked := by simp
  before := fun _ _ _ => trivial
  behind := fun _ _ _ => trivial

theorem tokens_unmarked {d : Dialect} {cs : List Char} {ts : List Token}
    (reads : tokens d cs = .ok ts) : AllUnmarked ts := by
  cases first : next d cs with
  | none =>
    rw [tokens_end first] at reads
    cases reads
    exact run_nil
  | some result =>
    cases result with
    | error fault =>
      rw [tokens_fault first] at reads
      cases reads
    | ok read =>
      obtain ⟨t, rest⟩ := read
      rw [tokens_next first] at reads
      obtain ⟨us, others, rfl⟩ := map_eq_ok reads
      have shorter := next_shortens d first
      obtain ⟨scan, listed, here⟩ := List.exists_of_findSome?_eq_some first
      exact run_cons.mpr ⟨scanners_unmarked listed here, fun _ _ => trivial, tokens_unmarked others⟩
termination_by cs.length

/-! ### Two semicolons in a row -/

def Doubled (before ts : List Token) : Prop :=
  ∃ after, ts = before ++ .semicolon :: .semicolon :: after

theorem infix_doubled_iff (ts : List Token) :
    [.semicolon, .semicolon] <:+: ts ↔ ∃ before, Doubled before ts := by
  constructor
  · rintro ⟨before, after, split⟩
    exact ⟨before, after, by rw [← split, List.append_assoc]; rfl⟩
  · rintro ⟨before, after, rfl⟩
    exact ⟨before, after, by rw [List.append_assoc]; rfl⟩

theorem doubled_nil (before : List Token) : ¬ Doubled before [] := by
  rintro ⟨after, split⟩
  cases before <;> cases split

theorem doubled_here (t : Token) (ts : List Token) :
    Doubled [] (t :: ts) ↔ t = .semicolon ∧ ts.head? = some .semicolon := by
  constructor
  · rintro ⟨after, split⟩
    cases split
    exact ⟨rfl, rfl⟩
  · rintro ⟨rfl, head⟩
    obtain ⟨after, rfl⟩ := List.head?_eq_some_iff.mp head
    exact ⟨after, rfl⟩

theorem doubled_cons (u t : Token) (before ts : List Token) :
    Doubled (u :: before) (t :: ts) ↔ u = t ∧ Doubled before ts := by
  constructor
  · rintro ⟨after, split⟩
    cases split
    exact ⟨rfl, after, rfl⟩
  · rintro ⟨rfl, after, rfl⟩
    exact ⟨after, rfl⟩

theorem doubled_first (t : Token) (ts : List Token) (p : List Token → Prop) :
    (∃ before, Doubled before (t :: ts) ∧ p before) ↔
      (t = .semicolon ∧ ts.head? = some .semicolon ∧ p []) ∨
        ∃ before, Doubled before ts ∧ p (t :: before) := by
  constructor
  · rintro ⟨before, doubled, holds⟩
    cases before with
    | nil =>
      obtain ⟨same, head⟩ := (doubled_here t ts).mp doubled
      exact .inl ⟨same, head, holds⟩
    | cons u before =>
      obtain ⟨rfl, later⟩ := (doubled_cons u t before ts).mp doubled
      exact .inr ⟨before, later, holds⟩
  · rintro (⟨same, head, holds⟩ | ⟨before, doubled, holds⟩)
    · exact ⟨[], (doubled_here t ts).mpr ⟨same, head⟩, holds⟩
    · exact ⟨t :: before, (doubled_cons t t before ts).mpr ⟨rfl, doubled⟩, holds⟩

theorem doubled_splice (before xs ys : List Token) :
    Doubled before (xs ++ .semicolon :: ys) ↔
      Doubled before xs ∨ xs = before ++ [.semicolon] ∨
        (before = xs ∧ ys.head? = some .semicolon) ∨
        ∃ later, before = xs ++ .semicolon :: later ∧ Doubled later ys := by
  induction xs generalizing before with
  | nil =>
    rw [List.nil_append]
    cases before with
    | nil => simp [doubled_here, doubled_nil]
    | cons u before => simp [doubled_cons, doubled_nil]
  | cons x xs ih =>
    rw [List.cons_append]
    cases before with
    | nil =>
      rw [doubled_here, doubled_here]
      cases xs <;> simp
    | cons u before =>
      rw [doubled_cons, doubled_cons, ih]
      by_cases same : u = x
      · subst same
        simp
      · have other : x ≠ u := Ne.symm same
        simp [same, other]

/-! ### Semicolons in the groups of a run -/

theorem attach_visible {t : Token} {gs : List (List Token)} (some : gs ≠ []) :
    (attach t gs).map visible =
      if t.isBlank then gs.map visible else attach t (gs.map visible) := by
  obtain ⟨first, others, rfl⟩ := List.exists_cons_of_ne_nil some
  cases blank : t.isBlank <;> simp [attach, visible_cons, blank]

theorem groups_from_visible (n : Nesting) (ts : List Token) :
    groupsFrom n (visible ts) = (groupsFrom n ts).map visible := by
  induction ts generalizing n with
  | nil => rfl
  | cons t ts ih =>
    rw [visible_cons]
    by_cases cut : t = .semicolon ∧ n.depth = 0
    · obtain ⟨rfl, closed⟩ := cut
      rw [if_neg (by simp [isBlank]), groups_from_cut n closed, groups_from_cut n closed]
      exact congrArg _ (ih .outer)
    · rw [groups_from_keep n t ts cut, attach_visible (groups_from_ne_nil _ _), ← ih]
      by_cases blank : t.isBlank = true
      · have same := Nesting.past_blank n blank
        rw [Nesting.past, if_neg cut] at same
        rw [if_pos blank, if_pos blank, same]
      · rw [if_neg blank, if_neg blank, groups_from_keep n t _ cut]

theorem groups_from_head {n : Nesting} (inside : n.depth ≠ 0) {ts first : List Token}
    {others : List (List Token)} (split : groupsFrom n ts = first :: others) :
    first.head? = ts.head? := by
  cases ts with
  | nil =>
    cases split
    rfl
  | cons t ts =>
    rw [groups_from_keep n t ts fun cut => inside cut.2] at split
    obtain ⟨group, gs, made⟩ := List.exists_cons_of_ne_nil (groups_from_ne_nil (n.after t) ts)
    rw [made] at split
    cases split
    rfl

theorem doubled_in_group (n : Nesting) (ts : List Token) :
    (∃ group ∈ groupsFrom n ts, ∃ before, Doubled before group) ↔
      ∃ before, Doubled before ts ∧ (n.behind before).depth ≠ 0 := by
  induction ts generalizing n with
  | nil => simp [groupsFrom, doubled_nil]
  | cons t ts ih =>
    rw [doubled_first]
    by_cases cut : t = .semicolon ∧ n.depth = 0
    · obtain ⟨rfl, closed⟩ := cut
      have behind (before : List Token) :
          n.behind (.semicolon :: before) = Nesting.outer.behind before := by
        rw [Nesting.behind_cons, Nesting.past_cut n closed]
      have here : (n.behind []).depth = 0 := closed
      rw [groups_from_cut n closed]
      simp only [List.mem_cons, exists_eq_or_imp, doubled_nil, exists_false, false_or, behind, here]
      simpa using ih .outer
    · have behind (before : List Token) : n.behind (t :: before) = (n.after t).behind before := by
        rw [Nesting.behind_cons, Nesting.past, if_neg cut]
      have onward := ih (n.after t)
      obtain ⟨first, others, split⟩ := List.exists_cons_of_ne_nil (groups_from_ne_nil (n.after t) ts)
      have front : t = .semicolon ∧ first.head? = some .semicolon ↔
          t = .semicolon ∧ ts.head? = some .semicolon ∧ (n.behind []).depth ≠ 0 := by
        constructor
        · rintro ⟨rfl, head⟩
          have inside : (n.after .semicolon).depth ≠ 0 := fun closed => cut ⟨rfl, closed⟩
          exact ⟨rfl, groups_from_head inside split ▸ head, inside⟩
        · rintro ⟨rfl, head, inside⟩
          have kept : (n.after .semicolon).depth ≠ 0 := inside
          exact ⟨rfl, (groups_from_head kept split).trans head⟩
      have longer := doubled_first t first fun _ => True
      simp only [and_true] at longer
      rw [split] at onward
      rw [groups_from_keep n t ts cut, split, attach]
      simp only [List.mem_cons, exists_eq_or_imp, behind] at onward ⊢
      rw [longer, front, or_assoc, onward]

end Token

namespace Statement

open Token
open Inclusion (visible)

theorem of_tokens_significant {group : List Token} {st : Statement} (unmarked : AllUnmarked group)
    (made : ofTokens? group = some st) : st.significant = visible group := by
  have kept : (squeezed group).filter (fun t => !t.isBlank) =
      (squeezed group).filter isSignificant := by
    apply List.filter_congr
    intro t mem
    simp [isSignificant, (run_squeezed unmarked_loose unmarked).all t mem]
  unfold ofTokens? at made
  split at made <;> cases made
  rw [significant, kept, significant_squeezed, visible]
  apply List.filter_congr
  intro t mem
  simp [isSignificant, unmarked.all t mem]

theorem of_tokens_some {group : List Token} (unmarked : AllUnmarked group)
    (seen : visible group ≠ []) : ∃ st, ofTokens? group = some st := by
  unfold ofTokens?
  split
  · next empty =>
    obtain ⟨t, mem⟩ := List.exists_mem_of_ne_nil _ seen
    obtain ⟨inside, shown⟩ := List.mem_filter.mp mem
    have significant : t ∈ group.filter isSignificant := by
      rw [List.mem_filter, isSignificant]
      exact ⟨inside, by simpa [unmarked.all t inside] using shown⟩
    rw [← significant_squeezed, empty] at significant
    cases significant
  · exact ⟨_, rfl⟩

theorem doubled_in_statement {out : List Token} (unmarked : AllUnmarked out) :
    (∃ st ∈ listOfTokens out, [.semicolon, .semicolon] <:+: st.significant) ↔
      ∃ before, Doubled before (visible out) ∧ (Nesting.outer.behind before).depth ≠ 0 := by
  have within {group : List Token} (mem : group ∈ groups out) : AllUnmarked group :=
    run_inside unmarked (groups_within mem)
  rw [← doubled_in_group, groups_from_visible, listOfTokens]
  constructor
  · rintro ⟨st, listed, doubled⟩
    obtain ⟨group, mem, made⟩ := List.mem_filterMap.mp listed
    rw [of_tokens_significant (within mem) made] at doubled
    exact ⟨visible group, List.mem_map_of_mem mem, (infix_doubled_iff _).mp doubled⟩
  · rintro ⟨_, listed, before, doubled⟩
    obtain ⟨group, mem, rfl⟩ := List.mem_map.mp listed
    have seen : visible group ≠ [] := fun empty => doubled_nil before (empty ▸ doubled)
    obtain ⟨st, made⟩ := of_tokens_some (within mem) seen
    refine ⟨st, List.mem_filterMap.mpr ⟨group, mem, made⟩, ?_⟩
    rw [of_tokens_significant (within mem) made, infix_doubled_iff]
    exact ⟨before, doubled⟩

end Statement

namespace Inclusion

open Token

structure Filled (ts : List Token) : Prop where
  start : (visible ts).head? ≠ some .semicolon
  inner : ¬ [.semicolon, .semicolon] <:+: visible ts

instance (ts : List Token) : Decidable (Filled ts) :=
  decidable_of_iff ((visible ts).head? ≠ some .semicolon ∧
      ¬ [Token.semicolon, .semicolon] <:+: visible ts)
    ⟨fun both => ⟨both.1, both.2⟩, fun filled => ⟨filled.1, filled.2⟩⟩

theorem filled_inner {ts : List Token} (filled : Filled ts) (before : List Token) :
    ¬ Doubled before (visible ts) := fun doubled =>
  filled.inner ((infix_doubled_iff _).mpr ⟨before, doubled⟩)

variable (s : Setting)

-- Where tokens are inlined, the tokens `file` of a file are put in behind `before`.
inductive PutIn : (atStart : Bool) → List Token → (before file : List Token) → Prop where
  | here {word name : Token} {target : Path} {location : Location} {rest file : List Token}
      (directs : isDirectiveWord word = true) (named : fileName? name = some target)
      (leads : s.files.resolve (s.base.join target) = .ok location)
      (holds : Holds s location file) : PutIn true (word :: name :: rest) [] file
  | inside {word name : Token} {target : Path} {location : Location}
      {rest ts before file : List Token} (directs : isDirectiveWord word = true)
      (named : fileName? name = some target)
      (leads : s.files.resolve (s.base.join target) = .ok location) (holds : Holds s location ts)
      (within : PutIn true (visible ts) before file) : PutIn true (word :: name :: rest) before file
  | behind {word name : Token} {target : Path} {location : Location}
      {rest ts included before file : List Token} (directs : isDirectiveWord word = true)
      (named : fileName? name = some target)
      (leads : s.files.resolve (s.base.join target) = .ok location) (holds : Holds s location ts)
      (inlined : Inlined s true (visible ts) included)
      (later : PutIn true (dropSemicolon rest) before file) :
      PutIn true (word :: name :: rest) (included ++ .semicolon :: before) file
  | semicolon {atStart : Bool} {rest before file : List Token}
      (later : PutIn true rest before file) :
      PutIn atStart (.semicolon :: rest) (.semicolon :: before) file
  | token {atStart : Bool} {t : Token} {rest before file : List Token} (inner : t ≠ .semicolon)
      (plain : (atStart && isDirectiveWord t) = false) (later : PutIn false rest before file) :
      PutIn atStart (t :: rest) (t :: before) file

theorem put_in_semicolon (atStart : Bool) (rest before file : List Token) :
    PutIn s atStart (.semicolon :: rest) before file ↔
      ∃ later, before = .semicolon :: later ∧ PutIn s true rest later file := by
  constructor
  · intro put
    cases put with
    | here directs => cases directs
    | inside directs => cases directs
    | behind directs => cases directs
    | semicolon later => exact ⟨_, rfl, later⟩
    | token inner => exact absurd rfl inner
  · rintro ⟨later, rfl, put⟩
    exact .semicolon put

theorem put_in_token {atStart : Bool} {t : Token} (inner : t ≠ .semicolon)
    (plain : (atStart && isDirectiveWord t) = false) (rest before file : List Token) :
    PutIn s atStart (t :: rest) before file ↔
      ∃ later, before = t :: later ∧ PutIn s false rest later file := by
  constructor
  · intro put
    cases put with
    | here directs => simp [directs] at plain
    | inside directs => simp [directs] at plain
    | behind directs => simp [directs] at plain
    | semicolon => exact absurd rfl inner
    | token _ _ later => exact ⟨_, rfl, later⟩
  · rintro ⟨later, rfl, put⟩
    exact .token inner plain put

theorem put_in_directive {word name : Token} {target : Path} {location : Location}
    {ts included : List Token} (directs : isDirectiveWord word = true)
    (named : fileName? name = some target)
    (leads : s.files.resolve (s.base.join target) = .ok location) (holds : Holds s location ts)
    (inlined : Inlined s true (visible ts) included) (rest before file : List Token) :
    PutIn s true (word :: name :: rest) before file ↔
      before = [] ∧ file = ts ∨ PutIn s true (visible ts) before file ∨
        ∃ later, before = included ++ .semicolon :: later ∧
          PutIn s true (dropSemicolon rest) later file := by
  have same {found : Path} {place : Location} {us : List Token}
      (namedHere : fileName? name = some found)
      (leadsHere : s.files.resolve (s.base.join found) = .ok place)
      (holdsHere : Holds s place us) : us = ts := by
    rw [named] at namedHere
    cases namedHere
    rw [leads] at leadsHere
    cases leadsHere
    exact holds_unique s holdsHere holds
  constructor
  · intro put
    cases put with
    | here _ namedHere leadsHere holdsHere => exact .inl ⟨rfl, same namedHere leadsHere holdsHere⟩
    | inside _ namedHere leadsHere holdsHere within =>
      obtain rfl := same namedHere leadsHere holdsHere
      exact .inr (.inl within)
    | behind _ namedHere leadsHere holdsHere inlinedHere later =>
      obtain rfl := same namedHere leadsHere holdsHere
      obtain rfl := inlined_unique s inlined _ inlinedHere
      exact .inr (.inr ⟨_, rfl, later⟩)
    | semicolon => cases directs
    | token _ plain => simp [directs] at plain
  · rintro (⟨rfl, rfl⟩ | within | ⟨later, rfl, put⟩)
    · exact .here directs named leads holds
    · exact .inside directs named leads holds within
    · exact .behind directs named leads holds inlined put

-- A file is put in whose tokens end in a semicolon when they are inlined. In front of that
-- semicolon there is `before`.
def Trailing (atStart : Bool) (ts before : List Token) : Prop :=
  ∃ front file included, before = front ++ included ∧ PutIn s atStart ts front file ∧
    Inlined s true (visible file) (included ++ [.semicolon])

theorem trailing_nil (atStart : Bool) (before : List Token) : ¬ Trailing s atStart [] before := by
  rintro ⟨front, file, included, -, put, -⟩
  cases put

theorem trailing_semicolon (atStart : Bool) (rest before : List Token) :
    Trailing s atStart (.semicolon :: rest) before ↔
      ∃ later, before = .semicolon :: later ∧ Trailing s true rest later := by
  constructor
  · rintro ⟨front, file, included, rfl, put, ends⟩
    obtain ⟨later, rfl, onward⟩ := (put_in_semicolon s atStart rest front file).mp put
    exact ⟨_, rfl, later, file, included, rfl, onward, ends⟩
  · rintro ⟨-, rfl, front, file, included, rfl, put, ends⟩
    exact ⟨_, file, included, rfl, .semicolon put, ends⟩

theorem trailing_token {atStart : Bool} {t : Token} (inner : t ≠ .semicolon)
    (plain : (atStart && isDirectiveWord t) = false) (rest before : List Token) :
    Trailing s atStart (t :: rest) before ↔
      ∃ later, before = t :: later ∧ Trailing s false rest later := by
  constructor
  · rintro ⟨front, file, included, rfl, put, ends⟩
    obtain ⟨later, rfl, onward⟩ := (put_in_token s inner plain rest front file).mp put
    exact ⟨_, rfl, later, file, included, rfl, onward, ends⟩
  · rintro ⟨-, rfl, front, file, included, rfl, put, ends⟩
    exact ⟨_, file, included, rfl, .token inner plain put, ends⟩

theorem trailing_directive {word name : Token} {target : Path} {location : Location}
    {ts included : List Token} (directs : isDirectiveWord word = true)
    (named : fileName? name = some target)
    (leads : s.files.resolve (s.base.join target) = .ok location) (holds : Holds s location ts)
    (inlined : Inlined s true (visible ts) included) (rest before : List Token) :
    Trailing s true (word :: name :: rest) before ↔
      included = before ++ [.semicolon] ∨ Trailing s true (visible ts) before ∨
        ∃ later, before = included ++ .semicolon :: later ∧
          Trailing s true (dropSemicolon rest) later := by
  have puts := put_in_directive s directs named leads holds inlined rest
  constructor
  · rintro ⟨front, file, content, rfl, put, ends⟩
    rcases (puts front file).mp put with ⟨rfl, rfl⟩ | within | ⟨later, rfl, onward⟩
    · exact .inl (inlined_unique s inlined _ ends)
    · exact .inr (.inl ⟨front, file, content, rfl, within, ends⟩)
    · refine .inr (.inr ⟨later ++ content, ?_, later, file, content, rfl, onward, ends⟩)
      rw [List.append_assoc, List.cons_append]
  · rintro (rfl | ⟨front, file, content, rfl, put, ends⟩ |
      ⟨-, rfl, front, file, content, rfl, put, ends⟩)
    · exact ⟨[], ts, before, rfl, (puts [] ts).mpr (.inl ⟨rfl, rfl⟩), inlined⟩
    · exact ⟨front, file, content, rfl, (puts front file).mpr (.inr (.inl put)), ends⟩
    · refine ⟨_, file, content, ?_, (puts _ file).mpr (.inr (.inr ⟨front, rfl, put⟩)), ends⟩
      rw [List.append_assoc, List.cons_append]

def AllFilled (atStart : Bool) (ts : List Token) : Prop :=
  ∀ before file, PutIn s atStart ts before file → Filled file ∧ visible file ≠ []

theorem inlined_empty {atStart : Bool} {ts out : List Token} (inlined : Inlined s atStart ts out)
    (empty : out = []) : ts = [] := by
  cases inlined with
  | nil => rfl
  | directive => simp at empty
  | semicolon => cases empty
  | token => cases empty

theorem inlined_front {atStart : Bool} {ts out : List Token} (inlined : Inlined s atStart ts out)
    (files : AllFilled s atStart ts) (head : out.head? = some .semicolon) :
    ts.head? = some .semicolon := by
  induction inlined with
  | nil => cases head
  | @directive word name target location ts rest included out directs named leads holds file others
      ihFile ihOthers =>
    obtain ⟨filled, some⟩ := files [] ts (.here directs named leads holds)
    have inner : AllFilled s true (visible ts) := fun before file put =>
      files before file (.inside directs named leads holds put)
    cases included with
    | nil => exact absurd (inlined_empty s file rfl) some
    | cons first others => exact absurd (ihFile inner head) filled.start
  | semicolon others ih => rfl
  | token inside plain others ih => exact absurd (Option.some.inj head) inside

theorem doubled_behind {t : Token} {ts : List Token} (inner : ∀ before, ¬ Doubled before (t :: ts))
    (before : List Token) : ¬ Doubled before ts := fun doubled =>
  inner (t :: before) ((doubled_cons t t before ts).mpr ⟨rfl, doubled⟩)

theorem drop_semicolon_inner {ts : List Token} (inner : ∀ before, ¬ Doubled before ts) :
    (∀ before, ¬ Doubled before (dropSemicolon ts)) ∧
      (dropSemicolon ts).head? ≠ some .semicolon := by
  unfold dropSemicolon
  split
  · next ts =>
    refine ⟨doubled_behind inner, fun head => ?_⟩
    exact inner [] ((doubled_here _ ts).mpr ⟨rfl, head⟩)
  · next other =>
    refine ⟨inner, fun head => ?_⟩
    obtain ⟨rest, rfl⟩ := List.head?_eq_some_iff.mp head
    exact other rest rfl

-- In front of the semicolon that is put behind a file the file may end in one; behind it no
-- statement begins with one. So there are no other two in a row.
theorem inlined_doubled {atStart : Bool} {ts out : List Token} (inlined : Inlined s atStart ts out)
    (inner : ∀ before, ¬ Doubled before ts) (files : AllFilled s atStart ts) (before : List Token) :
    Doubled before out ↔ Trailing s atStart ts before := by
  induction inlined generalizing before with
  | nil => exact iff_of_false (doubled_nil before) (trailing_nil s _ before)
  | @directive word name target location ts rest included out directs named leads holds file others
      ihFile ihOthers =>
    obtain ⟨filled, -⟩ := files [] ts (.here directs named leads holds)
    obtain ⟨innerBehind, front⟩ := drop_semicolon_inner (doubled_behind (doubled_behind inner))
    have filesInside : AllFilled s true (visible ts) := fun front us put =>
      files front us (.inside directs named leads holds put)
    have filesBehind : AllFilled s true (dropSemicolon rest) := fun front us put =>
      files _ us (.behind directs named leads holds file put)
    have apart : out.head? ≠ some .semicolon := fun head =>
      front (inlined_front s others filesBehind head)
    rw [doubled_splice, trailing_directive s directs named leads holds file,
      ihFile (filled_inner filled) filesInside]
    simp only [apart, and_false, false_or, ihOthers innerBehind filesBehind]
    exact or_left_comm
  | @semicolon atStart rest out others ih =>
    have files : AllFilled s true rest := fun front us put => files _ us (.semicolon put)
    have apart : out.head? ≠ some .semicolon := fun head =>
      inner [] ((doubled_here _ rest).mpr ⟨rfl, inlined_front s others files head⟩)
    rw [trailing_semicolon]
    cases before with
    | nil => simp [doubled_here, apart]
    | cons u before =>
      rw [doubled_cons, ih (doubled_behind inner) files]
      simp
  | @token atStart t rest out inside plain others ih =>
    have files : AllFilled s false rest := fun front us put => files _ us (.token inside plain put)
    rw [trailing_token s inside plain]
    cases before with
    | nil => simp [doubled_here, inside]
    | cons u before =>
      rw [doubled_cons, ih (doubled_behind inner) files]
      simp

theorem put_in_passed {atStart next : Bool} {t kept : Token} (passed : Passed atStart t kept next)
    {rest before file : List Token} (put : PutIn s atStart (visible (t :: rest)) before file) :
    ∃ later, PutIn s next (visible rest) later file := by
  rw [visible_cons] at put
  cases passed with
  | blank blank keptBlank =>
    rw [if_pos blank] at put
    exact ⟨before, put⟩
  | semicolon =>
    obtain ⟨later, -, put⟩ := (put_in_semicolon s atStart _ before file).mp put
    exact ⟨later, put⟩
  | other seen inside plain =>
    rw [if_neg (by simp [seen])] at put
    obtain ⟨later, -, put⟩ := (put_in_token s inside plain _ before file).mp put
    exact ⟨later, put⟩

theorem put_in_reaches {stack : List Location} {ps : List Piece} {out : List Token}
    (expands : Expands s stack ps out) (atStart : Bool) (ts : List Token)
    (read : piecesFrom (.statement atStart) ts = ps) {before file : List Token}
    (put : PutIn s atStart (visible ts) before file) :
    ∃ location, Reaches s ps location ∧ Holds s location file := by
  induction expands generalizing atStart ts before with
  | nil =>
    cases tokens_of_nil read
    cases put
  | token rest ih =>
    obtain ⟨u, us, next, rfl, passed, onward⟩ := tokens_of_token read
    obtain ⟨later, put⟩ := put_in_passed s passed put
    obtain ⟨location, reached, holds⟩ := ih next us onward put
    exact ⟨location, reaches_cons s reached, holds⟩
  | @directive stack target location fileTokens ps included out leads fresh holds inner rest ihFile
      ihRest =>
    obtain ⟨word, name, following, others, rfl, directs, named, front, -, dropped, onward⟩ :=
      tokens_of_directive read
    have names : Names s (.directive target :: ps) location :=
      ⟨target, List.mem_cons_self, leads⟩
    have inlined := expands_inlined s inner true fileTokens rfl
    rw [front] at put
    rcases (put_in_directive s directs named leads holds inlined _ before file).mp put with
      ⟨-, rfl⟩ | within | ⟨later, -, put⟩
    · exact ⟨location, ⟨location, names, .refl⟩, holds⟩
    · obtain ⟨below, reached, holdsBelow⟩ := ihFile true fileTokens rfl within
      exact ⟨below, reaches_file s names holds reached, holdsBelow⟩
    · rw [← dropped] at put
      obtain ⟨below, reached, holdsBelow⟩ := ihRest true others onward put
      exact ⟨below, reaches_cons s reached, holdsBelow⟩

theorem all_filled {ts out : List Token} (expands : Expands s [] (pieces ts) out)
    (files : ∀ location us, Reaches s (pieces ts) location → Holds s location us →
      Filled us ∧ visible us ≠ []) :
    AllFilled s true (visible ts) := by
  intro before file put
  obtain ⟨location, reached, holds⟩ := put_in_reaches s expands true ts rfl put
  exact files location file reached holds

-- Neither the text nor a file that is reached has an empty statement, and each file has one that is
-- not. Then a statement of the whole has an empty one just if a file is put into a body whose tokens
-- end in a semicolon.
theorem empty_statement_iff {text origin : String} {ts out : List Token}
    (reads : Token.ofText s.dialect text = .ok ts) (filled : Filled ts)
    (files : ∀ location us, Reaches s (pieces ts) location → Holds s location us →
      Filled us ∧ visible us ≠ [])
    (succeeds : expand s origin ts = .ok out) :
    (∃ st ∈ Statement.listOfTokens out, [.semicolon, .semicolon] <:+: st.significant) ↔
      ∃ before, Trailing s true (visible ts) before ∧ (Nesting.outer.behind before).depth ≠ 0 := by
  have expands := expands_of_ok s [] origin _ out succeeds
  have unmarked : AllUnmarked out := by
    refine (expands_run unmarked_loose s ?_ expands true ts rfl ?_).1
    · rintro location us ⟨text, -, readsFile⟩
      exact tokens_unmarked (of_text_ok_iff.mp readsFile)
    · exact tokens_unmarked (of_text_ok_iff.mp reads)
  have doubled := inlined_doubled s (expands_inlined s expands true ts rfl)
    (filled_inner filled) (all_filled s expands files)
  simp only [Statement.doubled_in_statement unmarked, doubled]

theorem holds_lone {text : String} {location : Location} {us : List Token}
    (holds : Holds (lone text) location us) : Token.ofText .sqlite text = .ok us := by
  obtain ⟨held, found, reads⟩ := holds
  by_cases here : location = ["f"]
  · cases (if_pos here).symm.trans found
    exact reads
  · cases (if_neg here).symm.trans found

def triggerTokens : List Token :=
  [.word "CREATE" none, .blank .space, .word "TRIGGER" none, .blank .space, .word "t" none,
   .blank .space, .word "DELETE" none, .blank .space, .word "ON" none, .blank .space,
   .word "a" none, .blank .space, .word "BEGIN" none, .blank .space, .word "DELETE" none,
   .blank .space, .word "FROM" none, .blank .space, .word "b" none, .semicolon, .blank .space,
   .word "INCLUDE" none, .blank .space, .literal .plain "f", .semicolon, .blank .space,
   .word "END" none]

theorem trigger_tokens_read :
    Token.ofText .sqlite "CREATE TRIGGER t DELETE ON a BEGIN DELETE FROM b; INCLUDE 'f'; END" =
      .ok triggerTokens := by
  decide +kernel

theorem trigger_tokens_expand {text : String} {ts : List Token}
    (reads : Token.ofText .sqlite text = .ok ts) (bare : pieces ts = ts.map .token) :
    expand (lone text) "op" triggerTokens = .ok (triggerTokens.take 21 ++
      .blank .space :: (ts ++ .semicolon :: [.blank .space, .word "END" none])) := by
  have read : pieces triggerTokens = (triggerTokens.take 21).map .token ++
      .directive ⟨"f"⟩ :: [.token (.blank .space), .token (.word "END" none)] := by cbv
  have file : Expands (lone text) [["f"]] (pieces ts) ts := by
    rw [bare]
    exact expands_of_ok _ _ "f" _ _ (expand_tokens _ _ _ _)
  have front :
      Expands (lone text) [] ((triggerTokens.take 21).map .token) (triggerTokens.take 21) :=
    expands_of_ok _ _ "op" _ _ (expand_tokens _ _ _ _)
  refine ok_of_expands _ ?_ "op"
  rw [read]
  exact expands_append _ front
    (.directive (lone_leads text) (by simp) (lone_holds reads) file (.token (.token .nil)))

theorem empty_statement_iff_open :
    let s := lone "DELETE FROM c"
    ∃ out, expand s "op" triggerTokens = .ok out ∧
      (Statement.listOfTokens out).map Statement.sql =
        ["CREATE TRIGGER t DELETE ON a BEGIN DELETE FROM b; DELETE FROM c; END"] ∧
      ¬ ∃ before, Trailing s true (visible triggerTokens) before ∧
        (Nesting.outer.behind before).depth ≠ 0 := by
  intro s
  have reads : Token.ofText .sqlite "DELETE FROM c" = .ok [.word "DELETE" none, .blank .space,
      .word "FROM" none, .blank .space, .word "c" none] := by decide +kernel
  have files (location : Location) (us : List Token) (_ : Reaches s (pieces triggerTokens) location)
      (holds : Holds s location us) : Filled us ∧ visible us ≠ [] := by
    cases reads.symm.trans (holds_lone holds)
    decide
  have expands := trigger_tokens_expand reads (by cbv)
  refine ⟨_, expands, by decide, ?_⟩
  rw [← empty_statement_iff s trigger_tokens_read (by decide) files expands]
  decide

theorem trigger_body_doubled :
    let s := lone "DELETE FROM c;"
    Filled triggerTokens ∧
    (∀ location us, Reaches s (pieces triggerTokens) location → Holds s location us →
      Filled us ∧ visible us ≠ []) ∧
    ∃ out, expand s "op" triggerTokens = .ok out ∧
      (∃ st ∈ Statement.listOfTokens out, [.semicolon, .semicolon] <:+: st.significant) ∧
      (Statement.listOfTokens out).map Statement.sql =
        ["CREATE TRIGGER t DELETE ON a BEGIN DELETE FROM b; DELETE FROM c;; END"] := by
  intro s
  have reads : Token.ofText .sqlite "DELETE FROM c;" = .ok [.word "DELETE" none, .blank .space,
      .word "FROM" none, .blank .space, .word "c" none, .semicolon] := by decide +kernel
  refine ⟨by decide, fun location us _ holds => ?_, _, trigger_tokens_expand reads (by cbv), ?_, ?_⟩
  · cases reads.symm.trans (holds_lone holds)
    decide
  · decide
  · decide

end Inclusion
end SqlCatalog
