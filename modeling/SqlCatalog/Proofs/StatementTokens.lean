import Mathlib.Data.List.Chain
import SqlCatalog.Proofs.Inclusion
import SqlCatalog.Statement.Source
/-!
From the tokens read to the tokens of a statement. Tokens are dropped and blanks and semicolons put
in between, so what holds of every token read and of its neighbours still holds in a statement, if
blanks and semicolons may stand anywhere (`statements_run`).
-/
namespace SqlCatalog

namespace Token

structure Run (good : Token → Prop) (joins : Token → Token → Prop) (ts : List Token) : Prop where
  all : ∀ t ∈ ts, good t
  chain : ts.IsChain joins

def separates (t : Token) : Bool := t.isBlank || t == .semicolon

structure Loose (good : Token → Prop) (joins : Token → Token → Prop) : Prop where
  separator : ∀ t, t.separates = true → good t
  unmarked : ¬ good .endMark
  before : ∀ t u, u.separates = true → joins t u
  behind : ∀ t u, t.separates = true → joins t u

variable {good : Token → Prop} {joins : Token → Token → Prop}

theorem run_nil : Run good joins [] := ⟨by simp, .nil⟩

theorem run_cons {t : Token} {ts : List Token} :
    Run good joins (t :: ts) ↔ good t ∧ (∀ u ∈ ts.head?, joins t u) ∧ Run good joins ts := by
  constructor
  · intro run
    have chain := List.isChain_cons.mp run.chain
    exact ⟨run.all t List.mem_cons_self, chain.1,
      fun u mem => run.all u (List.mem_cons_of_mem t mem), chain.2⟩
  · rintro ⟨first, joined, others⟩
    refine ⟨fun u mem => ?_, List.isChain_cons.mpr ⟨joined, others.chain⟩⟩
    rcases List.mem_cons.mp mem with rfl | later
    · exact first
    · exact others.all u later

theorem run_singleton {t : Token} (first : good t) : Run good joins [t] :=
  run_cons.mpr ⟨first, by simp, run_nil⟩

theorem run_inside {ts us : List Token} (run : Run good joins ts) (inside : us <:+: ts) :
    Run good joins us :=
  ⟨fun t mem => run.all t (inside.subset mem), run.chain.infix inside⟩

theorem run_separated (loose : Loose good joins) {ts us : List Token} {t : Token}
    (separator : t.separates = true) (left : Run good joins ts) (right : Run good joins us) :
    Run good joins (ts ++ t :: us) := by
  have behind : Run good joins (t :: us) :=
    run_cons.mpr ⟨loose.separator t separator, fun u _ => loose.behind t u separator, right⟩
  refine ⟨fun u mem => ?_, List.isChain_append.mpr ⟨left.chain, behind.chain, fun u _ v head => ?_⟩⟩
  · rcases List.mem_append.mp mem with first | second
    · exact left.all u first
    · exact behind.all u second
  · cases head
    exact loose.before u t separator

theorem separates_blank {t : Token} (blank : t.isBlank = true) : t.separates = true := by
  rw [separates, blank, Bool.true_or]

theorem run_squeezed_tail (loose : Loose good joins) {t : Token} {ts : List Token} (first : good t)
    (gap : Bool) (run : Run good joins ts) (joined : gap = false → ∀ u ∈ ts.head?, joins t u) :
    Run good joins (t :: squeezedTail gap ts) := by
  induction ts generalizing t gap with
  | nil => exact run_cons.mpr ⟨first, by simp [squeezedTail], run_nil⟩
  | cons u us ih =>
    obtain ⟨goodHere, joinedHere, others⟩ := run_cons.mp run
    rw [squeezedTail]
    by_cases blank : u.isBlank = true
    · rw [if_pos blank]
      exact ih first true others (by simp)
    · rw [if_neg blank]
      have onward := ih goodHere false others fun _ => joinedHere
      by_cases marked : u = endMark
      · exact absurd (marked ▸ goodHere) loose.unmarked
      · rw [if_neg marked]
        cases gap with
        | true => exact run_separated loose rfl (run_singleton first) onward
        | false => exact run_cons.mpr ⟨first, joined rfl, onward⟩

theorem run_squeezed (loose : Loose good joins) {ts : List Token} (run : Run good joins ts) :
    Run good joins (squeezed ts) := by
  induction ts with
  | nil => exact run_nil
  | cons t ts ih =>
    obtain ⟨first, joined, others⟩ := run_cons.mp run
    rw [squeezed]
    by_cases seen : t.isSignificant = true
    · rw [if_pos seen]
      exact run_squeezed_tail loose first false others fun _ => joined
    · rw [if_neg seen]
      exact ih others

theorem squeezed_tail_blank {gap : Bool} {ts : List Token} {t : Token}
    (mem : t ∈ squeezedTail gap ts) (blank : t.isBlank = true) : t = space := by
  fun_induction squeezedTail gap ts with
  | case1 => cases mem
  | case2 _ _ _ _ ih => exact ih mem
  | case3 _ _ _ ih => exact ih mem
  | case4 u us shown marked ih =>
    rcases List.mem_cons.mp mem with rfl | mem
    · rfl
    · rcases List.mem_cons.mp mem with rfl | mem
      · exact absurd blank shown
      · exact ih mem
  | case5 gap u us shown marked gapless ih =>
    rcases List.mem_cons.mp mem with rfl | mem
    · exact absurd blank shown
    · exact ih mem

theorem squeezed_blank {ts : List Token} {t : Token} (mem : t ∈ squeezed ts)
    (blank : t.isBlank = true) : t = space := by
  induction ts with
  | nil => cases mem
  | cons u us ih =>
    rw [squeezed] at mem
    by_cases seen : u.isSignificant = true
    · rw [if_pos seen] at mem
      rcases List.mem_cons.mp mem with rfl | mem
      · simp [isSignificant, blank] at seen
      · exact squeezed_tail_blank mem blank
    · rw [if_neg seen] at mem
      exact ih mem

-- The groups of a run stand in it one behind the other; only the first one begins where it does.
theorem groups_from_within (n : Nesting) (ts : List Token) :
    ∃ g gs, groupsFrom n ts = g :: gs ∧ g <+: ts ∧ ∀ h ∈ gs, h <:+: ts := by
  induction ts generalizing n with
  | nil => exact ⟨[], [], rfl, List.prefix_refl _, by simp⟩
  | cons t ts ih =>
    rw [groupsFrom]
    by_cases cut : t = .semicolon ∧ n.depth = 0
    · obtain ⟨g, gs, split, first, others⟩ := ih .outer
      rw [if_pos cut, split]
      refine ⟨[], _, rfl, List.nil_prefix, fun h mem => ?_⟩
      rcases List.mem_cons.mp mem with rfl | mem
      · exact List.infix_cons first.isInfix
      · exact List.infix_cons (others h mem)
    · obtain ⟨g, gs, split, first, others⟩ := ih (n.after t)
      rw [if_neg cut, split]
      exact ⟨t :: g, gs, rfl, List.cons_prefix_cons.mpr ⟨rfl, first⟩,
        fun h mem => List.infix_cons (others h mem)⟩

theorem groups_within {ts g : List Token} (mem : g ∈ groups ts) : g <:+: ts := by
  obtain ⟨first, others, split, starts, inside⟩ := groups_from_within .outer ts
  rw [groups, split] at mem
  rcases List.mem_cons.mp mem with rfl | later
  · exact starts.isInfix
  · exact inside g later

theorem of_text_ok_iff {d : Dialect} {text : String} {ts : List Token} :
    ofText d text = .ok ts ↔ tokens d text.toList = .ok ts := by
  unfold ofText
  cases tokens d text.toList <;> simp

end Token

namespace Inclusion

open Token

variable {good : Token → Prop} {joins : Token → Token → Prop}

theorem passed_kept {atStart next : Bool} {t kept : Token} (passed : Passed atStart t kept next) :
    kept = t ∨ kept.separates = true := by
  cases passed with
  | blank blank keptBlank => exact .inr (separates_blank keptBlank)
  | semicolon => exact .inr rfl
  | other seen inside plain => exact .inl rfl

-- Along with the run, the induction carries what may stand in front of it: whatever may stand in
-- front of the tokens read.
theorem expands_run (loose : Loose good joins) (s : Setting)
    (read : ∀ location ts, Holds s location ts → Run good joins ts) {stack : List Location}
    {ps : List Piece} {out : List Token} (expands : Expands s stack ps out) (atStart : Bool)
    (ts : List Token) (pieces : piecesFrom (.statement atStart) ts = ps) (run : Run good joins ts) :
    Run good joins out ∧
      ∀ t, (∀ u ∈ ts.head?, joins t u) → ∀ v ∈ out.head?, joins t v := by
  induction expands generalizing atStart ts with
  | nil => exact ⟨run_nil, by simp⟩
  | @token stack kept ps out rest ih =>
    obtain ⟨u, us, next, rfl, passed, onward⟩ := tokens_of_token pieces
    obtain ⟨first, joined, others⟩ := run_cons.mp run
    obtain ⟨further, front⟩ := ih next us onward others
    rcases passed_kept passed with rfl | separator
    · refine ⟨run_cons.mpr ⟨first, front kept joined, further⟩, fun t before v head => ?_⟩
      cases head
      exact before kept rfl
    · refine ⟨run_separated loose separator run_nil further, fun t before v head => ?_⟩
      cases head
      exact loose.before t kept separator
  | @directive stack target location fileTokens ps included out leads fresh holds file rest ihFile
      ihRest =>
    obtain ⟨-, -, -, others, -, -, -, -, behind, -, onward⟩ := tokens_of_directive pieces
    have inner := (ihFile true fileTokens rfl (read location fileTokens holds)).1
    have outer := (ihRest true others onward (run_inside run behind.isInfix)).1
    refine ⟨run_separated loose rfl run_nil (run_separated loose rfl inner outer), ?_⟩
    intro t before v head
    cases head
    exact loose.before t _ rfl

end Inclusion

namespace SqlSource

open Token

variable {good : Token → Prop} {joins : Token → Token → Prop}

theorem expanded_run (loose : Loose good joins) {source : SqlSource} {files : FileView}
    {d : Dialect} {out : List Token} (expanded : source.expanded files d = .ok out)
    (read : ∀ cs ts, Token.tokens d cs = .ok ts → Run good joins ts) : Run good joins out := by
  have ofText {text : String} {ts : List Token} (reads : Token.ofText d text = .ok ts) :
      Run good joins ts :=
    read _ _ (of_text_ok_iff.mp reads)
  unfold SqlSource.expanded SqlSource.tokens at expanded
  cases reads : Token.ofText d source.text with
  | error description => simp [reads, bind, Except.bind] at expanded
  | ok ts =>
    simp only [reads, bind, Except.bind] at expanded
    have expands := Inclusion.expands_of_ok _ _ _ _ _ expanded
    refine (Inclusion.expands_run loose _ ?_ expands true ts rfl (ofText reads)).1
    rintro location us ⟨text, -, readsFile⟩
    exact ofText readsFile

theorem statements_ok {source : SqlSource} {files : FileView} {d : Dialect} {l : StatementList}
    (accepted : source.statements files d = .ok l) :
    ∃ out, source.expanded files d = .ok out ∧ l.statements = Statement.listOfTokens out := by
  unfold statements at accepted
  cases expanded : source.expanded files d with
  | error failure => simp [expanded, bind, Except.bind] at accepted
  | ok out =>
    simp only [expanded, bind, Except.bind] at accepted
    split at accepted <;> cases accepted
    exact ⟨out, rfl, rfl⟩

theorem statements_run (loose : Loose good joins) {source : SqlSource} {files : FileView}
    {d : Dialect} {list : StatementList} (accepted : source.statements files d = .ok list)
    (read : ∀ cs ts, Token.tokens d cs = .ok ts → Run good joins ts) {s : Statement}
    (mem : s ∈ list.statements) :
    Run good joins s.tokens := by
  obtain ⟨out, expanded, listed⟩ := statements_ok accepted
  have run : Run good joins out := expanded_run loose expanded read
  rw [listed] at mem
  obtain ⟨group, inside, made⟩ := List.mem_filterMap.mp mem
  unfold Statement.ofTokens? at made
  by_cases empty : squeezed group = []
  · simp [empty] at made
  · rw [dif_neg empty] at made
    cases made
    exact run_squeezed loose (run_inside run (groups_within inside))

end SqlSource
end SqlCatalog
