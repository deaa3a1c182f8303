import SqlCatalog.Proofs.EmptyStatements
/-!
What squeezing leaves of a run of tokens. The significant tokens stay in their order, and between two
of them there is one space if there was a blank, and nothing otherwise; a run without significant
tokens is no statement. So a source without statements has blanks and semicolons only
(`squeezed_runs`).
-/
namespace SqlCatalog

namespace Token

structure Follower where
  gap : List Token
  token : Token

namespace Follower

structure Separated (f : Follower) : Prop where
  gap : ∀ t ∈ f.gap, t.isSignificant = false
  token : f.token.isSignificant = true

def source (f : Follower) : List Token := f.gap ++ [f.token]

def spaced (f : Follower) : List Token :=
  (if f.gap.any isBlank then [space] else []) ++ [f.token]

end Follower

structure Squeezes (ts out : List Token) : Prop where
  begins : ∃ t ∈ out.head?, t.isSignificant = true
  ends : ∃ t ∈ out.getLast?, t.isSignificant = true
  kept : out.filter isSignificant = ts.filter isSignificant
  spaced : ∃ (front : List Token) (first : Token) (followers : List Follower)
    (behind : List Token),
    ts = front ++ first :: (followers.flatMap Follower.source ++ behind) ∧
    (∀ t ∈ front ++ behind, t.isSignificant = false) ∧ first.isSignificant = true ∧
    (∀ f ∈ followers, f.Separated) ∧ out = first :: followers.flatMap Follower.spaced

theorem not_significant {t : Token} :
    t.isSignificant = false ↔ t.isBlank = true ∨ t = .endMark := by
  simp only [isSignificant, Bool.and_eq_false_iff, Bool.not_eq_false', bne_eq_false_iff_eq]

/-! ### Gaps -/

theorem squeezed_tail_seen {t : Token} (seen : t.isSignificant = true) (gap : Bool)
    (ts : List Token) :
    squeezedTail gap (t :: ts) =
      (if gap then [space] else []) ++ t :: squeezedTail false ts := by
  simp only [isSignificant, Bool.and_eq_true, Bool.not_eq_true', bne_iff_ne, ne_eq] at seen
  rw [squeezedTail, if_neg (by simp [seen.1]), if_neg seen.2]
  cases gap <;> rfl

theorem squeezed_tail_gap {gap : List Token} (quiet : ∀ t ∈ gap, t.isSignificant = false)
    (pending : Bool) (ts : List Token) :
    squeezedTail pending (gap ++ ts) = squeezedTail (pending || gap.any isBlank) ts := by
  induction gap generalizing pending with
  | nil => simp
  | cons t gap ih =>
    have onward := ih fun u mem => quiet u (List.mem_cons_of_mem t mem)
    rw [List.cons_append, squeezedTail]
    rcases not_significant.mp (quiet t List.mem_cons_self) with blank | rfl
    · rw [if_pos blank, onward, List.any_cons, blank]
      simp
    · rw [if_neg (by simp [isBlank]), if_pos rfl, onward]
      rfl

theorem squeezed_tail_quiet {gap : List Token} (quiet : ∀ t ∈ gap, t.isSignificant = false)
    (pending : Bool) : squeezedTail pending gap = [] := by
  have none := squeezed_tail_gap quiet pending []
  rwa [List.append_nil] at none

theorem squeezed_front {front : List Token} (quiet : ∀ t ∈ front, t.isSignificant = false)
    (ts : List Token) : squeezed (front ++ ts) = squeezed ts := by
  induction front with
  | nil => rfl
  | cons t front ih =>
    rw [List.cons_append, squeezed, if_neg (by simp [quiet t List.mem_cons_self])]
    exact ih fun u mem => quiet u (List.mem_cons_of_mem t mem)

theorem squeezed_tail_followers {followers : List Follower} {behind : List Token}
    (separated : ∀ f ∈ followers, f.Separated) (quiet : ∀ t ∈ behind, t.isSignificant = false) :
    squeezedTail false (followers.flatMap Follower.source ++ behind) =
      followers.flatMap Follower.spaced := by
  induction followers with
  | nil => exact squeezed_tail_quiet quiet false
  | cons f followers ih =>
    have here := separated f List.mem_cons_self
    have onward := ih fun g mem => separated g (List.mem_cons_of_mem f mem)
    rw [List.flatMap_cons, Follower.source, List.append_assoc, List.append_assoc,
      squeezed_tail_gap here.gap, List.singleton_append, squeezed_tail_seen here.token, onward,
      List.flatMap_cons, Follower.spaced, List.append_assoc]
    rfl

theorem exists_followers (ts : List Token) :
    ∃ (followers : List Follower) (behind : List Token),
      ts = followers.flatMap Follower.source ++ behind ∧ (∀ f ∈ followers, f.Separated) ∧
        ∀ t ∈ behind, t.isSignificant = false := by
  induction ts with
  | nil => exact ⟨[], [], rfl, by simp, by simp⟩
  | cons t ts ih =>
    obtain ⟨followers, behind, rfl, separated, quiet⟩ := ih
    cases seen : t.isSignificant with
    | true =>
      refine ⟨⟨[], t⟩ :: followers, behind, rfl, ?_, quiet⟩
      exact List.forall_mem_cons.mpr ⟨⟨by simp, seen⟩, separated⟩
    | false =>
      cases followers with
      | nil => exact ⟨[], t :: behind, rfl, by simp, List.forall_mem_cons.mpr ⟨seen, quiet⟩⟩
      | cons f followers =>
        obtain ⟨here, others⟩ := List.forall_mem_cons.mp separated
        refine ⟨⟨t :: f.gap, f.token⟩ :: followers, behind, rfl, ?_, quiet⟩
        refine List.forall_mem_cons.mpr ⟨⟨?_, here.token⟩, others⟩
        exact List.forall_mem_cons.mpr ⟨seen, here.gap⟩

theorem spaced_last {first : Token} {followers : List Follower} (seen : first.isSignificant = true)
    (separated : ∀ f ∈ followers, f.Separated) :
    ∃ t ∈ (first :: followers.flatMap Follower.spaced).getLast?, t.isSignificant = true := by
  induction followers using List.reverseRecOn with
  | nil => exact ⟨first, rfl, seen⟩
  | append_singleton followers f ih =>
    have last : (first :: (followers ++ [f]).flatMap Follower.spaced).getLast? = some f.token := by
      rw [List.flatMap_append, List.flatMap_singleton, Follower.spaced, ← List.append_assoc,
        ← List.cons_append, List.getLast?_concat]
    exact ⟨f.token, last, (separated f (by simp)).token⟩

theorem squeezed_eq_nil_iff (ts : List Token) :
    squeezed ts = [] ↔ ∀ t ∈ ts, t.isBlank = true ∨ t = .endMark := by
  simp only [← not_significant]
  constructor
  · intro empty t mem
    have none : ts.filter isSignificant = [] := by rw [← significant_squeezed, empty]; rfl
    simpa using List.filter_eq_nil_iff.mp none t mem
  · intro quiet
    have front := squeezed_front quiet []
    rwa [List.append_nil] at front

theorem squeezes_squeezed {ts : List Token} (some : squeezed ts ≠ []) :
    Squeezes ts (squeezed ts) := by
  obtain ⟨followers, behind, split, separated, quiet⟩ := exists_followers ts
  cases followers with
  | nil =>
    rw [split] at some
    refine absurd ((squeezed_eq_nil_iff _).mpr fun t mem => ?_) some
    exact not_significant.mp (quiet t mem)
  | cons f followers =>
    obtain ⟨here, others⟩ := List.forall_mem_cons.mp separated
    have source : ts = f.gap ++ f.token :: (followers.flatMap Follower.source ++ behind) := by
      rw [split, List.flatMap_cons, Follower.source]
      simp
    have out : squeezed ts = f.token :: followers.flatMap Follower.spaced := by
      rw [source, squeezed_front here.gap, squeezed, if_pos here.token,
        squeezed_tail_followers others quiet]
    refine ⟨?_, ?_, significant_squeezed ts, f.gap, f.token, followers, behind, source, ?_,
      here.token, others, out⟩
    · exact ⟨f.token, by rw [out]; rfl, here.token⟩
    · rw [out]
      exact spaced_last here.token others
    · exact List.forall_mem_append.mpr ⟨here.gap, quiet⟩

/-! ### Blanks and semicolons -/

theorem mem_groups {ts : List Token} :
    ∀ t ∈ ts, t = .semicolon ∨ ∃ group ∈ groups ts, t ∈ group := by
  induction ts using groups_induction with
  | last group whole => exact fun t mem => .inr ⟨group, List.mem_singleton_self group, mem⟩
  | next first rest gs whole closed more ih =>
    intro t mem
    rcases List.mem_append.mp mem with here | behind
    · exact .inr ⟨first, List.mem_cons_self, here⟩
    · rcases List.mem_cons.mp behind with cut | later
      · exact .inl cut
      · rcases ih t later with inside | ⟨group, listed, held⟩
        · exact .inl inside
        · exact .inr ⟨group, List.mem_cons_of_mem first listed, held⟩

theorem through_bare {ts : List Token} (bare : ∀ t ∈ ts, t.isBlank = true ∨ t = .semicolon) :
    (Nesting.outer.through ts).depth = 0 := by
  induction ts using List.reverseRecOn with
  | nil => rfl
  | append_singleton ts t ih =>
    have front := ih fun u mem => bare u (List.mem_append_left [t] mem)
    have word : t.keyword? = none := by
      rcases bare t (by simp) with blank | rfl
      · cases t with
        | blank b => rfl
        | _ => cases blank
      · rfl
    rw [Nesting.through_concat, Nesting.after, Nesting.depthAfter, word]
    exact front

theorem groups_bare {ts : List Token} (bare : ∀ t ∈ ts, t.isBlank = true ∨ t = .semicolon)
    {group : List Token} (listed : group ∈ groups ts) : ∀ t ∈ group, t.isBlank = true := by
  intro t mem
  have inside (u : Token) (held : u ∈ group) : u.isBlank = true ∨ u = .semicolon :=
    bare u ((groups_within listed).subset held)
  rcases inside t mem with blank | rfl
  · exact blank
  · obtain ⟨before, after, split⟩ := List.append_of_mem mem
    have front (u : Token) (held : u ∈ before) : u ∈ group := by
      rw [split]
      exact List.mem_append_left _ held
    have closed := through_bare fun u held => inside u (front u held)
    exact absurd ((Nesting.open_bodies_iff before 0).mpr closed)
      (groups_whole ts group listed before after split)

end Token

namespace Statement

open Token

theorem of_tokens_none_iff (ts : List Token) :
    ofTokens? ts = none ↔ ∀ t ∈ ts, t.isBlank = true ∨ t = .endMark := by
  rw [← squeezed_eq_nil_iff, ofTokens?]
  split
  · next empty => simp [empty]
  · next some => simp [some]

theorem of_tokens_some_iff (ts : List Token) (s : Statement) :
    ofTokens? ts = some s ↔ s.tokens = squeezed ts := by
  rw [ofTokens?]
  split
  · next empty =>
    rw [empty]
    constructor
    · intro same
      cases same
    · exact fun none => absurd none s.tokens_ne_nil
  · rw [Option.some.injEq]
    constructor
    · rintro rfl
      rfl
    · exact fun same => ext same.symm

theorem list_of_tokens_nil_iff {ts : List Token} (unmarked : AllUnmarked ts) :
    listOfTokens ts = [] ↔ ∀ t ∈ ts, t.isBlank = true ∨ t = .semicolon := by
  rw [listOfTokens, List.filterMap_eq_nil_iff]
  constructor
  · intro none t mem
    rcases mem_groups t mem with cut | ⟨group, listed, held⟩
    · exact .inr cut
    · rcases (of_tokens_none_iff group).mp (none group listed) t held with blank | marked
      · exact .inl blank
      · exact absurd marked (unmarked.all t mem)
  · intro bare group listed
    exact (of_tokens_none_iff group).mpr fun t held => .inl (groups_bare bare listed t held)

end Statement

namespace Inclusion

variable (s : Setting)

def Unread : Failure → Prop
  | .unreadable _ _ => True
  | .source _ problem => problem ≠ .nothingLeft
  | _ => False

theorem tokens_of_error {path : Path} {location : Location} {failure : Failure}
    (failed : tokensOf s path location = .error failure) : Unread failure := by
  unfold tokensOf at failed
  split at failed
  · cases failed
    trivial
  · split at failed <;> cases failed
    exact nofun

theorem enter_error {stack : List Location} {origin : String} {target : Path} {failure : Failure}
    (failed : enter s stack origin target = .error failure) : Unread failure := by
  simp only [enter] at failed
  split at failed
  · cases failed
    trivial
  · next location leads =>
    split at failed
    · cases failed
      exact nofun
    · cases read : tokensOf s (s.base.join target) location with
      | ok ts => simp [read, Except.map] at failed
      | error problem =>
        simp only [read, Except.map, Except.error.injEq] at failed
        exact failed ▸ tokens_of_error s read

theorem expand_pieces_error (stack : List Location) (origin : String) (ps : List Piece)
    {failure : Failure} (failed : expandPieces s stack origin ps = .error failure) :
    Unread failure := by
  -- Whatever is put in front, a failure behind it is passed on.
  have behind {f : List Token → List Token} {result : Except Failure (List Token)}
      (ih : result = .error failure → Unread failure)
      (failed : result.map f = .error failure) : Unread failure := by
    cases result with
    | ok out => cases failed
    | error problem => exact ih failed
  induction stack, origin, ps using expand_induction s with
  | nil stack origin =>
    rw [expandPieces] at failed
    cases failed
  | token stack origin t rest ih =>
    rw [expand_token] at failed
    exact behind ih failed
  | nameless stack origin rest =>
    rw [expandPieces] at failed
    cases failed
    intro same
    cases same
  | refused stack origin target rest problem refused =>
    rw [expand_directive, refused] at failed
    cases failed
    exact enter_error s refused
  | entered stack origin target rest location ts entered ihFile ihRest =>
    rw [expand_directive, entered] at failed
    cases file : expandPieces s (location :: stack) (s.base.join target).text (pieces ts) with
    | error problem =>
      simp only [file] at failed
      cases failed
      exact ihFile file
    | ok included =>
      simp only [file] at failed
      exact behind ihRest failed

end Inclusion

namespace SqlSource

open Token

variable {source : SqlSource} {files : FileView} {d : Dialect}

theorem expanded_error {failure : Failure} (failed : source.expanded files d = .error failure) :
    Inclusion.Unread failure := by
  unfold expanded SqlSource.tokens at failed
  cases reads : ofText d source.text with
  | error description =>
    simp only [reads, bind, Except.bind, Except.error.injEq] at failed
    subst failed
    exact nofun
  | ok ts =>
    simp only [reads, bind, Except.bind] at failed
    exact Inclusion.expand_pieces_error _ _ _ _ failed

theorem expanded_unmarked {out : List Token} (expanded : source.expanded files d = .ok out) :
    AllUnmarked out :=
  expanded_run unmarked_loose expanded fun _ _ => tokens_unmarked

theorem nothing_left_iff (origin : String) :
    source.statements files d = .error (.source origin .nothingLeft) ↔
      origin = source.origin ∧
        ∃ ts, source.expanded files d = .ok ts ∧ ∀ t ∈ ts, t.isBlank = true ∨ t = .semicolon := by
  unfold statements
  cases expanded : source.expanded files d with
  | error failure =>
    have unread := expanded_error expanded
    simp only [bind, Except.bind, Except.error.injEq, reduceCtorEq, false_and, exists_false,
      and_false, iff_false]
    rintro rfl
    exact unread rfl
  | ok out =>
    have bare := Statement.list_of_tokens_nil_iff (expanded_unmarked expanded)
    simp only [bind, Except.bind, Except.ok.injEq, exists_eq_left', ← bare]
    by_cases none : Statement.listOfTokens out = []
    · simp [none, eq_comm]
    · simp [none]

end SqlSource

namespace Token

theorem squeezes_statement {ts : List Token} {s : Statement}
    (made : Statement.ofTokens? ts = some s) : Squeezes ts s.tokens := by
  have same := (Statement.of_tokens_some_iff ts s).mp made
  rw [same]
  exact squeezes_squeezed (same ▸ s.tokens_ne_nil)

-- A run of blanks and end marks is no statement; any other run is squeezed to one, which is squeezed
-- to itself. A source has statements unless there are only blanks and semicolons in it and its
-- files, and each of them is what squeezing leaves of a group of its tokens.
theorem squeezed_runs (ts : List Token) :
    (Statement.ofTokens? ts = none ↔ ∀ t ∈ ts, t.isBlank = true ∨ t = .endMark) ∧
    (∀ s, Statement.ofTokens? ts = some s →
      Squeezes ts s.tokens ∧ Statement.ofTokens? s.tokens = some s) ∧
    ∀ (source : SqlSource) (files : FileView) (d : Dialect),
      (∀ origin, source.statements files d = .error (.source origin .nothingLeft) ↔
        origin = source.origin ∧ ∃ us, source.expanded files d = .ok us ∧
          ∀ t ∈ us, t.isBlank = true ∨ t = .semicolon) ∧
      ∀ l, source.statements files d = .ok l → l.statements ≠ [] ∧
        ∃ us, source.expanded files d = .ok us ∧
          ∀ s ∈ l.statements, ∃ group ∈ groups us, Squeezes group s.tokens := by
  refine ⟨Statement.of_tokens_none_iff ts, fun s made => ?_, fun source files d => ⟨?_, ?_⟩⟩
  · exact ⟨squeezes_statement made,
      (Statement.of_tokens_some_iff s.tokens s).mpr s.tokens_squeezed.symm⟩
  · exact fun origin => SqlSource.nothing_left_iff origin
  · intro l accepted
    obtain ⟨us, expanded, listed⟩ := SqlSource.statements_ok accepted
    refine ⟨l.statements_ne_nil, us, expanded, fun s mem => ?_⟩
    rw [listed] at mem
    obtain ⟨group, inside, made⟩ := List.mem_filterMap.mp mem
    exact ⟨group, inside, squeezes_statement made⟩

-- The comment keeps two signs from becoming another one.
example : squeezed [.blank .newline, .operator "-", .blank (.blockComment "apart"), .blank .tab,
      .operator "-", .number "1" false, .blank .space] =
    [.operator "-", space, .operator "-", .number "1" false] := by
  decide

end Token
end SqlCatalog
