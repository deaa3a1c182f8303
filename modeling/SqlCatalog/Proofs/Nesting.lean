import Mathlib.Data.List.Induction
import SqlCatalog.Proofs.MarkerNames
/-!
Where a run of tokens is cut. The groups joined by semicolons are the run again, no group has a
semicolon outside its own bodies, and no other groups are so (`groups_round_trip`).
-/
namespace SqlCatalog.Token

-- A token that opens a body behind the tokens of its group: CASE everywhere, BEGIN unless it is the
-- first one that is no blank.
def Opens (before : List Token) (t : Token) : Prop :=
  t.keyword? = some .case ∨ t.keyword? = some .begin ∧ ∃ u ∈ before, u.isBlank = false

-- How many bodies are open behind the tokens of a group, counted from the start of the group. A
-- quoted word is no keyword.
inductive OpenBodies : List Token → Nat → Prop where
  | nil : OpenBodies [] 0
  | opens {before : List Token} {t : Token} {depth : Nat} (inside : OpenBodies before depth)
      (opens : Opens before t) : OpenBodies (before ++ [t]) (depth + 1)
  | closes {before : List Token} {t : Token} {depth : Nat} (inside : OpenBodies before depth)
      (ends : t.keyword? = some .end) : OpenBodies (before ++ [t]) (depth - 1)
  | other {before : List Token} {t : Token} {depth : Nat} (inside : OpenBodies before depth)
      (kept : ¬ Opens before t) (continues : t.keyword? ≠ some .end) :
      OpenBodies (before ++ [t]) depth

def Whole (group : List Token) : Prop :=
  ∀ before after, group = before ++ .semicolon :: after → ¬ OpenBodies before 0

namespace Nesting

def through (n : Nesting) (ts : List Token) : Nesting := ts.foldl Nesting.after n

theorem through_concat (n : Nesting) (ts : List Token) (t : Token) :
    n.through (ts ++ [t]) = (n.through ts).after t := by
  rw [through, List.foldl_append]
  rfl

theorem through_started (ts : List Token) :
    (outer.through ts).started = true ↔ ∃ t ∈ ts, t.isBlank = false := by
  induction ts using List.reverseRecOn with
  | nil => simp [through, outer]
  | append_singleton ts t ih =>
    rw [through_concat, after, Bool.or_eq_true, ih]
    simp [or_and_right, exists_or]

theorem depth_opening {before : List Token} {t : Token} (opens : Opens before t) :
    (outer.through before).depthAfter t = (outer.through before).depth + 1 := by
  rcases opens with case | ⟨begin, seen⟩
  · rw [depthAfter, case]
  · rw [depthAfter, begin]
    dsimp only
    rw [if_pos ((through_started before).mpr seen)]

theorem depth_closing (n : Nesting) {t : Token} (ends : t.keyword? = some .end) :
    n.depthAfter t = n.depth - 1 := by
  rw [depthAfter, ends]

theorem depth_other {before : List Token} {t : Token} (kept : ¬ Opens before t)
    (continues : t.keyword? ≠ some .end) :
    (outer.through before).depthAfter t = (outer.through before).depth := by
  unfold depthAfter
  split
  · next begin =>
    have fresh : ¬ (outer.through before).started = true := by
      intro started
      exact kept (.inr ⟨begin, (through_started before).mp started⟩)
    rw [if_neg fresh]
  · next case => exact absurd (.inl case) kept
  · next ends => exact absurd ends continues
  · rfl

theorem open_bodies_iff (ts : List Token) (depth : Nat) :
    OpenBodies ts depth ↔ (outer.through ts).depth = depth := by
  constructor
  · intro bodies
    induction bodies with
    | nil => rfl
    | opens inside opens ih => rw [through_concat, after, depth_opening opens, ih]
    | closes inside ends ih => rw [through_concat, after, depth_closing _ ends, ih]
    | other inside kept continues ih => rw [through_concat, after, depth_other kept continues, ih]
  · rintro rfl
    induction ts using List.reverseRecOn with
    | nil => exact .nil
    | append_singleton ts t ih =>
      rw [through_concat, after]
      dsimp only
      by_cases opens : Opens ts t
      · rw [depth_opening opens]
        exact .opens ih opens
      · by_cases ends : t.keyword? = some .end
        · rw [depth_closing _ ends]
          exact .closes ih ends
        · rw [depth_other opens ends]
          exact .other ih opens ends

end Nesting

open Nesting

def WholeFrom (n : Nesting) (group : List Token) : Prop :=
  ∀ before after, group = before ++ .semicolon :: after → (n.through before).depth ≠ 0

theorem whole_iff (group : List Token) : Whole group ↔ WholeFrom .outer group := by
  simp only [Whole, WholeFrom, open_bodies_iff, ne_eq]

theorem whole_from_nil (n : Nesting) : WholeFrom n [] := by
  intro before after split
  cases before <;> cases split

theorem whole_from_cons (n : Nesting) (t : Token) (ts : List Token) :
    WholeFrom n (t :: ts) ↔ ¬ (t = .semicolon ∧ n.depth = 0) ∧ WholeFrom (n.after t) ts := by
  constructor
  · intro whole
    refine ⟨?_, fun before after split => ?_⟩
    · rintro ⟨rfl, closed⟩
      exact whole [] ts rfl closed
    · exact whole (t :: before) after (by rw [split, List.cons_append])
  · rintro ⟨kept, whole⟩ before after split
    cases before with
    | nil =>
      cases split
      exact fun closed => kept ⟨rfl, closed⟩
    | cons first before =>
      cases split
      exact whole before after rfl

theorem groups_from_cases (n : Nesting) (ts : List Token) :
    (WholeFrom n ts ∧ groupsFrom n ts = [ts]) ∨
      ∃ first rest, ts = first ++ .semicolon :: rest ∧ WholeFrom n first ∧
        (n.through first).depth = 0 ∧ groupsFrom n ts = first :: groups rest := by
  induction ts generalizing n with
  | nil => exact .inl ⟨whole_from_nil n, rfl⟩
  | cons t ts ih =>
    by_cases cut : t = .semicolon ∧ n.depth = 0
    · obtain ⟨rfl, closed⟩ := cut
      exact .inr ⟨[], ts, rfl, whole_from_nil n, closed, groups_from_cut n closed ts⟩
    · rw [groups_from_keep n t ts cut]
      rcases ih (n.after t) with ⟨whole, single⟩ | ⟨first, rest, rfl, whole, closed, split⟩
      · rw [single]
        exact .inl ⟨(whole_from_cons n t ts).mpr ⟨cut, whole⟩, rfl⟩
      · rw [split]
        have longer := (whole_from_cons n t first).mpr ⟨cut, whole⟩
        exact .inr ⟨t :: first, rest, rfl, longer, closed, rfl⟩

theorem groups_from_whole (n : Nesting) {group : List Token} (whole : WholeFrom n group) :
    groupsFrom n group = [group] := by
  rcases groups_from_cases n group with ⟨-, single⟩ | ⟨first, rest, split, -, closed, -⟩
  · exact single
  · exact absurd closed (whole first rest split)

theorem groups_from_closed (n : Nesting) {group : List Token} (whole : WholeFrom n group)
    (closed : (n.through group).depth = 0) (rest : List Token) :
    groupsFrom n (group ++ .semicolon :: rest) = group :: groups rest := by
  induction group generalizing n with
  | nil => exact groups_from_cut n closed rest
  | cons t ts ih =>
    obtain ⟨kept, whole⟩ := (whole_from_cons n t ts).mp whole
    rw [List.cons_append, groups_from_keep n t _ kept, ih (n.after t) whole closed]
    rfl

theorem groups_induction {motive : List Token → List (List Token) → Prop}
    (last : ∀ group, WholeFrom .outer group → motive group [group])
    (next : ∀ first rest gs, WholeFrom .outer first → (outer.through first).depth = 0 → gs ≠ [] →
      motive rest gs → motive (first ++ .semicolon :: rest) (first :: gs))
    (ts : List Token) : motive ts (groups ts) := by
  induction size : ts.length using Nat.strongRecOn generalizing ts with
  | ind size ih =>
    rcases groups_from_cases .outer ts with
      ⟨whole, single⟩ | ⟨first, rest, rfl, whole, closed, split⟩
    · rw [groups, single]
      exact last ts whole
    · rw [groups, split]
      have shorter : rest.length < (first ++ .semicolon :: rest).length := by
        rw [List.length_append, List.length_cons]
        omega
      exact next first rest _ whole closed (groups_from_ne_nil .outer rest)
        (ih rest.length (size ▸ shorter) rest rfl)

theorem intercalate_cons {first : List Token} {gs : List (List Token)} (more : gs ≠ []) :
    [Token.semicolon].intercalate (first :: gs) =
      first ++ .semicolon :: [Token.semicolon].intercalate gs := by
  obtain ⟨second, others, rfl⟩ := List.exists_cons_of_ne_nil more
  rw [List.intercalate_cons_cons, List.append_assoc]
  rfl

theorem groups_join (ts : List Token) : [Token.semicolon].intercalate (groups ts) = ts := by
  induction ts using groups_induction with
  | last group whole => exact List.intercalate_singleton
  | next first rest gs whole closed more ih => rw [intercalate_cons more, ih]

theorem groups_whole (ts : List Token) : ∀ group ∈ groups ts, Whole group := by
  induction ts using groups_induction with
  | last group whole => simpa [whole_iff] using whole
  | next first rest gs whole closed more ih =>
    intro group mem
    rcases List.mem_cons.mp mem with rfl | later
    · exact (whole_iff group).mpr whole
    · exact ih group later

theorem groups_closed (ts : List Token) : ∀ group ∈ (groups ts).dropLast, OpenBodies group 0 := by
  induction ts using groups_induction with
  | last group whole => simp
  | next first rest gs whole closed more ih =>
    rw [List.dropLast_cons_of_ne_nil more]
    intro group mem
    rcases List.mem_cons.mp mem with rfl | later
    · exact (open_bodies_iff group 0).mpr closed
    · exact ih group later

theorem groups_of_join {gs : List (List Token)} (some : gs ≠ [])
    (whole : ∀ group ∈ gs, Whole group) (closed : ∀ group ∈ gs.dropLast, OpenBodies group 0) :
    groups ([Token.semicolon].intercalate gs) = gs := by
  induction gs with
  | nil => exact absurd rfl some
  | cons first gs ih =>
    have here := (whole_iff first).mp (whole first List.mem_cons_self)
    by_cases more : gs = []
    · subst more
      rw [List.intercalate_singleton, groups, groups_from_whole .outer here]
    · rw [List.dropLast_cons_of_ne_nil more] at closed
      have ends := (open_bodies_iff first 0).mp (closed first List.mem_cons_self)
      rw [intercalate_cons more, groups, groups_from_closed .outer here ends]
      rw [ih more (fun group mem => whole group (List.mem_cons_of_mem first mem))
        (fun group mem => closed group (List.mem_cons_of_mem first mem))]

-- A run is cut into groups that give it back when they are joined by semicolons, each of which has
-- its semicolons in bodies of its own. They are the only groups of which this holds and of which
-- all but the last one close the bodies that they open.
theorem groups_round_trip (ts : List Token) :
    ([Token.semicolon].intercalate (groups ts) = ts ∧ ∀ group ∈ groups ts, Whole group) ∧
    ∀ gs, groups ts = gs ↔ gs ≠ [] ∧ [Token.semicolon].intercalate gs = ts ∧
      (∀ group ∈ gs, Whole group) ∧ ∀ group ∈ gs.dropLast, OpenBodies group 0 := by
  refine ⟨⟨groups_join ts, groups_whole ts⟩, fun gs => ⟨?_, ?_⟩⟩
  · rintro rfl
    exact ⟨groups_from_ne_nil .outer ts, groups_join ts, groups_whole ts, groups_closed ts⟩
  · rintro ⟨some, rfl, whole, closed⟩
    exact groups_of_join some whole closed

-- The first BEGIN starts a transaction, the second one a body.
example : groups [.word "BEGIN" none, .semicolon, .word "TRIGGER" none, .word "BEGIN" none,
      .semicolon, .word "END" none, .semicolon] =
    [[.word "BEGIN" none],
      [.word "TRIGGER" none, .word "BEGIN" none, .semicolon, .word "END" none], []] := by
  decide

/-! ### Behind a run that has been cut -/

namespace Nesting

def past (n : Nesting) (t : Token) : Nesting :=
  if t = .semicolon ∧ n.depth = 0 then outer else n.after t

def behind (n : Nesting) (ts : List Token) : Nesting := ts.foldl Nesting.past n

theorem behind_cons (n : Nesting) (t : Token) (ts : List Token) :
    n.behind (t :: ts) = (n.past t).behind ts := rfl

theorem behind_append (n : Nesting) (ts us : List Token) :
    n.behind (ts ++ us) = (n.behind ts).behind us := by
  rw [behind, List.foldl_append]
  rfl

theorem past_blank (n : Nesting) {t : Token} (blank : t.isBlank = true) : n.past t = n := by
  cases t with
  | blank b => simp [past, after, depthAfter, keyword?, isBlank]
  | _ => cases blank

theorem past_cut (n : Nesting) (closed : n.depth = 0) : n.past .semicolon = outer := by
  rw [past, if_pos ⟨rfl, closed⟩]

theorem past_kept (n : Nesting) (inside : n.depth ≠ 0) : n.past .semicolon = ⟨true, n.depth⟩ := by
  rw [past, if_neg fun cut => inside cut.2]
  simp [after, depthAfter, keyword?, isBlank]

theorem behind_blanks (n : Nesting) {gap : List Token} (blanks : ∀ t ∈ gap, t.isBlank = true) :
    n.behind gap = n := by
  induction gap with
  | nil => rfl
  | cons t gap ih =>
    rw [behind_cons, past_blank n (blanks t List.mem_cons_self)]
    exact ih fun u mem => blanks u (List.mem_cons_of_mem t mem)

end Nesting

theorem groups_from_append (n : Nesting) {ts : List Token} (closed : (n.behind ts).depth = 0)
    (us : List Token) : groupsFrom n (ts ++ .semicolon :: us) = groupsFrom n ts ++ groups us := by
  induction ts generalizing n with
  | nil => exact groups_from_cut n closed us
  | cons t ts ih =>
    rw [behind_cons, past] at closed
    rw [List.cons_append]
    by_cases cut : t = .semicolon ∧ n.depth = 0
    · rw [if_pos cut] at closed
      obtain ⟨rfl, outside⟩ := cut
      rw [groups_from_cut n outside, groups_from_cut n outside, ih .outer closed]
      rfl
    · rw [if_neg cut] at closed
      rw [groups_from_keep n t _ cut, groups_from_keep n t _ cut, ih (n.after t) closed]
      cases split : groupsFrom (n.after t) ts with
      | nil => exact absurd split (groups_from_ne_nil _ _)
      | cons first others => rfl

end SqlCatalog.Token
