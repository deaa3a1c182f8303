import Mathlib.Data.List.Forall2
import SqlCatalog.Proofs.Inclusion
import SqlCatalog.Statement.Source
/-!
Names of markers and where statements end. A marker name is a word behind a colon, and it counts as a
keyword there: names can be exchanged without moving the end of any statement just if they open or
close the same bodies (`cuts_renamed_iff`).
-/
namespace SqlCatalog

namespace Token

-- Token runs that differ in marker names only: a word right behind a colon may be another one, as
-- `names` allows. `behind` tells whether the run stands behind a colon.
inductive Renamed (names : String → String → Prop) : (behind : Bool) → List Token → List Token → Prop where
  | nil {behind : Bool} : Renamed names behind [] []
  | name {a b : String} {ts us : List Token} (allowed : names a b)
      (rest : Renamed names false ts us) :
      Renamed names true (.word a none :: ts) (.word b none :: us)
  | same {behind : Bool} (t : Token) {ts us : List Token} (rest : Renamed names (t == .colon) ts us) :
      Renamed names behind (t :: ts) (t :: us)

variable {names : String → String → Prop}

theorem renamed_refl (behind : Bool) (ts : List Token) : Renamed names behind ts ts := by
  induction ts generalizing behind with
  | nil => exact .nil
  | cons t ts ih => exact .same t (ih _)

theorem renamed_behind {ts us : List Token} (renamed : Renamed names false ts us) (behind : Bool) :
    Renamed names behind ts us := by
  cases renamed with
  | nil => exact .nil
  | same t rest => exact .same t rest

theorem renamed_append (ts : List Token) (t : Token) (inner : t ≠ .colon) {us vs : List Token}
    (renamed : Renamed names false us vs) (behind : Bool) :
    Renamed names behind (ts ++ t :: us) (ts ++ t :: vs) := by
  induction ts generalizing behind with
  | nil => exact .same t (by rwa [beq_eq_false_iff_ne.mpr inner])
  | cons first ts ih => exact .same first (ih _)

def bodyChange (name : String) : Int :=
  match Keyword.ofWord? name with
  | some .begin => 1
  | some .case => 1
  | some .end => -1
  | _ => 0

theorem depth_after_name (n : Nesting) (started : n.started = true) (name : String) :
    n.depthAfter (.word name none) = (n.depth + bodyChange name).toNat := by
  simp only [Nesting.depthAfter, keyword?, bodyChange, started, if_true]
  cases Keyword.ofWord? name with
  | none => dsimp only; omega
  | some keyword => cases keyword <;> dsimp only <;> omega

theorem after_name (n : Nesting) (started : n.started = true) {a b : String}
    (same : bodyChange a = bodyChange b) : n.after (.word a none) = n.after (.word b none) := by
  simp only [Nesting.after, depth_after_name n started, same, started, Bool.true_or]

theorem groups_from_cut (n : Nesting) (closed : n.depth = 0) (ts : List Token) :
    groupsFrom n (.semicolon :: ts) = [] :: groupsFrom .outer ts := by
  rw [groupsFrom, if_pos ⟨rfl, closed⟩]

theorem groups_from_keep (n : Nesting) (t : Token) (ts : List Token)
    (kept : ¬ (t = .semicolon ∧ n.depth = 0)) :
    groupsFrom n (t :: ts) = attach t (groupsFrom (n.after t) ts) := by
  rw [groupsFrom, if_neg kept]

def GroupsRenamed (names : String → String → Prop) (behind : Bool)
    (left right : List (List Token)) : Prop :=
  ∃ g gs h hs, left = g :: gs ∧ right = h :: hs ∧ Renamed names behind g h ∧
    List.Forall₂ (Renamed names false) gs hs

theorem groups_from_renamed {behind : Bool} {ts us : List Token}
    (renamed : Renamed names behind ts us)
    (same : ∀ a b, names a b → bodyChange a = bodyChange b) (n : Nesting)
    (inside : behind = true → n.started = true) :
    GroupsRenamed names behind (groupsFrom n ts) (groupsFrom n us) := by
  induction renamed generalizing n with
  | nil => exact ⟨[], [], [], [], rfl, rfl, .nil, .nil⟩
  | @name a b ts us allowed rest ih =>
    have kept (word : String) : ¬ ((Token.word word none) = .semicolon ∧ n.depth = 0) := by simp
    obtain ⟨g, gs, h, hs, left, right, first, others⟩ := ih (n.after (.word b none)) (by simp)
    rw [groups_from_keep n _ ts (kept a), groups_from_keep n _ us (kept b),
      after_name n (inside rfl) (same a b allowed), left, right]
    exact ⟨_, gs, _, hs, rfl, rfl, .name allowed first, others⟩
  | @same behind t ts us rest ih =>
    by_cases cut : t = .semicolon ∧ n.depth = 0
    · obtain ⟨rfl, closed⟩ := cut
      obtain ⟨g, gs, h, hs, left, right, first, others⟩ := ih .outer (by simp)
      rw [groups_from_cut n closed, groups_from_cut n closed, left, right]
      exact ⟨[], _, [], _, rfl, rfl, .nil, .cons first others⟩
    · have started : (t == .colon) = true → (n.after t).started = true := by
        intro colon
        rw [beq_iff_eq.mp colon]
        simp [Nesting.after, isBlank]
      obtain ⟨g, gs, h, hs, left, right, first, others⟩ := ih (n.after t) started
      rw [groups_from_keep n t ts cut, groups_from_keep n t us cut, left, right]
      exact ⟨_, gs, _, hs, rfl, rfl, .same t first, others⟩

theorem groups_renamed {ts us : List Token} (renamed : Renamed names false ts us)
    (same : ∀ a b, names a b → bodyChange a = bodyChange b) :
    List.Forall₂ (Renamed names false) (groups ts) (groups us) := by
  obtain ⟨g, gs, h, hs, left, right, first, others⟩ :=
    groups_from_renamed renamed same .outer (by simp)
  rw [groups, groups, left, right]
  exact .cons first others

def cuts (ts : List Token) : List Nat := (groups ts).map List.length

theorem renamed_length {behind : Bool} {ts us : List Token} (renamed : Renamed names behind ts us) :
    ts.length = us.length := by
  induction renamed with
  | nil => rfl
  | name allowed rest ih => simp only [List.length_cons, ih]
  | same t rest ih => simp only [List.length_cons, ih]

theorem lengths_renamed {gs hs : List (List Token)}
    (renamed : List.Forall₂ (Renamed names false) gs hs) :
    gs.map List.length = hs.map List.length := by
  induction renamed with
  | nil => rfl
  | cons first others ih => simp only [List.map_cons, renamed_length first, ih]

theorem cuts_opening (name : String) :
    cuts [.colon, .word name none, .semicolon] = if bodyChange name = 1 then [3] else [2, 0] := by
  have colon : Nesting.outer.after .colon = ⟨true, 0⟩ := rfl
  have depth := depth_after_name ⟨true, 0⟩ rfl name
  have next : Nesting.after ⟨true, 0⟩ (.word name none) = ⟨true, (bodyChange name).toNat⟩ := by
    simp only [Nesting.after, depth, Bool.true_or]
    simp
  simp only [cuts, groups]
  rw [groups_from_keep _ _ _ (by simp), colon, groups_from_keep _ _ _ (by simp), next]
  by_cases opens : bodyChange name = 1
  · rw [groups_from_keep _ _ _ (by simp [opens]), if_pos opens]
    rfl
  · have closed : (bodyChange name).toNat = 0 := by
      unfold bodyChange at opens ⊢
      split <;> simp_all
    rw [closed, groups_from_cut _ rfl, if_neg opens]
    rfl

theorem cuts_closing (name : String) :
    cuts [.word "CASE" none, .colon, .word name none, .semicolon] =
      if bodyChange name = -1 then [3, 0] else [4] := by
  have case : Nesting.outer.after (.word "CASE" none) = ⟨true, 1⟩ := by decide
  have colon : Nesting.after ⟨true, 1⟩ .colon = ⟨true, 1⟩ := rfl
  have depth := depth_after_name ⟨true, 1⟩ rfl name
  have next : Nesting.after ⟨true, 1⟩ (.word name none) =
      ⟨true, (1 + bodyChange name).toNat⟩ := by
    simp only [Nesting.after, depth, Bool.true_or]
    simp
  simp only [cuts, groups]
  rw [groups_from_keep _ _ _ (by simp), case, groups_from_keep _ _ _ (by simp), colon,
    groups_from_keep _ _ _ (by simp), next]
  by_cases closes : bodyChange name = -1
  · rw [closes, groups_from_cut _ rfl, if_pos rfl]
    rfl
  · have opened : ¬ (1 + bodyChange name).toNat = 0 := by
      unfold bodyChange at closes ⊢
      split <;> simp_all
    rw [groups_from_keep _ _ _ (by simp [opened]), if_neg closes]
    rfl

theorem body_change_values (name : String) :
    bodyChange name = 1 ∨ bodyChange name = -1 ∨ bodyChange name = 0 := by
  unfold bodyChange
  split <;> simp

theorem same_change {a b : String} (allowed : names a b)
    (kept : ∀ ts us, Renamed names false ts us → cuts ts = cuts us) :
    bodyChange a = bodyChange b := by
  have marker : Renamed names true [.word a none, .semicolon] [.word b none, .semicolon] :=
    .name allowed (renamed_refl false [.semicolon])
  have opening := kept _ _ (.same .colon marker)
  have closing := kept _ _ (.same (.word "CASE" none) (.same .colon marker))
  simp only [cuts_opening, cuts_closing] at opening closing
  rcases body_change_values a with one | other | zero <;>
    rcases body_change_values b with one' | other' | zero' <;> simp_all

theorem renamed_squeezed {behind : Bool} {ts us : List Token} (renamed : Renamed names behind ts us) :
    squeezed ts = [] ↔ squeezed us = [] := by
  induction renamed with
  | nil => rfl
  | name allowed rest ih => simp [squeezed, isSignificant, isBlank]
  | same t rest ih =>
    by_cases seen : t.isSignificant = true
    · simp [squeezed, seen]
    · simpa [squeezed, seen] using ih

end Token

namespace Statement

open Token

variable {names : String → String → Prop}

theorem of_tokens_renamed {ts us : List Token} (renamed : Renamed names false ts us) :
    (ofTokens? ts).isSome = (ofTokens? us).isSome := by
  have empty := renamed_squeezed renamed
  by_cases none : squeezed ts = []
  · rw [ofTokens?, ofTokens?, dif_pos none, dif_pos (empty.mp none)]
  · rw [ofTokens?, ofTokens?, dif_neg none, dif_neg fun other => none (empty.mpr other)]
    rfl

theorem kept_renamed {gs hs : List (List Token)}
    (renamed : List.Forall₂ (Renamed names false) gs hs) :
    (gs.filterMap ofTokens?).length = (hs.filterMap ofTokens?).length := by
  induction renamed with
  | nil => rfl
  | @cons g h gs hs first others ih =>
    have same := of_tokens_renamed first
    cases left : ofTokens? g with
    | none =>
      have right : ofTokens? h = none := by simpa [left] using same.symm
      simpa only [List.filterMap_cons, left, right] using ih
    | some statement =>
      rw [left, Option.isSome_some] at same
      obtain ⟨other, right⟩ := Option.isSome_iff_exists.mp same.symm
      simp only [List.filterMap_cons, left, right, List.length_cons, ih]

theorem list_of_tokens_renamed {ts us : List Token} (renamed : Renamed names false ts us)
    (same : ∀ a b, names a b → bodyChange a = bodyChange b) :
    (listOfTokens ts).length = (listOfTokens us).length :=
  kept_renamed (groups_renamed renamed same)

end Statement

namespace Inclusion

open Token

variable {names : String → String → Prop}

inductive Matching {α : Type} (related : α → α → Prop) :
    Except Failure α → Except Failure α → Prop where
  | ok {a b : α} (answers : related a b) : Matching related (.ok a) (.ok b)
  | error {failure : Failure} : Matching related (.error failure) (.error failure)

theorem matching_map {α : Type} {related other : α → α → Prop} {f g : α → α}
    (lifts : ∀ a b, related a b → other (f a) (g b)) {x y : Except Failure α}
    (matching : Matching related x y) : Matching other (x.map f) (y.map g) := by
  cases matching with
  | ok answers => exact .ok (lifts _ _ answers)
  | error => exact .error

theorem expand_directive_renamed (s : Setting) (stack : List Location) (origin : String)
    (target : Path) {ps qs : List Piece}
    (rest : Matching (Renamed names false) (expandPieces s stack origin ps)
      (expandPieces s stack origin qs)) :
    Matching (Renamed names false) (expandPieces s stack origin (.directive target :: ps))
      (expandPieces s stack origin (.directive target :: qs)) := by
  rw [expand_directive, expand_directive]
  cases enter s stack origin target with
  | error failure => exact .error
  | ok file =>
    cases included : expandPieces s (file.1 :: stack) (s.base.join target).text (pieces file.2) with
    | error failure =>
      simp only [included]
      exact .error
    | ok tokens =>
      simp only [included]
      refine matching_map (fun ts us renamed => ?_) rest
      exact .same (.blank .space) (renamed_append tokens .semicolon (by simp) renamed false)

theorem blank_not_colon {t : Token} (blank : t.isBlank = true) : (t == .colon) = false := by
  cases t <;> first | rfl | cases blank

theorem passed_colon {atStart next : Bool} {t kept : Token} (passed : Passed atStart t kept next) :
    (kept == .colon) = (t == .colon) ∧ ((t == .colon) = true → next = false) := by
  cases passed with
  | blank blank keptBlank =>
    rw [blank_not_colon blank, blank_not_colon keptBlank]
    exact ⟨rfl, fun colon => by cases colon⟩
  | semicolon => exact ⟨rfl, fun colon => by cases colon⟩
  | other seen inside plain => exact ⟨rfl, fun _ => rfl⟩

theorem passed_renamed {behind atStart next : Bool} {t kept : Token} {x y : Except Failure (List Token)}
    (passed : Passed atStart t kept next) (rest : Matching (Renamed names (t == .colon)) x y) :
    Matching (Renamed names behind) (x.map (kept :: ·)) (y.map (kept :: ·)) := by
  refine matching_map (fun ts us renamed => .same kept ?_) rest
  rwa [(passed_colon passed).1]

-- The induction is on how the runs are related. Behind a colon no directive is being read, so the
-- names that differ are passed on as they are.
theorem expand_renamed (s : Setting) (stack : List Location) (origin : String) {behind : Bool}
    {ts us : List Token} (renamed : Renamed names behind ts us) (reading : Reading)
    (inside : behind = true → reading = .statement false) :
    Matching (Renamed names behind) (expandPieces s stack origin (piecesFrom reading ts))
      (expandPieces s stack origin (piecesFrom reading us)) := by
  have weaken {behind : Bool} {x y : Except Failure (List Token)}
      (matching : Matching (Renamed names false) x y) : Matching (Renamed names behind) x y := by
    cases matching with
    | ok answers => exact .ok (renamed_behind answers behind)
    | error => exact .error
  induction renamed generalizing reading with
  | nil =>
    cases expandPieces s stack origin (piecesFrom reading []) with
    | error failure => exact .error
    | ok out => exact .ok (renamed_refl _ out)
  | @name a b ts us allowed rest ih =>
    cases inside rfl
    have read (word : String) (following : List Token) :
        piecesFrom (.statement false) (.word word none :: following) =
          .token (.word word none) :: piecesFrom (.statement false) following := rfl
    rw [read, read, expand_token, expand_token]
    exact matching_map (fun _ _ renamed => .name allowed renamed) (ih (.statement false) (by simp))
  | @same behind t ts us rest ih =>
    have onward (inner : (t == .colon) = false) (next : Reading) :
        Matching (Renamed names false) (expandPieces s stack origin (piecesFrom next ts))
          (expandPieces s stack origin (piecesFrom next us)) := by
      rw [inner] at ih
      exact ih next (by simp)
    have statement (atStart : Bool) :
        Matching (Renamed names behind)
          (expandPieces s stack origin (piecesFrom (.statement atStart) (t :: ts)))
          (expandPieces s stack origin (piecesFrom (.statement atStart) (t :: us))) := by
      rw [piecesFrom, piecesFrom]
      rcases read_token_cases atStart t with ⟨kept, next, reads, passed⟩ | ⟨-, -, directs, reads⟩
      · simp only [reads, Option.toList_some, List.singleton_append, expand_token]
        refine passed_renamed passed (ih (.statement next) fun colon => ?_)
        rw [(passed_colon passed).2 colon]
      · simp only [reads, Option.toList_none, List.nil_append]
        exact weaken (onward (by cases t <;> first | rfl | cases directs) .name)
    cases reading with
    | statement atStart => exact statement atStart
    | name =>
      rw [piecesFrom, piecesFrom]
      by_cases blank : t.isBlank = true
      · rw [if_pos blank, if_pos blank]
        exact weaken (onward (blank_not_colon blank) .name)
      · rw [if_neg blank, if_neg blank]
        cases named : fileName? t with
        | none =>
          simp only [expandPieces]
          exact .error
        | some target =>
          have inner : (t == .colon) = false := by
            cases t <;> first | rfl | cases named
          exact weaken (expand_directive_renamed s stack origin target (onward inner .afterName))
    | afterName =>
      rw [piecesFrom, piecesFrom]
      by_cases blank : t.isBlank = true
      · rw [if_pos blank, if_pos blank]
        exact weaken (onward (blank_not_colon blank) .afterName)
      · rw [if_neg blank, if_neg blank]
        by_cases ends : t = .semicolon
        · rw [if_pos ends, if_pos ends]
          exact weaken (onward (by rw [ends]; rfl) (.statement true))
        · rw [if_neg ends, if_neg ends]
          exact statement true

end Inclusion

namespace SqlSource

open Token

variable {names : String → String → Prop}

theorem statements_length (source : SqlSource) (files : FileView) (d : Dialect) :
    (source.statements files d).map StatementList.length =
      match source.expanded files d with
      | .error failure => .error failure
      | .ok ts =>
        if (Statement.listOfTokens ts).length = 0 then .error (.source source.origin .nothingLeft)
        else .ok (Statement.listOfTokens ts).length := by
  unfold statements
  cases source.expanded files d with
  | error failure => rfl
  | ok ts =>
    by_cases none : Statement.listOfTokens ts = []
    · simp [bind, Except.bind, Except.map, none]
    · simp [bind, Except.bind, Except.map, none, StatementList.length]

theorem statements_renamed (same : ∀ a b, names a b → bodyChange a = bodyChange b)
    (files : FileView) (d : Dialect) (left right : SqlSource) (ts us : List Token)
    (origin : left.origin = right.origin) (base : left.base = right.base)
    (leftTokens : left.tokens d = .ok ts) (rightTokens : right.tokens d = .ok us)
    (renamed : Renamed names false ts us) :
    (left.statements files d).map StatementList.length =
      (right.statements files d).map StatementList.length := by
  have expanded : Inclusion.Matching (Renamed names false) (left.expanded files d)
      (right.expanded files d) := by
    have matching := Inclusion.expand_renamed ⟨files, d, left.base.getD ⟨"."⟩⟩ [] left.origin
      renamed (.statement true) (by simp)
    simp only [SqlSource.expanded, leftTokens, rightTokens, ← origin, ← base]
    exact matching
  rw [statements_length, statements_length, ← origin]
  generalize left.expanded files d = x at expanded
  generalize right.expanded files d = y at expanded
  cases expanded with
  | error => rfl
  | ok answers => simp only [Statement.list_of_tokens_renamed answers same]

end SqlSource

namespace Token

-- Exchanging marker names moves no cut in any run just if each name opens and closes the same bodies
-- as the one in its place: BEGIN and CASE open one, END closes one, any other name does neither. A
-- source then has as many statements as before, or fails as it did.
theorem cuts_renamed_iff (names : String → String → Prop) :
    ((∀ ts us, Renamed names false ts us → cuts ts = cuts us) ↔
      ∀ a b, names a b → bodyChange a = bodyChange b) ∧
    ((∀ a b, names a b → bodyChange a = bodyChange b) →
      ∀ (files : FileView) (d : Dialect) (left right : SqlSource) (ts us : List Token),
        left.origin = right.origin → left.base = right.base → left.tokens d = .ok ts →
        right.tokens d = .ok us → Renamed names false ts us →
        (left.statements files d).map StatementList.length =
          (right.statements files d).map StatementList.length) := by
  refine ⟨⟨fun kept a b allowed => same_change allowed kept, fun same ts us renamed => ?_⟩, ?_⟩
  · exact lengths_renamed (groups_renamed renamed same)
  · intro same files d left right ts us origin base leftTokens rightTokens renamed
    exact SqlSource.statements_renamed same files d left right ts us origin base leftTokens
      rightTokens renamed

theorem cuts_renamed_iff_plain :
    bodyChange "amount" = bodyChange "limit" ∧
    cuts [.word "CASE" none, .blank .space, .colon, .word "amount" none, .semicolon,
      .word "END" none, .semicolon, .colon, .word "amount" none] =
    cuts [.word "CASE" none, .blank .space, .colon, .word "limit" none, .semicolon,
      .word "END" none, .semicolon, .colon, .word "amount" none] := by
  have same : bodyChange "amount" = bodyChange "limit" := by decide
  refine ⟨same, ?_⟩
  refine (cuts_renamed_iff fun a b => a = "amount" ∧ b = "limit").1.mpr ?_ _ _ ?_
  · rintro a b ⟨rfl, rfl⟩
    exact same
  · exact .same _ (.same _ (.same .colon (.name ⟨rfl, rfl⟩ (renamed_refl _ _))))

theorem case_joins_statements :
    let named (name : String) : List Token := [.word "SELECT" none, .blank .space, .colon,
      .word name none, .semicolon, .blank .space, .word "SELECT" none, .blank .space,
      .number "1" false]
    Renamed (fun _ _ => True) false (named "x") (named "case") ∧
    cuts (named "x") = [4, 4] ∧ cuts (named "case") = [9] ∧
    (Statement.listOfTokens (named "x")).length = 2 ∧
    (Statement.listOfTokens (named "case")).length = 1 := by
  refine ⟨.same _ (.same _ (.same .colon (.name trivial (renamed_refl _ _)))), ?_, ?_, ?_, ?_⟩
  all_goals decide

end Token
end SqlCatalog
