import Mathlib
import SqlCatalog.Statement.Inclusion
/-!
What including files does. It opens each file at most once at a time, puts in its tokens wherever it
is named, and fails for a cycle just where there is one (`expand_inlines`).
-/
namespace SqlCatalog.Inclusion

open Relation

variable (s : Setting)

def Holds (location : Location) (ts : List Token) : Prop :=
  ∃ text, s.files.textAt location = .ok text ∧ Token.ofText s.dialect text = .ok ts

theorem holds_unique {location : Location} {ts us : List Token} (left : Holds s location ts)
    (right : Holds s location us) : ts = us := by
  obtain ⟨text, found, reads⟩ := left
  obtain ⟨other, foundOther, readsOther⟩ := right
  rw [found] at foundOther
  cases foundOther
  rw [reads] at readsOther
  exact Except.ok.inj readsOther

theorem tokens_of_ok_iff (path : Path) (location : Location) (ts : List Token) :
    tokensOf s path location = .ok ts ↔ Holds s location ts := by
  unfold tokensOf Holds
  cases s.files.textAt location with
  | error problem => simp
  | ok text =>
    cases reads : Token.ofText s.dialect text with
    | error description => simp [reads]
    | ok us => simp [reads]

theorem tokens_of_not_cycle (path other : Path) (location : Location) (place : String) :
    tokensOf s path location ≠ .error (.source place (.includeCycle other)) := by
  unfold tokensOf
  cases s.files.textAt location with
  | error problem => simp
  | ok text =>
    cases reads : Token.ofText s.dialect text with
    | error description => simp [reads]
    | ok us => simp [reads]

-- Under a name, so that `enter` decides by it whatever else has come before.
local instance location_lawful : LawfulBEq Location := inferInstance

def enter (stack : List Location) (origin : String) (target : Path) :
    Except Failure (Location × List Token) :=
  let path := s.base.join target
  match s.files.resolve path with
  | .error problem => .error (.unreadable path problem)
  | .ok location =>
    if location ∈ stack then .error (.source origin (.includeCycle path))
    else (tokensOf s path location).map fun ts => (location, ts)

theorem enter_ok_iff (stack : List Location) (origin : String) (target : Path)
    (location : Location) (ts : List Token) :
    enter s stack origin target = .ok (location, ts) ↔
      s.files.resolve (s.base.join target) = .ok location ∧ location ∉ stack ∧
        Holds s location ts := by
  rw [← tokens_of_ok_iff s (s.base.join target)]
  cases leads : s.files.resolve (s.base.join target) with
  | error problem => simp [enter, leads]
  | ok found =>
    by_cases entered : found ∈ stack
    · simp only [enter, leads, if_pos entered, reduceCtorEq, Except.ok.injEq, false_iff]
      rintro ⟨rfl, fresh, -⟩
      exact fresh entered
    · simp only [enter, leads, if_neg entered, Except.ok.injEq]
      constructor
      · intro mapped
        obtain ⟨us, holds, same⟩ := Token.map_eq_ok mapped
        cases same
        exact ⟨rfl, entered, holds⟩
      · rintro ⟨rfl, -, holds⟩
        rw [holds]
        rfl

theorem enter_cycle (stack : List Location) (origin place : String) (target path : Path)
    (failed : enter s stack origin target = .error (.source place (.includeCycle path))) :
    ∃ location ∈ stack, s.files.resolve (s.base.join target) = .ok location := by
  cases leads : s.files.resolve (s.base.join target) with
  | error problem => simp [enter, leads] at failed
  | ok location =>
    by_cases entered : location ∈ stack
    · exact ⟨location, entered, rfl⟩
    · cases holds : tokensOf s (s.base.join target) location with
      | ok ts => simp [enter, leads, entered, holds, Except.map] at failed
      | error failure =>
        simp only [enter, leads, if_neg entered, holds, Except.map, Except.error.injEq] at failed
        exact absurd (failed ▸ holds) (tokens_of_not_cycle s _ path location place)

theorem expand_token (stack : List Location) (origin : String) (t : Token) (rest : List Piece) :
    expandPieces s stack origin (.token t :: rest) =
      (expandPieces s stack origin rest).map (t :: ·) := by
  rw [expandPieces]

theorem expand_tokens (stack : List Location) (origin : String) (ts : List Token) :
    expandPieces s stack origin (ts.map .token) = .ok ts := by
  induction ts with
  | nil => rw [List.map_nil, expandPieces]
  | cons t ts ih => rw [List.map_cons, expand_token, ih]; rfl

theorem expand_directive (stack : List Location) (origin : String) (target : Path)
    (rest : List Piece) :
    expandPieces s stack origin (.directive target :: rest) =
      match enter s stack origin target with
      | .error failure => .error failure
      | .ok (location, ts) =>
        match expandPieces s (location :: stack) (s.base.join target).text (pieces ts) with
        | .error failure => .error failure
        | .ok included => (expandPieces s stack origin rest).map fun others =>
          .blank .space :: (included ++ .semicolon :: others) := by
  rw [expandPieces]
  cases leads : s.files.resolve (s.base.join target) with
  | error problem => simp [enter, leads]
  | ok location =>
    by_cases entered : location ∈ stack
    · simp [enter, leads, entered]
    · simp only [enter, leads, dif_neg entered, if_neg entered]
      split
      · next failure holds => simp only [holds, Except.map]
      · next ts holds =>
        simp only [holds, Except.map]
        cases expandPieces s (location :: stack) (s.base.join target).text (pieces ts) with
        | error failure => rfl
        | ok included => cases expandPieces s stack origin rest <;> rfl

-- Induction along an expansion: a directive is refused, or its file is expanded and then what
-- follows the directive.
theorem expand_induction {motive : List Location → String → List Piece → Prop}
    (nil : ∀ stack origin, motive stack origin [])
    (token : ∀ stack origin t rest, motive stack origin rest →
      motive stack origin (.token t :: rest))
    (nameless : ∀ stack origin rest, motive stack origin (.nameless :: rest))
    (refused : ∀ stack origin target rest failure, enter s stack origin target = .error failure →
      motive stack origin (.directive target :: rest))
    (entered : ∀ stack origin target rest location ts,
      enter s stack origin target = .ok (location, ts) →
      motive (location :: stack) (s.base.join target).text (pieces ts) → motive stack origin rest →
      motive stack origin (.directive target :: rest))
    (stack : List Location) (origin : String) (ps : List Piece) : motive stack origin ps := by
  have refusedOtherwise (stack origin target rest)
      (none : ∀ location ts, enter s stack origin target ≠ .ok (location, ts)) :
      motive stack origin (.directive target :: rest) := by
    cases result : enter s stack origin target with
    | error failure => exact refused stack origin target rest failure result
    | ok file => exact absurd result (none file.1 file.2)
  induction stack, origin, ps using expandPieces.induct s with
  | case1 stack origin => exact nil stack origin
  | case2 stack origin t rest ih => exact token stack origin t rest ih
  | case3 stack origin rest => exact nameless stack origin rest
  | case4 stack origin target rest path problem leads =>
    refine refusedOtherwise stack origin target rest fun location ts result => ?_
    rw [enter_ok_iff, leads] at result
    cases result.1
  | case5 stack origin target rest path location leads visited =>
    refine refusedOtherwise stack origin target rest fun found ts result => ?_
    rw [enter_ok_iff, leads] at result
    obtain ⟨same, fresh, -⟩ := result
    cases same
    exact fresh visited
  | case6 stack origin target rest path location leads fresh failure failed =>
    refine refusedOtherwise stack origin target rest fun found ts result => ?_
    rw [enter_ok_iff, leads] at result
    obtain ⟨same, -, holds⟩ := result
    cases same
    rw [← tokens_of_ok_iff s path, failed] at holds
    cases holds
  | case7 stack origin target rest path location leads fresh ts holds ihFile ihRest =>
    refine entered stack origin target rest location ts ?_ ihFile ihRest
    rw [enter_ok_iff, leads]
    exact ⟨rfl, fresh, (tokens_of_ok_iff s path location ts).mp holds⟩

def expandMeasured (stack : List Location) (origin : String) :
    List Piece → Except Failure (List Token) × Nat
  | [] => (.ok [], stack.length)
  | .token t :: rest =>
    match expandMeasured stack origin rest with
    | (result, depth) => (result.map (t :: ·), depth)
  | .nameless :: _ => (.error (.source origin .includeWithoutName), stack.length)
  | .directive target :: rest =>
    match _found : enter s stack origin target with
    | .error failure => (.error failure, stack.length)
    | .ok (location, ts) =>
      match expandMeasured (location :: stack) (s.base.join target).text (pieces ts) with
      | (.error failure, depth) => (.error failure, depth)
      | (.ok included, depth) =>
        match expandMeasured stack origin rest with
        | (result, other) =>
          (result.map fun others => .blank .space :: (included ++ .semicolon :: others),
            max depth other)
termination_by ps => (s.files.unvisited stack, ps.length)
decreasing_by
  · exact Prod.Lex.right _ (by simp)
  · obtain ⟨-, fresh, holds⟩ := (enter_ok_iff s stack origin target location ts).mp _found
    have present := mem_locations_of_tokens_of ((tokens_of_ok_iff s ⟨""⟩ location ts).mpr holds)
    exact Prod.Lex.left _ _ (FileView.unvisited_cons_lt present fresh)
  · exact Prod.Lex.right _ (by simp)

theorem measured_directive (stack : List Location) (origin : String) (target : Path)
    (rest : List Piece) :
    expandMeasured s stack origin (.directive target :: rest) =
      match enter s stack origin target with
      | .error failure => (.error failure, stack.length)
      | .ok (location, ts) =>
        match expandMeasured s (location :: stack) (s.base.join target).text (pieces ts) with
        | (.error failure, depth) => (.error failure, depth)
        | (.ok included, depth) =>
          match expandMeasured s stack origin rest with
          | (result, other) =>
            (result.map fun others => .blank .space :: (included ++ .semicolon :: others),
              max depth other) := by
  rw [expandMeasured]
  split
  · next failure found => simp only [found]
  · next location ts found => simp only [found]

theorem measured_result (stack : List Location) (origin : String) (ps : List Piece) :
    (expandMeasured s stack origin ps).1 = expandPieces s stack origin ps := by
  induction stack, origin, ps using expand_induction s with
  | nil stack origin => simp only [expandMeasured, expandPieces]
  | token stack origin t rest ih => rw [expand_token, ← ih, expandMeasured]
  | nameless stack origin rest => simp only [expandMeasured, expandPieces]
  | refused stack origin target rest failure refused =>
    rw [measured_directive, expand_directive, refused]
  | entered stack origin target rest location ts entered ihFile ihRest =>
    rcases file : expandMeasured s (location :: stack) (s.base.join target).text (pieces ts) with
      ⟨result, depth⟩
    rw [file] at ihFile
    simp only [measured_directive, expand_directive, entered, file, ← ihFile, ← ihRest]
    cases result <;> rfl

theorem measured_depth (stack : List Location) (origin : String) (ps : List Piece)
    (distinct : stack.Nodup) (known : ∀ location ∈ stack, location ∈ s.files.locations) :
    (expandMeasured s stack origin ps).2 ≤ s.files.locations.length := by
  have bounded (stack : List Location) (distinct : stack.Nodup)
      (known : ∀ location ∈ stack, location ∈ s.files.locations) :
      stack.length ≤ s.files.locations.length :=
    (List.subperm_of_subset distinct fun location member => known location member).length_le
  induction stack, origin, ps using expand_induction s with
  | nil stack origin =>
    rw [expandMeasured]
    exact bounded stack distinct known
  | token stack origin t rest ih =>
    rw [expandMeasured]
    exact ih distinct known
  | nameless stack origin rest =>
    rw [expandMeasured]
    exact bounded stack distinct known
  | refused stack origin target rest failure refused =>
    rw [measured_directive, refused]
    exact bounded stack distinct known
  | entered stack origin target rest location ts entered ihFile ihRest =>
    obtain ⟨-, fresh, holds⟩ := (enter_ok_iff s stack origin target location ts).mp entered
    have present := mem_locations_of_tokens_of ((tokens_of_ok_iff s ⟨""⟩ location ts).mpr holds)
    have inner := ihFile (List.nodup_cons.mpr ⟨fresh, distinct⟩) (by
      intro other member
      rcases List.mem_cons.mp member with rfl | member
      · exact present
      · exact known other member)
    have outer := ihRest distinct known
    rcases file : expandMeasured s (location :: stack) (s.base.join target).text (pieces ts) with
      ⟨result, depth⟩
    rw [file] at inner
    simp only [measured_directive, entered, file]
    cases result with
    | error failure => exact inner
    | ok included => exact Nat.max_le.mpr ⟨inner, outer⟩

inductive Expands : List Location → List Piece → List Token → Prop where
  | nil {stack : List Location} : Expands stack [] []
  | token {stack : List Location} {t : Token} {ps : List Piece} {out : List Token}
      (rest : Expands stack ps out) : Expands stack (.token t :: ps) (t :: out)
  | directive {stack : List Location} {target : Path} {location : Location} {ts : List Token}
      {ps : List Piece} {included out : List Token}
      (leads : s.files.resolve (s.base.join target) = .ok location) (fresh : location ∉ stack)
      (holds : Holds s location ts) (file : Expands (location :: stack) (pieces ts) included)
      (rest : Expands stack ps out) :
      Expands stack (.directive target :: ps) (.blank .space :: (included ++ .semicolon :: out))

theorem expands_of_ok (stack : List Location) (origin : String) (ps : List Piece)
    (out : List Token) (succeeds : expandPieces s stack origin ps = .ok out) :
    Expands s stack ps out := by
  induction stack, origin, ps using expand_induction s generalizing out with
  | nil stack origin =>
    rw [expandPieces] at succeeds
    cases succeeds
    exact .nil
  | token stack origin t rest ih =>
    rw [expand_token] at succeeds
    obtain ⟨others, expanded, rfl⟩ := Token.map_eq_ok succeeds
    exact .token (ih others expanded)
  | nameless stack origin rest =>
    rw [expandPieces] at succeeds
    cases succeeds
  | refused stack origin target rest failure refused =>
    rw [expand_directive, refused] at succeeds
    cases succeeds
  | entered stack origin target rest location ts entered ihFile ihRest =>
    rw [expand_directive, entered] at succeeds
    obtain ⟨leads, fresh, holds⟩ := (enter_ok_iff s stack origin target location ts).mp entered
    cases file : expandPieces s (location :: stack) (s.base.join target).text (pieces ts) with
    | error failure => simp [file] at succeeds
    | ok included =>
      simp only [file] at succeeds
      obtain ⟨others, expanded, rfl⟩ := Token.map_eq_ok succeeds
      exact .directive leads fresh holds (ihFile included file) (ihRest others expanded)

theorem ok_of_expands {stack : List Location} {ps : List Piece} {out : List Token}
    (expands : Expands s stack ps out) (origin : String) :
    expandPieces s stack origin ps = .ok out := by
  induction expands generalizing origin with
  | nil => rw [expandPieces]
  | token rest ih =>
    rw [expand_token, ih]
    rfl
  | @directive stack target location ts ps included out leads fresh holds file rest ihFile ihRest =>
    have entered := (enter_ok_iff s stack origin target location ts).mpr ⟨leads, fresh, holds⟩
    simp only [expand_directive, entered, ihFile, ihRest, Except.map]

def Names (ps : List Piece) (location : Location) : Prop :=
  ∃ target, .directive target ∈ ps ∧ s.files.resolve (s.base.join target) = .ok location

def Includes (above below : Location) : Prop :=
  ∃ ts, Holds s above ts ∧ Names s (pieces ts) below

def Reaches (ps : List Piece) (location : Location) : Prop :=
  ∃ first, Names s ps first ∧ ReflTransGen (Includes s) first location

def Acyclic (ps : List Piece) : Prop :=
  ∀ location, Reaches s ps location → ¬ TransGen (Includes s) location location

def Complete (ps : List Piece) : Prop :=
  .nameless ∉ ps ∧ ∀ target, .directive target ∈ ps →
    ∃ location ts, s.files.resolve (s.base.join target) = .ok location ∧ Holds s location ts

def AllComplete (ps : List Piece) : Prop :=
  Complete s ps ∧ ∀ location ts, Reaches s ps location → Holds s location ts →
    Complete s (pieces ts)

theorem names_cons {p : Piece} {ps : List Piece} {location : Location}
    (names : Names s ps location) : Names s (p :: ps) location := by
  obtain ⟨target, member, leads⟩ := names
  exact ⟨target, List.mem_cons_of_mem p member, leads⟩

theorem reaches_cons {p : Piece} {ps : List Piece} {location : Location}
    (reaches : Reaches s ps location) : Reaches s (p :: ps) location := by
  obtain ⟨first, names, path⟩ := reaches
  exact ⟨first, names_cons s names, path⟩

theorem reaches_file {ps : List Piece} {above below : Location} {ts : List Token}
    (names : Names s ps above) (holds : Holds s above ts) (reaches : Reaches s (pieces ts) below) :
    Reaches s ps below := by
  obtain ⟨first, inner, path⟩ := reaches
  exact ⟨above, names, .head ⟨ts, holds, inner⟩ path⟩

theorem expands_names {stack : List Location} {ps : List Piece} {out : List Token}
    {location : Location} (expands : Expands s stack ps out) (names : Names s ps location) :
    location ∉ stack ∧ ∃ ts included, Holds s location ts ∧
      Expands s (location :: stack) (pieces ts) included := by
  obtain ⟨target, member, leads⟩ := names
  induction expands with
  | nil => cases member
  | token rest ih =>
    rcases List.mem_cons.mp member with same | member
    · cases same
    · exact ih member
  | directive leadsHere fresh holds file rest ihFile ihRest =>
    rcases List.mem_cons.mp member with same | member
    · cases same
      rw [leads] at leadsHere
      cases leadsHere
      exact ⟨fresh, _, _, holds, file⟩
    · exact ihRest member

theorem expands_reaches {stack : List Location} {ps : List Piece} {out : List Token}
    {first location : Location} (expands : Expands s stack ps out) (names : Names s ps first)
    (path : ReflTransGen (Includes s) first location) :
    ∃ below, (∀ file ∈ stack, file ∈ below) ∧ location ∉ below ∧ ∃ ts included,
      Holds s location ts ∧ Expands s (location :: below) (pieces ts) included := by
  induction path with
  | refl => exact ⟨stack, fun _ member => member, expands_names s expands names⟩
  | @tail between last path step ih =>
    obtain ⟨below, kept, -, ts, included, holds, file⟩ := ih
    obtain ⟨us, holdsAgain, named⟩ := step
    have same := holds_unique s holds holdsAgain
    subst same
    exact ⟨between :: below, fun file member => List.mem_cons_of_mem between (kept file member),
      expands_names s file named⟩

theorem expands_acyclic {ps : List Piece} {out : List Token} (expands : Expands s [] ps out) :
    Acyclic s ps := by
  rintro location ⟨first, names, path⟩ cycle
  obtain ⟨below, -, -, ts, included, holds, file⟩ := expands_reaches s expands names path
  obtain ⟨next, ⟨us, holdsAgain, named⟩, back⟩ := TransGen.head'_iff.mp cycle
  have same := holds_unique s holds holdsAgain
  subst same
  obtain ⟨above, kept, fresh, -⟩ := expands_reaches s file named back
  exact fresh (kept location (by simp))

theorem expands_complete {stack : List Location} {ps : List Piece} {out : List Token}
    (expands : Expands s stack ps out) : Complete s ps := by
  induction expands with
  | nil => exact ⟨by simp, by simp⟩
  | token rest ih => exact ⟨by simpa using ih.1, by simpa using ih.2⟩
  | @directive stack target location ts ps included out leads fresh holds file rest ihFile ihRest =>
    refine ⟨by simpa using ihRest.1, fun other member => ?_⟩
    rcases List.mem_cons.mp member with same | member
    · cases same
      exact ⟨location, ts, leads, holds⟩
    · exact ihRest.2 other member

theorem expands_all_complete {ps : List Piece} {out : List Token} (expands : Expands s [] ps out) :
    AllComplete s ps := by
  refine ⟨expands_complete s expands, ?_⟩
  rintro location ts ⟨first, names, path⟩ holds
  obtain ⟨below, -, -, us, included, holdsAgain, file⟩ := expands_reaches s expands names path
  rw [holds_unique s holds holdsAgain]
  exact expands_complete s file

def Descends (stack : List Location) (ps : List Piece) : Prop :=
  ∀ above ∈ stack, ∀ below, Names s ps below → TransGen (Includes s) above below

theorem descends_file {stack : List Location} {ps : List Piece} {location : Location}
    {ts : List Token} (descends : Descends s stack ps) (names : Names s ps location)
    (holds : Holds s location ts) : Descends s (location :: stack) (pieces ts) := by
  intro above member below named
  have step : Includes s location below := ⟨ts, holds, named⟩
  rcases List.mem_cons.mp member with rfl | member
  · exact .single step
  · exact (descends above member location names).tail step

theorem descends_rest {stack : List Location} {p : Piece} {ps : List Piece}
    (descends : Descends s stack (p :: ps)) : Descends s stack ps := by
  intro above member below named
  exact descends above member below (names_cons s named)

theorem expands_of_acyclic (stack : List Location) (origin : String) (ps : List Piece)
    (descends : Descends s stack ps) (acyclic : Acyclic s ps) (complete : AllComplete s ps) :
    ∃ out, Expands s stack ps out := by
  have restComplete {p : Piece} {ps : List Piece} (complete : AllComplete s (p :: ps)) :
      AllComplete s ps :=
    ⟨⟨fun member => complete.1.1 (List.mem_cons_of_mem p member),
      fun target member => complete.1.2 target (List.mem_cons_of_mem p member)⟩,
      fun location ts reached => complete.2 location ts (reaches_cons s reached)⟩
  induction stack, origin, ps using expand_induction s with
  | nil stack origin => exact ⟨[], .nil⟩
  | token stack origin t rest ih =>
    obtain ⟨out, expands⟩ := ih (descends_rest s descends)
      (fun location reached => acyclic location (reaches_cons s reached)) (restComplete complete)
    exact ⟨t :: out, .token expands⟩
  | nameless stack origin rest => exact absurd (by simp) complete.1.1
  | refused stack origin target rest failure refused =>
    obtain ⟨location, ts, leads, holds⟩ := complete.1.2 target (by simp)
    have names : Names s (.directive target :: rest) location := ⟨target, by simp, leads⟩
    have fresh : location ∉ stack := by
      intro member
      exact acyclic location ⟨location, names, .refl⟩ (descends location member location names)
    rw [(enter_ok_iff s stack origin target location ts).mpr ⟨leads, fresh, holds⟩] at refused
    cases refused
  | entered stack origin target rest location ts entered ihFile ihRest =>
    obtain ⟨leads, fresh, holds⟩ := (enter_ok_iff s stack origin target location ts).mp entered
    have names : Names s (.directive target :: rest) location := ⟨target, by simp, leads⟩
    obtain ⟨included, file⟩ := ihFile (descends_file s descends names holds)
      (fun other reached => acyclic other (reaches_file s names holds reached))
      ⟨complete.2 location ts ⟨location, names, .refl⟩ holds,
        fun other us reached => complete.2 other us (reaches_file s names holds reached)⟩
    obtain ⟨out, others⟩ := ihRest (descends_rest s descends)
      (fun other reached => acyclic other (reaches_cons s reached)) (restComplete complete)
    exact ⟨_, .directive leads fresh holds file others⟩

theorem cycle_of_error (stack : List Location) (origin : String) (ps : List Piece)
    (descends : Descends s stack ps) (place : String) (path : Path)
    (failed : expandPieces s stack origin ps = .error (.source place (.includeCycle path))) :
    ¬ Acyclic s ps := by
  induction stack, origin, ps using expand_induction s with
  | nil stack origin =>
    rw [expandPieces] at failed
    cases failed
  | token stack origin t rest ih =>
    rw [expand_token] at failed
    intro acyclic
    cases expanded : expandPieces s stack origin rest with
    | ok out => simp [expanded, Except.map] at failed
    | error failure =>
      simp only [expanded, Except.map, Except.error.injEq] at failed
      exact ih (descends_rest s descends) (failed ▸ expanded)
        fun location reached => acyclic location (reaches_cons s reached)
  | nameless stack origin rest =>
    rw [expandPieces] at failed
    cases failed
  | refused stack origin target rest failure refused =>
    simp only [expand_directive, refused, Except.error.injEq] at failed
    obtain ⟨location, member, leads⟩ := enter_cycle s stack origin place target path (failed ▸ refused)
    have names : Names s (.directive target :: rest) location := ⟨target, by simp, leads⟩
    intro acyclic
    exact acyclic location ⟨location, names, .refl⟩ (descends location member location names)
  | entered stack origin target rest location ts entered ihFile ihRest =>
    obtain ⟨leads, fresh, holds⟩ := (enter_ok_iff s stack origin target location ts).mp entered
    have names : Names s (.directive target :: rest) location := ⟨target, by simp, leads⟩
    rw [expand_directive, entered] at failed
    intro acyclic
    cases file : expandPieces s (location :: stack) (s.base.join target).text (pieces ts) with
    | error failure =>
      simp only [file, Except.error.injEq] at failed
      exact ihFile (descends_file s descends names holds) (failed ▸ file)
        fun other reached => acyclic other (reaches_file s names holds reached)
    | ok included =>
      simp only [file] at failed
      cases expanded : expandPieces s stack origin rest with
      | ok out => simp [expanded, Except.map] at failed
      | error failure =>
        simp only [expanded, Except.map, Except.error.injEq] at failed
        exact ihRest (descends_rest s descends) (failed ▸ expanded)
          fun other reached => acyclic other (reaches_cons s reached)

def visible (ts : List Token) : List Token := ts.filter fun t => !t.isBlank

def dropSemicolon : List Token → List Token
  | .semicolon :: ts => ts
  | ts => ts

-- Recursive inlining: where a statement starts, the directive word and a file name, with the
-- semicolon behind them if there is one, give way to the tokens of the file, inlined, and one
-- semicolon. All else stays.
inductive Inlined : (atStart : Bool) → List Token → List Token → Prop where
  | nil {atStart : Bool} : Inlined atStart [] []
  | directive {word name : Token} {target : Path} {location : Location}
      {ts rest included out : List Token} (directs : isDirectiveWord word = true)
      (named : fileName? name = some target)
      (leads : s.files.resolve (s.base.join target) = .ok location) (holds : Holds s location ts)
      (file : Inlined true (visible ts) included) (others : Inlined true (dropSemicolon rest) out) :
      Inlined true (word :: name :: rest) (included ++ .semicolon :: out)
  | semicolon {atStart : Bool} {rest out : List Token} (others : Inlined true rest out) :
      Inlined atStart (.semicolon :: rest) (.semicolon :: out)
  | token {atStart : Bool} {t : Token} {rest out : List Token} (inside : t ≠ .semicolon)
      (plain : (atStart && isDirectiveWord t) = false) (others : Inlined false rest out) :
      Inlined atStart (t :: rest) (t :: out)

theorem inlined_unique {atStart : Bool} {ts out : List Token} (left : Inlined s atStart ts out) :
    ∀ other, Inlined s atStart ts other → out = other := by
  induction left with
  | nil =>
    intro other right
    cases right
    rfl
  | directive directs named leads holds file others ihFile ihOthers =>
    intro other right
    cases right with
    | directive directsHere namedHere leadsHere holdsHere fileHere othersHere =>
      rw [named] at namedHere
      cases namedHere
      rw [leads] at leadsHere
      cases leadsHere
      have same := holds_unique s holds holdsHere
      subst same
      rw [ihFile _ fileHere, ihOthers _ othersHere]
    | semicolon => cases directs
    | token inside plain => simp [directs] at plain
  | semicolon others ih =>
    intro other right
    cases right with
    | directive directs => cases directs
    | semicolon othersHere => rw [ih _ othersHere]
    | token inside => exact absurd rfl inside
  | token inside plain others ih =>
    intro other right
    cases right with
    | directive directs => simp [directs] at plain
    | semicolon => exact absurd rfl inside
    | token insideHere plainHere othersHere => rw [ih _ othersHere]

theorem visible_cons (t : Token) (ts : List Token) :
    visible (t :: ts) = if t.isBlank then visible ts else t :: visible ts := by
  cases blank : t.isBlank <;> simp [visible, blank]

theorem visible_append (ts us : List Token) : visible (ts ++ us) = visible ts ++ visible us :=
  List.filter_append ..

inductive Passed : (atStart : Bool) → Token → Token → (next : Bool) → Prop where
  | blank {atStart : Bool} {t kept : Token} (blank : t.isBlank = true)
      (keptBlank : kept.isBlank = true) : Passed atStart t kept atStart
  | semicolon {atStart : Bool} : Passed atStart .semicolon .semicolon true
  | other {atStart : Bool} {t : Token} (visible : t.isBlank = false) (inside : t ≠ .semicolon)
      (plain : (atStart && isDirectiveWord t) = false) : Passed atStart t t false

theorem read_token_visible (atStart : Bool) (t : Token) (visible : t.isBlank = false)
    (inside : t ≠ .semicolon) :
    readToken atStart t =
      if atStart && isDirectiveWord t then (none, .name) else (some (.token t), .statement false) := by
  cases t with
  | blank b => cases visible
  | semicolon => exact absurd rfl inside
  | word text quote => rfl
  | number digits long => rfl
  | literal form text => rfl
  | placeholder text => rfl
  | leftParen => rfl
  | rightParen => rfl
  | comma => rfl
  | colon => rfl
  | period => rfl
  | star => rfl
  | operator text => rfl
  | endMark => rfl

theorem read_token_cases (atStart : Bool) (t : Token) :
    (∃ kept next, readToken atStart t = (some (.token kept), .statement next) ∧
      Passed atStart t kept next) ∨
    (atStart = true ∧ t.isBlank = false ∧ isDirectiveWord t = true ∧
      readToken atStart t = (none, .name)) := by
  cases blank : t.isBlank with
  | true =>
    cases t with
    | blank b => exact .inl ⟨_, atStart, rfl, .blank rfl rfl⟩
    | _ => cases blank
  | false =>
    by_cases inside : t = .semicolon
    · subst inside
      exact .inl ⟨.semicolon, true, rfl, .semicolon⟩
    · have read := read_token_visible atStart t blank inside
      cases plain : atStart && isDirectiveWord t with
      | true =>
        rw [plain] at read
        obtain ⟨starts, directs⟩ := Bool.and_eq_true_iff.mp plain
        exact .inr ⟨starts, rfl, directs, read⟩
      | false =>
        rw [plain] at read
        exact .inl ⟨t, false, read, .other blank inside plain⟩

theorem inlined_passed {atStart next : Bool} {t kept : Token} {rest out : List Token}
    (passed : Passed atStart t kept next) (others : Inlined s next (visible rest) (visible out)) :
    Inlined s atStart (visible (t :: rest)) (visible (kept :: out)) := by
  rw [visible_cons, visible_cons]
  cases passed with
  | blank blank keptBlank =>
    rw [if_pos blank, if_pos keptBlank]
    exact others
  | semicolon => exact .semicolon others
  | other seen inside plain =>
    rw [if_neg (by simp [seen]), if_neg (by simp [seen])]
    exact .token inside plain others

theorem pieces_after_name (ts : List Token) :
    ∃ rest, rest <:+ ts ∧ piecesFrom .afterName ts = piecesFrom (.statement true) rest ∧
      visible rest = dropSemicolon (visible ts) := by
  induction ts with
  | nil => exact ⟨[], List.suffix_refl _, rfl, rfl⟩
  | cons t ts ih =>
    rw [piecesFrom, visible_cons]
    by_cases blank : t.isBlank = true
    · rw [if_pos blank, if_pos blank]
      obtain ⟨rest, behind, read⟩ := ih
      exact ⟨rest, behind.trans (List.suffix_cons t ts), read⟩
    · by_cases ends : t = .semicolon
      · subst ends
        exact ⟨ts, List.suffix_cons _ ts, rfl, rfl⟩
      · refine ⟨t :: ts, List.suffix_refl _, ?_, ?_⟩
        · rw [if_neg blank, if_neg ends, piecesFrom]
        · rw [visible_cons, if_neg blank]
          cases t <;> first | rfl | exact absurd rfl ends

theorem pieces_name (ts : List Token) (target : Path) (rest : List Piece)
    (directive : piecesFrom .name ts = .directive target :: rest) :
    ∃ name following, following <:+ ts ∧ visible ts = name :: visible following ∧
      fileName? name = some target ∧ rest = piecesFrom .afterName following := by
  induction ts with
  | nil => simp [piecesFrom] at directive
  | cons t ts ih =>
    rw [piecesFrom] at directive
    rw [visible_cons]
    by_cases blank : t.isBlank = true
    · rw [if_pos blank] at directive ⊢
      obtain ⟨name, following, behind, read⟩ := ih directive
      exact ⟨name, following, behind.trans (List.suffix_cons t ts), read⟩
    · rw [if_neg blank] at directive ⊢
      cases named : fileName? t with
      | none => simp [named] at directive
      | some found =>
        simp only [named, List.cons.injEq, Piece.directive.injEq] at directive
        obtain ⟨rfl, same⟩ := directive
        exact ⟨t, ts, List.suffix_cons t ts, rfl, named, same.symm⟩

theorem pieces_name_cases (ts : List Token) :
    piecesFrom .name ts = [.nameless] ∨
      ∃ target rest, piecesFrom .name ts = .directive target :: rest := by
  induction ts with
  | nil => exact .inl rfl
  | cons t ts ih =>
    rw [piecesFrom]
    by_cases blank : t.isBlank = true
    · simpa only [if_pos blank] using ih
    · rw [if_neg blank]
      cases fileName? t with
      | none => exact .inl rfl
      | some target => exact .inr ⟨target, _, rfl⟩

-- The tokens that a list of pieces is read off, by the piece in front. An expansion goes on by its
-- pieces, so these are the cases of every proof about the expansion of tokens.
theorem tokens_of_nil {atStart : Bool} {ts : List Token}
    (read : piecesFrom (.statement atStart) ts = []) : ts = [] := by
  cases ts with
  | nil => rfl
  | cons t ts =>
    rw [piecesFrom] at read
    rcases read_token_cases atStart t with ⟨kept, next, reads, -⟩ | ⟨-, -, -, reads⟩
    · simp [reads] at read
    · rw [reads] at read
      rcases pieces_name_cases ts with nameless | ⟨target, rest, directive⟩
      · simp [nameless] at read
      · simp [directive] at read

theorem tokens_of_token {atStart : Bool} {ts : List Token} {kept : Token} {ps : List Piece}
    (read : piecesFrom (.statement atStart) ts = .token kept :: ps) :
    ∃ t rest next, ts = t :: rest ∧ Passed atStart t kept next ∧
      piecesFrom (.statement next) rest = ps := by
  cases ts with
  | nil => simp [piecesFrom] at read
  | cons t ts =>
    rw [piecesFrom] at read
    rcases read_token_cases atStart t with ⟨same, next, reads, passed⟩ | ⟨-, -, -, reads⟩
    · simp only [reads, Option.toList_some, List.singleton_append, List.cons.injEq,
        Piece.token.injEq] at read
      obtain ⟨rfl, read⟩ := read
      exact ⟨t, ts, next, rfl, passed, read⟩
    · rw [reads] at read
      rcases pieces_name_cases ts with nameless | ⟨target, rest, directive⟩
      · simp [nameless] at read
      · simp [directive] at read

theorem tokens_of_directive {atStart : Bool} {ts : List Token} {target : Path} {ps : List Piece}
    (read : piecesFrom (.statement atStart) ts = .directive target :: ps) :
    ∃ word name following rest, atStart = true ∧ isDirectiveWord word = true ∧
      fileName? name = some target ∧ visible ts = word :: name :: following ∧ rest <:+ ts ∧
      visible rest = dropSemicolon following ∧ piecesFrom (.statement true) rest = ps := by
  cases ts with
  | nil => simp [piecesFrom] at read
  | cons t ts =>
    rw [piecesFrom] at read
    rcases read_token_cases atStart t with ⟨kept, next, reads, -⟩ | ⟨starts, seen, directs, reads⟩
    · simp [reads] at read
    · simp only [reads, Option.toList_none, List.nil_append] at read
      obtain ⟨name, following, behind, shown, named, after⟩ := pieces_name ts target ps read
      obtain ⟨rest, suffix, same, dropped⟩ := pieces_after_name following
      have front : visible (t :: ts) = t :: name :: visible following := by
        rw [visible_cons, seen, shown]
        rfl
      exact ⟨t, name, visible following, rest, starts, directs, named, front,
        (suffix.trans behind).trans (List.suffix_cons t ts), dropped, by rw [after, same]⟩

theorem expands_inlined {stack : List Location} {ps : List Piece} {out : List Token}
    (expands : Expands s stack ps out) (atStart : Bool) (ts : List Token)
    (read : piecesFrom (.statement atStart) ts = ps) :
    Inlined s atStart (visible ts) (visible out) := by
  induction expands generalizing atStart ts with
  | nil =>
    cases tokens_of_nil read
    exact .nil
  | token rest ih =>
    obtain ⟨u, us, next, rfl, passed, onward⟩ := tokens_of_token read
    exact inlined_passed s passed (ih next us onward)
  | @directive stack target location fileTokens ps included out leads fresh holds file rest ihFile
      ihRest =>
    obtain ⟨word, name, following, others, rfl, directs, named, front, -, dropped, onward⟩ :=
      tokens_of_directive read
    have inner := ihFile true fileTokens rfl
    have outer := ihRest true others onward
    rw [dropped] at outer
    have semicolon : visible (.semicolon :: out) = .semicolon :: visible out := rfl
    have space : ∀ tokens, visible (.blank .space :: tokens) = visible tokens := fun _ => rfl
    rw [front, space, visible_append, semicolon]
    exact .directive directs named leads holds inner outer

-- Expansion keeps no more files open at a time than there are different ones. It succeeds just if no
-- file reached includes itself, directly or not, and all of them are there and well formed, however
-- often one is named; the tokens are then those of the recursive inlining, but for blanks. It fails
-- for a cycle only where there is one.
theorem expand_inlines (origin : String) (ts : List Token) :
    (expandMeasured s [] origin (pieces ts)).1 = expand s origin ts ∧
    (expandMeasured s [] origin (pieces ts)).2 ≤ s.files.locations.length ∧
    ((∃ out, expand s origin ts = .ok out) ↔
      Acyclic s (pieces ts) ∧ AllComplete s (pieces ts)) ∧
    (∀ out, expand s origin ts = .ok out →
      ∀ tokens, Inlined s true (visible ts) tokens ↔ tokens = visible out) ∧
    (∀ place path, expand s origin ts = .error (.source place (.includeCycle path)) →
      ¬ Acyclic s (pieces ts)) := by
  have descends : Descends s [] (pieces ts) := fun above member => absurd member (by simp)
  refine ⟨measured_result s [] origin _, ?_, ⟨?_, ?_⟩, ?_, ?_⟩
  · exact measured_depth s [] origin _ .nil fun location member => absurd member (by simp)
  · rintro ⟨out, succeeds⟩
    have expands := expands_of_ok s [] origin _ out succeeds
    exact ⟨expands_acyclic s expands, expands_all_complete s expands⟩
  · rintro ⟨acyclic, complete⟩
    obtain ⟨out, expands⟩ := expands_of_acyclic s [] origin _ descends acyclic complete
    exact ⟨out, ok_of_expands s expands origin⟩
  · intro out succeeds tokens
    have inlined := expands_inlined s (expands_of_ok s [] origin _ out succeeds) true ts rfl
    constructor
    · intro other
      exact inlined_unique s other _ inlined
    · intro same
      rw [same]
      exact inlined
  · exact cycle_of_error s [] origin _ descends

def diamond : Setting where
  files :=
    { resolve := fun path =>
        if path.text = "./a" ∨ path.text = "./link" then .ok ["a"]
        else if path.text = "./b" then .ok ["b"]
        else if path.text = "./c" then .ok ["c"]
        else .error .notFound
      textAt := fun location =>
        if location = ["a"] ∨ location = ["b"] then .ok "INCLUDE 'c'"
        else if location = ["c"] then .ok "7"
        else .error .notFound
      isFile := fun location => location ∈ [["a"], ["b"], ["c"]]
      namesAt := fun _ => .error .notADirectory
      locations := [["a"], ["b"], ["c"]]
      distinct := by decide
      mem_locations := by
        intro location
        simp only [List.mem_cons, List.not_mem_nil, or_false]
        constructor
        · rintro (rfl | rfl | rfl)
          · exact ⟨"INCLUDE 'c'", rfl⟩
          · exact ⟨"INCLUDE 'c'", rfl⟩
          · exact ⟨"7", rfl⟩
        · rintro ⟨text, found⟩
          split at found
          · next either => exact either.elim .inl fun second => .inr (.inl second)
          · split at found
            · next third => exact .inr (.inr third)
            · cases found }
  dialect := .sqlite
  base := ⟨"."⟩

def diamondTokens : List Token :=
  [.word "INCLUDE" none, .literal .plain "a", .semicolon, .word "Include" none, .blank .space,
   .literal .plain "b", .word "include" none, .word "link" (some .double)]

theorem diamond_includer (location : Location) (either : location = ["a"] ∨ location = ["b"]) :
    Holds diamond location [.word "INCLUDE" none, .blank .space, .literal .plain "c"] := by
  have text : "INCLUDE 'c'".toList =
      ['I', 'N', 'C', 'L', 'U', 'D', 'E', ' ', '\'', 'c', '\''] := rfl
  have word : Token.next .sqlite ['I', 'N', 'C', 'L', 'U', 'D', 'E', ' ', '\'', 'c', '\''] =
      some (.ok (.word "INCLUDE" none, [' ', '\'', 'c', '\''])) := by cbv
  have space : Token.next .sqlite [' ', '\'', 'c', '\''] =
      some (.ok (.blank .space, ['\'', 'c', '\''])) := by cbv
  have name : Token.next .sqlite ['\'', 'c', '\''] = some (.ok (.literal .plain "c", [])) := by cbv
  refine ⟨"INCLUDE 'c'", if_pos either, ?_⟩
  change Token.ofText .sqlite "INCLUDE 'c'" = _
  rw [Token.ofText, text, Token.tokens_next word, Token.tokens_next space, Token.tokens_next name,
    Token.tokens_end (by cbv)]
  rfl

theorem diamond_included : Holds diamond ["c"] [.number "7" false] := by
  have number : Token.next .sqlite ['7'] = some (.ok (.number "7" false, [])) := by cbv
  refine ⟨"7", rfl, ?_⟩
  change Token.ofText .sqlite "7" = _
  rw [Token.ofText, show "7".toList = ['7'] from rfl, Token.tokens_next number,
    Token.tokens_end (by cbv)]
  rfl

theorem diamond_expands (first : Location) (either : first = ["a"] ∨ first = ["b"]) :
    Expands diamond [first] (pieces [.word "INCLUDE" none, .blank .space, .literal .plain "c"])
      [.blank .space, .number "7" false, .semicolon] := by
  have read : pieces [.word "INCLUDE" none, .blank .space, .literal .plain "c"] =
      [.directive ⟨"c"⟩] := by cbv
  have readBelow : pieces [.number "7" false] = [.token (.number "7" false)] := by cbv
  have below : Expands diamond [["c"], first] (pieces [.number "7" false]) [.number "7" false] := by
    rw [readBelow]
    exact .token .nil
  rw [read]
  refine .directive (by cbv) ?_ diamond_included below .nil
  rcases either with rfl | rfl <;> decide

theorem expand_inlines_diamond :
    let out : List Token := [.number "7" false, .semicolon, .semicolon, .number "7" false,
      .semicolon, .semicolon, .number "7" false, .semicolon, .semicolon]
    Acyclic diamond (pieces diamondTokens) ∧ AllComplete diamond (pieces diamondTokens) ∧
    Inlined diamond true (visible diamondTokens) out ∧
    (expandMeasured diamond [] "op" (pieces diamondTokens)).2 ≤ 3 := by
  intro out
  obtain ⟨-, depth, succeeds, inlined, -⟩ := expand_inlines diamond "op" diamondTokens
  have read : pieces diamondTokens = [.directive ⟨"a"⟩, .directive ⟨"b"⟩, .directive ⟨"link"⟩] := by
    cbv
  have enters (target : Path) (location : Location)
      (leads : diamond.files.resolve (diamond.base.join target) = .ok location)
      (either : location = ["a"] ∨ location = ["b"]) (ps : List Piece) (rest : List Token)
      (others : Expands diamond [] ps rest) :
      Expands diamond [] (.directive target :: ps) (.blank .space :: ([.blank .space,
        .number "7" false, .semicolon] ++ .semicolon :: rest)) :=
    .directive leads (by simp) (diamond_includer location either) (diamond_expands location either)
      others
  have expands := enters ⟨"a"⟩ ["a"] (by cbv) (.inl rfl) _ _ (enters ⟨"b"⟩ ["b"] (by cbv) (.inr rfl)
    _ _ (enters ⟨"link"⟩ ["a"] (by cbv) (.inl rfl) _ _ .nil))
  rw [← read] at expands
  have ran := ok_of_expands diamond expands "op"
  obtain ⟨acyclic, complete⟩ := succeeds.mp ⟨_, ran⟩
  exact ⟨acyclic, complete, (inlined _ ran out).mpr rfl, depth⟩

end SqlCatalog.Inclusion
