import SqlCatalog.Proofs.MarkerNames
import SqlCatalog.Proofs.MarkerTokens
import SqlCatalog.Statement.Shape
/-!
Names of markers and what a statement answers with. A marker name counts as a keyword there too: names
can be exchanged without changing the shape of any statement just if they play the same part in it
(`shape_renamed_iff`).
-/
namespace SqlCatalog

def Limit.count? : Limit → Option (Option Nat)
  | absent => none
  | literal count => some (some count)
  | expression _ => some none

-- What does not depend on how columns are called and expressions are spelled.
structure Shape where
  category : Category
  limit : Option (Option Nat)
  wildcards : List Bool
deriving DecidableEq

def Statement.alone (s : Statement) : StatementList := ⟨"", [s], by simp⟩

def Statement.shape (s : Statement) : Shape :=
  ⟨.ofStatements s.alone, s.limit.count?, s.columns.map (·.wildcard)⟩

namespace Token

variable {names : String → String → Prop}

/-! ### The part that a name plays -/

inductive Part where
  | limit
  | limitEnd
  | select
  | listEnd
  | plain
deriving DecidableEq

def Part.ofKeyword? : Option Keyword → Part
  | some .limit => limit
  | some .offset | some .for | some .fetch => limitEnd
  | some .select => select
  | some .from | some .into | some .where | some .group | some .having | some .order
  | some .union | some .except | some .intersect | some .window => listEnd
  | _ => plain

def part (name : String) : Part := .ofKeyword? (Keyword.ofWord? name)

theorem part_is_limit (name : String) :
    isKeyword .limit (.word name none) = decide (part name = .limit) := by
  rw [isKeyword, keyword?, part]
  cases Keyword.ofWord? name with
  | none => rfl
  | some keyword => cases keyword <;> rfl

theorem part_is_select (name : String) :
    isKeyword .select (.word name none) = decide (part name = .select) := by
  rw [isKeyword, keyword?, part]
  cases Keyword.ofWord? name with
  | none => rfl
  | some keyword => cases keyword <;> rfl

theorem part_ends_limit (name : String) :
    Limit.ends (.word name none) = decide (part name = .limitEnd) := by
  rw [Limit.ends, keyword?, part]
  cases Keyword.ofWord? name with
  | none => rfl
  | some keyword => cases keyword <;> rfl

theorem part_ends_list (name : String) :
    Column.ends (.word name none) = decide (part name = .listEnd ∨ part name = .limit) := by
  rw [Column.ends, keyword?, part]
  cases Keyword.ofWord? name with
  | none => rfl
  | some keyword => cases keyword <;> rfl

def Blind (names : String → String → Prop) (p : Token → Bool) : Prop :=
  ∀ a b, names a b → p (.word a none) = p (.word b none)

/-! ### Scans of two runs that differ in names -/

theorem renamed_significant {behind : Bool} {ts us : List Token} (renamed : Renamed names behind ts us) :
    Renamed names behind (ts.filter fun t => !t.isBlank) (us.filter fun t => !t.isBlank) := by
  induction renamed with
  | nil => exact .nil
  | name allowed rest ih => exact .name allowed ih
  | @same behind t ts us rest ih =>
    by_cases blank : t.isBlank = true
    · rw [Inclusion.blank_not_colon blank] at ih
      simpa [blank] using renamed_behind ih behind
    · simpa [blank] using Renamed.same t ih

theorem keyword_not_colon {k : Keyword} {t : Token} (keyword : t.isKeyword k = true) :
    (t == .colon) = false := by
  cases t <;> first | rfl | cases keyword

theorem after_first_renamed {k : Keyword} (blind : Blind names (isKeyword k)) {behind : Bool}
    {ts us : List Token} (renamed : Renamed names behind ts us) (depth : Nat) :
    Option.Rel (Renamed names false) (afterFirst? k depth ts) (afterFirst? k depth us) := by
  induction renamed generalizing depth with
  | nil => exact .none
  | @name a b ts us allowed rest ih =>
    rw [afterFirst?, afterFirst?, blind a b allowed]
    by_cases found : depth = 0 ∧ (Token.word b none).isKeyword k = true
    · rw [if_pos found, if_pos found]
      exact .some rest
    · rw [if_neg found, if_neg found]
      exact ih depth
  | @same behind t ts us rest ih =>
    rw [afterFirst?, afterFirst?]
    by_cases found : depth = 0 ∧ t.isKeyword k = true
    · rw [if_pos found, if_pos found]
      rw [keyword_not_colon found.2] at rest
      exact .some rest
    · rw [if_neg found, if_neg found]
      exact ih (deeper depth t)

theorem after_last_renamed {k : Keyword} (blind : Blind names (isKeyword k)) {behind : Bool}
    {ts us : List Token} (renamed : Renamed names behind ts us) (depth : Nat) :
    Option.Rel (Renamed names false) (afterLast? k depth ts) (afterLast? k depth us) := by
  induction renamed generalizing depth with
  | nil => exact .none
  | @name a b ts us allowed rest ih =>
    rw [afterLast?, afterLast?, blind a b allowed]
    have later := ih depth
    change Option.Rel _ (afterLast? k (deeper depth (.word a none)) ts)
      (afterLast? k (deeper depth (.word b none)) us) at later
    generalize afterLast? k (deeper depth (.word a none)) ts = x at later
    generalize afterLast? k (deeper depth (.word b none)) us = y at later
    cases later with
    | some others => exact .some others
    | none =>
      by_cases found : depth = 0 ∧ (Token.word b none).isKeyword k = true
      · simp only [if_pos found]
        exact .some rest
      · simp only [if_neg found]
        exact .none
  | @same behind t ts us rest ih =>
    rw [afterLast?, afterLast?]
    have later := ih (deeper depth t)
    generalize afterLast? k (deeper depth t) ts = x at later
    generalize afterLast? k (deeper depth t) us = y at later
    cases later with
    | some others => exact .some others
    | none =>
      by_cases found : depth = 0 ∧ t.isKeyword k = true
      · simp only [if_pos found]
        rw [keyword_not_colon found.2] at rest
        exact .some rest
      · simp only [if_neg found]
        exact .none

theorem take_while_renamed {p : Token → Bool} (blind : Blind names p) {behind : Bool}
    {ts us : List Token} (renamed : Renamed names behind ts us) :
    Renamed names behind (ts.takeWhile p) (us.takeWhile p) := by
  induction renamed with
  | nil => exact .nil
  | @name a b ts us allowed rest ih =>
    rw [List.takeWhile_cons, List.takeWhile_cons, blind a b allowed]
    by_cases holds : p (.word b none) = true
    · rw [if_pos holds, if_pos holds]
      exact .name allowed ih
    · rw [if_neg holds, if_neg holds]
      exact .nil
  | @same behind t ts us rest ih =>
    rw [List.takeWhile_cons, List.takeWhile_cons]
    by_cases holds : p t = true
    · rw [if_pos holds, if_pos holds]
      exact .same t ih
    · rw [if_neg holds, if_neg holds]
      exact .nil

-- Words are dropped only up to a colon, so no name is looked at.
theorem drop_while_renamed {p : Token → Bool} (colon : p .colon = false) {ts us : List Token}
    (renamed : Renamed names false ts us) :
    Renamed names false (ts.dropWhile p) (us.dropWhile p) := by
  generalize inside : false = behind at renamed
  induction renamed with
  | nil => exact .nil
  | name allowed rest ih => cases inside
  | @same behind t ts us rest ih =>
    subst inside
    rw [List.dropWhile_cons, List.dropWhile_cons]
    by_cases holds : p t = true
    · have inner : (t == .colon) = false := by
        rw [beq_eq_false_iff_ne]
        rintro rfl
        rw [colon] at holds
        cases holds
      rw [if_pos holds, if_pos holds]
      rw [inner] at ih
      exact ih rfl
    · rw [if_neg holds, if_neg holds]
      exact .same t rest

theorem list_tokens_word (depth : Nat) (name : String) (ts : List Token) :
    Column.listTokens depth (.word name none :: ts) =
      if depth = 0 ∧ Column.ends (.word name none) then []
      else .word name none :: Column.listTokens depth ts := by
  rw [Column.listTokens]
  simp only [reduceCtorEq, false_or]
  rfl

theorem list_tokens_renamed (blind : Blind names Column.ends) {behind : Bool} {ts us : List Token}
    (renamed : Renamed names behind ts us) (depth : Nat) :
    Renamed names behind (Column.listTokens depth ts) (Column.listTokens depth us) := by
  induction renamed generalizing depth with
  | nil => exact .nil
  | @name a b ts us allowed rest ih =>
    rw [list_tokens_word, list_tokens_word, blind a b allowed]
    by_cases ends : depth = 0 ∧ Column.ends (.word b none) = true
    · rw [if_pos ends, if_pos ends]
      exact .nil
    · rw [if_neg ends, if_neg ends]
      exact .name allowed (ih depth)
  | @same behind t ts us rest ih =>
    rw [Column.listTokens, Column.listTokens]
    by_cases ends : depth = 0 ∧ (t = .rightParen ∨ t = .semicolon ∨ Column.ends t = true)
    · rw [if_pos ends, if_pos ends]
      exact .nil
    · rw [if_neg ends, if_neg ends]
      exact .same t (ih (deeper depth t))

theorem comma_parts_renamed {behind : Bool} {ts us : List Token}
    (renamed : Renamed names behind ts us) (depth : Nat) :
    GroupsRenamed names behind (commaParts depth ts) (commaParts depth us) := by
  induction renamed generalizing depth with
  | nil => exact ⟨[], [], [], [], rfl, rfl, .nil, .nil⟩
  | @name a b ts us allowed rest ih =>
    obtain ⟨g, gs, h, hs, left, right, first, others⟩ := ih depth
    have read (word : String) (following : List Token) :
        commaParts depth (.word word none :: following) =
          attach (.word word none) (commaParts depth following) := by
      rw [commaParts, if_neg (by simp)]
      rfl
    rw [read, read, left, right]
    exact ⟨_, gs, _, hs, rfl, rfl, .name allowed first, others⟩
  | @same behind t ts us rest ih =>
    rw [commaParts, commaParts]
    by_cases cut : t = .comma ∧ depth = 0
    · obtain ⟨g, gs, h, hs, left, right, first, others⟩ := ih 0
      rw [cut.1] at first
      rw [if_pos cut, if_pos cut, left, right]
      exact ⟨[], _, [], _, rfl, rfl, .nil, .cons first others⟩
    · obtain ⟨g, gs, h, hs, left, right, first, others⟩ := ih (deeper depth t)
      rw [if_neg cut, if_neg cut, left, right]
      exact ⟨_, gs, _, hs, rfl, rfl, .same t first, others⟩

/-! ### What the scans answer -/

def Alike (t u : Token) : Prop := t = u ∨ (∃ a, t = .word a none) ∧ ∃ b, u = .word b none

theorem renamed_alike {behind : Bool} {ts us : List Token} (renamed : Renamed names behind ts us) :
    List.Forall₂ Alike ts us := by
  induction renamed with
  | nil => exact .nil
  | @name a b ts us allowed rest ih => exact .cons (.inr ⟨⟨a, rfl⟩, b, rfl⟩) ih
  | same t rest ih => exact .cons (.inl rfl) ih

theorem groups_alike {behind : Bool} {left right : List (List Token)}
    (renamed : GroupsRenamed names behind left right) :
    List.Forall₂ (List.Forall₂ Alike) left right := by
  obtain ⟨g, gs, h, hs, rfl, rfl, first, others⟩ := renamed
  exact .cons (renamed_alike first) (others.imp fun _ _ => renamed_alike)

theorem last_alike {left right : List (List Token)}
    (alike : List.Forall₂ (List.Forall₂ Alike) left right) :
    List.Forall₂ Alike (left.getLast?.getD []) (right.getLast?.getD []) := by
  induction alike with
  | nil => exact .nil
  | @cons g h gs hs first others ih =>
    cases others with
    | nil => exact first
    | cons second rest => exact ih

def soleNumber? : List Token → Option Nat
  | [.number digits false] => wordNumber? digits
  | _ => none

theorem sole_number_alike {ts us : List Token} (alike : List.Forall₂ Alike ts us) :
    soleNumber? ts = soleNumber? us := by
  match alike with
  | .nil => rfl
  | .cons first .nil =>
    rcases first with rfl | ⟨⟨a, rfl⟩, b, rfl⟩
    · rfl
    · rfl
  | .cons first (.cons second rest) =>
    simp [soleNumber?]

theorem limit_of_expression (ts : List Token) :
    (Limit.ofExpression ts).count? = some (soleNumber? ((commaParts 0 ts).getLast?.getD [])) := by
  unfold Limit.ofExpression
  split
  · next digits last =>
    rw [last, soleNumber?]
    cases wordNumber? digits <;> rfl
  · next other =>
    rw [Limit.count?]
    unfold soleNumber?
    split
    · next digits last => exact absurd last (other digits)
    · rfl

theorem limit_renamed (blind : Blind names (isKeyword .limit)) (ends : Blind names Limit.ends)
    {ts us : List Token} (renamed : Renamed names false ts us) :
    (Limit.ofTokens ts).count? = (Limit.ofTokens us).count? := by
  have found := after_last_renamed blind renamed 0
  unfold Limit.ofTokens
  generalize afterLast? .limit 0 ts = x at found
  generalize afterLast? .limit 0 us = y at found
  cases found with
  | none => rfl
  | some rest =>
    have through : Blind names fun t => !Limit.ends t && t != .rightParen := by
      intro a b allowed
      dsimp only
      rw [ends a b allowed]
      rfl
    have parts := comma_parts_renamed (take_while_renamed through rest) 0
    dsimp only
    rw [limit_of_expression, limit_of_expression,
      sole_number_alike (last_alike (groups_alike parts))]

def endsInStar : List Token → Bool
  | [.star] => true
  | .star :: .period :: _ => true
  | _ => false

theorem wildcard_item (item : List Token) :
    (Column.ofItem item).wildcard = endsInStar item.reverse := by
  unfold Column.ofItem endsInStar
  split <;> simp_all

theorem ends_in_star_alike {ts us : List Token} (alike : List.Forall₂ Alike ts us) :
    endsInStar ts = endsInStar us := by
  match alike with
  | .nil => rfl
  | .cons first .nil =>
    rcases first with rfl | ⟨⟨a, rfl⟩, b, rfl⟩
    · rfl
    · rfl
  | .cons (a := t) first (.cons (a := u) second rest) =>
    rcases first with rfl | ⟨⟨a, rfl⟩, b, rfl⟩
    · rcases second with rfl | ⟨⟨c, rfl⟩, d, rfl⟩
      · cases t with
        | star => cases u <;> rfl
        | _ => rfl
      · cases t <;> rfl
    · rfl

def wildcards (items : List (List Token)) : List Bool :=
  (items.filter fun item => !item.isEmpty).map fun item => endsInStar item.reverse

theorem wildcards_related {related : List Token → List Token → Prop}
    (empty : ∀ {g h}, related g h → g.isEmpty = h.isEmpty)
    (star : ∀ {g h}, related g h → endsInStar g.reverse = endsInStar h.reverse)
    {left right : List (List Token)} (alike : List.Forall₂ related left right) :
    wildcards left = wildcards right := by
  induction alike with
  | nil => rfl
  | @cons g h gs hs first others ih =>
    simp only [wildcards, List.filter_cons, empty first] at ih ⊢
    by_cases nothing : h.isEmpty = true
    · simp only [nothing, Bool.not_true, Bool.false_eq_true, if_false]
      exact ih
    · simp only [nothing, Bool.not_false, if_true, List.map_cons, star first, ih]

theorem wildcards_alike {left right : List (List Token)}
    (alike : List.Forall₂ (List.Forall₂ Alike) left right) : wildcards left = wildcards right := by
  refine wildcards_related (fun first => ?_) (fun first => ?_) alike
  · cases first <;> rfl
  · exact ends_in_star_alike (List.rel_reverse first)

theorem column_wildcards (ts : List Token) :
    (Column.listOfTokens ts).map (·.wildcard) =
      match afterFirst? .select 0 ts with
      | none => []
      | some rest => wildcards (commaParts 0 (Column.listTokens 0
          (rest.dropWhile fun t => t.isKeyword .distinct || t.isKeyword .all))) := by
  unfold Column.listOfTokens
  cases afterFirst? .select 0 ts with
  | none => rfl
  | some rest =>
    simp only [wildcards, List.map_map, Function.comp_def, wildcard_item]

theorem columns_renamed (blind : Blind names (isKeyword .select)) (ends : Blind names Column.ends)
    {ts us : List Token} (renamed : Renamed names false ts us) :
    (Column.listOfTokens ts).map (·.wildcard) = (Column.listOfTokens us).map (·.wildcard) := by
  have found := after_first_renamed blind renamed 0
  rw [column_wildcards, column_wildcards]
  generalize afterFirst? .select 0 ts = x at found
  generalize afterFirst? .select 0 us = y at found
  cases found with
  | none => rfl
  | some rest =>
    have items := drop_while_renamed (p := fun t => t.isKeyword .distinct || t.isKeyword .all)
      rfl rest
    exact wildcards_alike (groups_alike (comma_parts_renamed (list_tokens_renamed ends items 0) 0))

end Token

namespace Statement

open Token

variable {names : String → String → Prop}

theorem insert_renamed {s t : Statement} (renamed : Renamed names false s.significant t.significant) :
    s.isInsert = t.isInsert := by
  unfold isInsert
  generalize s.significant = ts at renamed
  generalize t.significant = us at renamed
  cases renamed with
  | nil => rfl
  | same u rest => rfl

theorem literal_limit (s : Statement) (count : Nat) :
    s.limit = .literal count ↔ s.limit.count? = some (some count) := by
  cases s.limit <;> simp [Limit.count?]

theorem category_alone (s : Statement) :
    Category.ofStatements s.alone =
      if s.isInsert then .singleInsert
      else if s.limit.count? = some (some 1) then
        if s.columns.map (·.wildcard) = [false] then .singleValue else .singleRow
      else .table := by
  have first : s.alone.first = s := rfl
  have length : s.alone.length = 1 := rfl
  unfold Category.ofStatements
  rw [first, length]
  simp only [if_true]
  by_cases insert : s.isInsert = true
  · rw [if_pos insert, if_pos insert]
  · rw [if_neg insert, if_neg insert, Category.ofQuery]
    by_cases one : s.limit = .literal 1
    · rw [if_pos one, if_pos ((literal_limit s 1).mp one)]
      match s.columns with
      | [] => rfl
      | [column] => cases star : column.wildcard <;> simp [star]
      | first :: second :: rest => simp
    · rw [if_neg one, if_neg (mt (literal_limit s 1).mpr one)]

theorem shape_renamed (same : ∀ a b, names a b → part a = part b) {s t : Statement}
    (renamed : Renamed names false s.tokens t.tokens) : s.shape = t.shape := by
  have significant : Renamed names false s.significant t.significant := renamed_significant renamed
  have limits : s.limit.count? = t.limit.count? := by
    refine limit_renamed (fun a b allowed => ?_) (fun a b allowed => ?_) significant
    · rw [part_is_limit, part_is_limit, same a b allowed]
    · rw [part_ends_limit, part_ends_limit, same a b allowed]
  have columns : s.columns.map (·.wildcard) = t.columns.map (·.wildcard) := by
    refine columns_renamed (fun a b allowed => ?_) (fun a b allowed => ?_) significant
    · rw [part_is_select, part_is_select, same a b allowed]
    · rw [part_ends_list, part_ends_list, same a b allowed]
  simp only [shape, category_alone, insert_renamed significant, limits, columns]

/-! ### Names that can be told apart -/

def limitProbe (name : String) : Statement where
  tokens := [.colon, .word name none]
  tokens_squeezed := rfl
  tokens_ne_nil := by simp

def offsetProbe (name : String) : Statement where
  tokens := [.word "LIMIT" none, .colon, .word name none, .comma, .number "1" false]
  tokens_squeezed := rfl
  tokens_ne_nil := by simp

def selectProbe (name : String) : Statement where
  tokens := [.colon, .word name none, .blank .space, .number "1" false]
  tokens_squeezed := rfl
  tokens_ne_nil := by simp

def itemProbe (name : String) : Statement where
  tokens := [.word "SELECT" none, .colon, .word name none, .comma, .star]
  tokens_squeezed := rfl
  tokens_ne_nil := by simp

theorem limit_probe (name : String) :
    (limitProbe name).limit.count? = if part name = .limit then some none else none := by
  have keyword := part_is_limit name
  have scanned : afterLast? .limit 0 [.colon, .word name none] =
      if part name = .limit then some [] else none := by
    simp only [afterLast?, keyword, decide_eq_true_eq]
    by_cases limit : part name = .limit <;> simp [limit, deeper, isKeyword, keyword?]
  change (Limit.ofTokens [.colon, .word name none]).count? = _
  rw [Limit.ofTokens, scanned]
  by_cases limit : part name = .limit
  · rw [if_pos limit, if_pos limit]
    rfl
  · rw [if_neg limit, if_neg limit]
    rfl

theorem offset_probe (name : String) :
    (offsetProbe name).limit.count? =
      some (if part name = .limitEnd then none else some 1) := by
  have keyword := part_is_limit name
  have ends := part_ends_limit name
  have leads : isKeyword .limit (.word "LIMIT" none) = true := by decide
  have scanned : afterLast? .limit 0
      [.word "LIMIT" none, .colon, .word name none, .comma, .number "1" false] =
      if part name = .limit then some [.comma, .number "1" false]
      else some [.colon, .word name none, .comma, .number "1" false] := by
    simp only [afterLast?, keyword, leads, decide_eq_true_eq]
    by_cases limit : part name = .limit <;> simp [limit, deeper, isKeyword, keyword?]
  change (Limit.ofTokens
    [.word "LIMIT" none, .colon, .word name none, .comma, .number "1" false]).count? = _
  rw [Limit.ofTokens, scanned]
  by_cases limit : part name = .limit
  · rw [if_pos limit, limit]
    decide
  · rw [if_neg limit]
    have colon : (!Limit.ends .colon && Token.colon != .rightParen) = true := rfl
    by_cases cut : part name = .limitEnd
    · have stops : (!Limit.ends (.word name none) && Token.word name none != .rightParen) = false := by
        simp [ends, cut]
      simp only [List.takeWhile_cons, colon, stops, if_true, Bool.false_eq_true, if_false]
      rw [if_pos cut]
      rfl
    · have goesOn : (!Limit.ends (.word name none) && Token.word name none != .rightParen) = true := by
        simp [ends, cut]
      simp only [List.takeWhile_cons, colon, goesOn, if_true]
      rw [if_neg cut, limit_of_expression]
      rfl

theorem select_probe (name : String) :
    (selectProbe name).columns.map (·.wildcard) = if part name = .select then [false] else [] := by
  have keyword := part_is_select name
  have scanned : afterFirst? .select 0 [.colon, .word name none, .number "1" false] =
      if part name = .select then some [.number "1" false] else none := by
    simp only [afterFirst?, keyword, decide_eq_true_eq]
    by_cases select : part name = .select <;> simp [select, deeper, isKeyword, keyword?]
  change (Column.listOfTokens [.colon, .word name none, .number "1" false]).map _ = _
  rw [Column.listOfTokens, scanned]
  by_cases select : part name = .select
  · rw [if_pos select, if_pos select]
    rfl
  · rw [if_neg select, if_neg select]
    rfl

theorem item_probe (name : String) :
    (itemProbe name).columns.map (·.wildcard) =
      if part name = .listEnd ∨ part name = .limit then [false] else [false, true] := by
  have ends := part_ends_list name
  have leads : isKeyword .select (.word "SELECT" none) = true := by decide
  have scanned : afterFirst? .select 0
      [.word "SELECT" none, .colon, .word name none, .comma, .star] =
      some [.colon, .word name none, .comma, .star] := by
    rw [afterFirst?, if_pos ⟨rfl, leads⟩]
  have items : Column.listTokens 0 [.colon, .word name none, .comma, .star] =
      if part name = .listEnd ∨ part name = .limit then [.colon]
      else [.colon, .word name none, .comma, .star] := by
    have colon (ts : List Token) :
        Column.listTokens 0 (.colon :: ts) = .colon :: Column.listTokens 0 ts := rfl
    rw [colon, list_tokens_word, ends]
    by_cases cut : part name = .listEnd ∨ part name = .limit
    · simp [cut]
    · simp only [cut, decide_false, Bool.false_eq_true, and_false, if_false]
      rfl
  change (Column.listOfTokens
    [.word "SELECT" none, .colon, .word name none, .comma, .star]).map _ = _
  rw [Column.listOfTokens, scanned]
  have first : [.colon, .word name none, .comma, .star].dropWhile
      (fun t => isKeyword .distinct t || isKeyword .all t) =
      [.colon, .word name none, .comma, .star] := rfl
  simp only [first, items]
  by_cases cut : part name = .listEnd ∨ part name = .limit
  · rw [if_pos cut, if_pos cut]
    rfl
  · rw [if_neg cut, if_neg cut]
    rfl

theorem same_part {a b : String} (allowed : names a b)
    (kept : ∀ s t : Statement, Renamed names false s.tokens t.tokens → s.shape = t.shape) :
    part a = part b := by
  have marker (rest : List Token) :
      Renamed names false (.colon :: .word a none :: rest) (.colon :: .word b none :: rest) :=
    .same .colon (.name allowed (renamed_refl false rest))
  have limit := congrArg Shape.limit (kept (limitProbe a) (limitProbe b) (marker []))
  have offset := congrArg Shape.limit (kept (offsetProbe a) (offsetProbe b) (.same _ (marker _)))
  have select := congrArg Shape.wildcards (kept (selectProbe a) (selectProbe b) (marker _))
  have item := congrArg Shape.wildcards (kept (itemProbe a) (itemProbe b) (.same _ (marker _)))
  simp only [shape, limit_probe, offset_probe, select_probe, item_probe] at limit offset select item
  cases left : part a <;> cases right : part b <;> simp_all

-- Exchanging marker names changes the shape of no statement just if each name plays the part of the
-- one in its place: LIMIT, one of the words behind its count, SELECT, one of the words behind a select
-- list, or none.
theorem shape_renamed_iff (names : String → String → Prop) :
    (∀ s t : Statement, Renamed names false s.tokens t.tokens → s.shape = t.shape) ↔
      ∀ a b, names a b → part a = part b :=
  ⟨fun kept _ _ allowed => same_part allowed kept, fun same _ _ renamed => shape_renamed same renamed⟩

def offsetTokens (name : String) : List Token :=
  [.word "SELECT" none, .blank .space, .word "a" none, .blank .space, .word "FROM" none,
    .blank .space, .word "t" none, .blank .space, .word "LIMIT" none, .blank .space, .colon,
    .word name none, .comma, .blank .space, .number "1" false]

-- The offset of a LIMIT may not be called `offset`: its count is then not seen.
theorem offset_name_hides_count :
    ∃ skip offset : Statement,
      SqlSource.statements ⟨"SELECT a FROM t LIMIT :skip, 1", "op", none⟩ .empty .sqlite =
        .ok ⟨"op", [skip], by simp⟩ ∧
      SqlSource.statements ⟨"SELECT a FROM t LIMIT :offset, 1", "op", none⟩ .empty .sqlite =
        .ok ⟨"op", [offset], by simp⟩ ∧
      Renamed (fun a b => a = "skip" ∧ b = "offset") false skip.tokens offset.tokens ∧
      skip.shape = ⟨.singleValue, some (some 1), [false]⟩ ∧
      offset.shape = ⟨.table, some none, [false]⟩ := by
  have reads : Token.ofText .sqlite "SELECT a FROM t LIMIT :skip, 1" = .ok (offsetTokens "skip") ∧
      Token.ofText .sqlite "SELECT a FROM t LIMIT :offset, 1" = .ok (offsetTokens "offset") := by
    decide +kernel
  let named (name : String) (squeezes : squeezed (offsetTokens name) = offsetTokens name) :
    Statement := ⟨offsetTokens name, squeezes, by simp [offsetTokens]⟩
  let skip := named "skip" rfl
  let offset := named "offset" rfl
  refine ⟨skip, offset, ?_, ?_, ?_, by decide +kernel, by decide +kernel⟩
  · exact SqlSource.statements_single .empty skip reads.1 (by decide +kernel) (by decide +kernel)
  · exact SqlSource.statements_single .empty offset reads.2 (by decide +kernel) (by decide +kernel)
  · have marker : Renamed (fun a b => a = "skip" ∧ b = "offset") true
        (.word "skip" none :: [.comma, .blank .space, .number "1" false])
        (.word "offset" none :: [.comma, .blank .space, .number "1" false]) :=
      .name ⟨rfl, rfl⟩ (renamed_refl false _)
    exact .same _ (.same _ (.same _ (.same _ (.same _ (.same _ (.same _ (.same _ (.same _ (.same _
      (.same .colon marker))))))))))

end Statement
end SqlCatalog
