import SqlCatalog.Proofs.MarkerRoles
/-!
Parentheses in the tokens of a statement. The scans that tell what a statement answers with pass over
whatever stands between parentheses, so statements that read the same outside have the same shape
(`shape_outside`).
-/
namespace SqlCatalog

namespace Token

def Plain (t : Token) : Prop := t ≠ .leftParen ∧ t ≠ .rightParen

instance (t : Token) : Decidable (Plain t) := inferInstanceAs (Decidable (_ ∧ _))

inductive Balanced : List Token → Prop where
  | nil : Balanced []
  | token {t : Token} {ts : List Token} (plain : Plain t) (rest : Balanced ts) : Balanced (t :: ts)
  | group {inner ts : List Token} (inside : Balanced inner) (rest : Balanced ts) :
      Balanced (.leftParen :: (inner ++ .rightParen :: ts))

-- What is left when all tokens inside parentheses are deleted, of tokens behind `depth` open ones. The
-- outermost parentheses stay.
def outer (depth : Nat) : List Token → List Token
  | [] => []
  | t :: ts =>
    if depth = 0 ∨ deeper depth t = 0 then t :: outer (deeper depth t) ts
    else outer (deeper depth t) ts

def closes (depth : Nat) : List Token → Bool
  | [] => depth == 0
  | .leftParen :: ts => closes (depth + 1) ts
  | .rightParen :: ts => depth != 0 && closes (depth - 1) ts
  | _ :: ts => closes depth ts

theorem deeper_plain {t : Token} (plain : Plain t) (depth : Nat) : deeper depth t = depth := by
  obtain ⟨left, right⟩ := plain
  cases t <;> first | rfl | contradiction

theorem closes_plain {t : Token} (plain : Plain t) (depth : Nat) (ts : List Token) :
    closes depth (t :: ts) = closes depth ts := by
  obtain ⟨left, right⟩ := plain
  cases t <;> first | rfl | contradiction

-- A scan that counts open parentheses takes the tokens of a balanced run one by one and is then as deep
-- as it was. At less than `base` open parentheses it may do something else with them.
theorem scan_inside {β : Type} {scan : Nat → List Token → β} (take : Token → β → β) (base : Nat)
    (takes : ∀ depth t ts, base ≤ depth → (t = .rightParen → base < depth) →
      scan depth (t :: ts) = take t (scan (deeper depth t) ts))
    {inner : List Token} (inside : Balanced inner) {depth : Nat} (deep : base ≤ depth)
    (rest : List Token) : scan depth (inner ++ rest) = inner.foldr take (scan depth rest) := by
  induction inside generalizing depth rest with
  | nil => rfl
  | @token t ts plain _ ih =>
    have here := takes depth t (ts ++ rest) deep fun right => absurd right plain.2
    rw [List.cons_append, here, deeper_plain plain, ih deep, List.foldr_cons]
  | @group inner ts _ _ ihInner ihRest =>
    have opened := takes depth .leftParen (inner ++ .rightParen :: (ts ++ rest)) deep (by simp)
    have closed := takes (depth + 1) .rightParen (ts ++ rest) (by omega) fun _ => by omega
    simp only [deeper, Nat.add_sub_cancel] at opened closed
    rw [List.cons_append, List.append_assoc, List.cons_append, opened, ihInner (by omega), closed,
      ihRest deep, List.foldr_cons, List.foldr_append, List.foldr_cons]

theorem scan_skips {β : Type} {scan : Nat → List Token → β} (base : Nat)
    (skips : ∀ depth t ts, base ≤ depth → (t = .rightParen → base < depth) →
      scan depth (t :: ts) = scan (deeper depth t) ts)
    {inner : List Token} (inside : Balanced inner) {depth : Nat} (deep : base ≤ depth)
    (rest : List Token) : scan depth (inner ++ rest) = scan depth rest := by
  rw [scan_inside (fun _ found => found) base skips inside deep, List.foldr_fixed]

theorem closes_step (depth : Nat) (t : Token) (ts : List Token) (opened : t = .rightParen → 0 < depth) :
    closes depth (t :: ts) = closes (deeper depth t) ts := by
  by_cases right : t = .rightParen
  · subst right
    have some : (depth != 0) = true := by simpa using (opened rfl).ne'
    rw [closes, some, Bool.true_and]
    rfl
  · by_cases left : t = .leftParen
    · rw [left]
      rfl
    · rw [closes_plain ⟨left, right⟩, deeper_plain ⟨left, right⟩]

-- By the length of the tokens: behind a group that is closed the rest is read again.
theorem balanced_of_closes (depth : Nat) (ts : List Token) (closed : closes depth ts = true) :
    (depth = 0 ∧ Balanced ts) ∨
      ∃ before inner rest, depth = before + 1 ∧ ts = inner ++ .rightParen :: rest ∧ Balanced inner ∧
        closes before rest = true := by
  match ts with
  | [] =>
    rw [closes, beq_iff_eq] at closed
    exact .inl ⟨closed, .nil⟩
  | t :: ts =>
    by_cases left : t = .leftParen
    · subst left
      rw [closes] at closed
      rcases balanced_of_closes (depth + 1) ts closed with
        ⟨none, -⟩ | ⟨before, inner, rest, same, rfl, inside, closed⟩
      · cases none
      · obtain rfl : depth = before := by omega
        have shorter : rest.length < (inner ++ .rightParen :: rest).length + 1 := by
          rw [List.length_append, List.length_cons]
          omega
        rcases balanced_of_closes depth rest closed with
          ⟨zero, balanced⟩ | ⟨before, others, last, same, rfl, balanced, closed⟩
        · exact .inl ⟨zero, .group inside balanced⟩
        · refine .inr ⟨before, _, last, same, ?_, .group inside balanced, closed⟩
          rw [List.cons_append, List.append_assoc]
          rfl
    · by_cases right : t = .rightParen
      · subst right
        rw [closes, Bool.and_eq_true, bne_iff_ne] at closed
        exact .inr ⟨depth - 1, [], ts, by omega, rfl, .nil, closed.2⟩
      · rw [closes_plain ⟨left, right⟩] at closed
        rcases balanced_of_closes depth ts closed with
          ⟨zero, balanced⟩ | ⟨before, inner, rest, same, rfl, inside, closed⟩
        · exact .inl ⟨zero, .token ⟨left, right⟩ balanced⟩
        · exact .inr ⟨before, t :: inner, rest, same, rfl, .token ⟨left, right⟩ inside, closed⟩
termination_by ts.length

theorem balanced_iff (ts : List Token) : Balanced ts ↔ closes 0 ts = true := by
  constructor
  · intro balanced
    have counted := scan_skips 0 (fun depth t ts _ opened => closes_step depth t ts opened)
      balanced (Nat.le_refl 0) []
    rwa [List.append_nil] at counted
  · intro closed
    rcases balanced_of_closes 0 ts closed with ⟨-, balanced⟩ | ⟨before, inner, rest, none, -⟩
    · exact balanced
    · cases none

instance (ts : List Token) : Decidable (Balanced ts) := decidable_of_iff _ (balanced_iff ts).symm

/-! ### What is left outside -/

theorem outer_step (depth : Nat) (t : Token) (ts : List Token) (deep : 1 ≤ depth)
    (opened : t = .rightParen → 1 < depth) : outer depth (t :: ts) = outer (deeper depth t) ts := by
  have still : deeper depth t ≠ 0 := by
    by_cases right : t = .rightParen
    · have more := opened right
      rw [right, deeper]
      omega
    · cases t <;> simp [deeper] at right ⊢ <;> omega
  rw [outer, if_neg fun either => either.elim (by omega) still]

theorem outer_token {t : Token} (plain : Plain t) (ts : List Token) :
    outer 0 (t :: ts) = t :: outer 0 ts := by
  rw [outer, if_pos (.inl rfl), deeper_plain plain]

theorem outer_group {inner : List Token} (inside : Balanced inner) (ts : List Token) :
    outer 0 (.leftParen :: (inner ++ .rightParen :: ts)) =
      .leftParen :: .rightParen :: outer 0 ts := by
  rw [outer, if_pos (.inl rfl)]
  change _ :: outer 1 _ = _
  rw [scan_skips 1 outer_step inside (Nat.le_refl 1), outer, if_pos (.inr rfl)]
  rfl

inductive SameOutside : List Token → List Token → Prop where
  | nil : SameOutside [] []
  | token {t : Token} {ts us : List Token} (plain : Plain t) (rest : SameOutside ts us) :
      SameOutside (t :: ts) (t :: us)
  | group {a b ts us : List Token} (left : Balanced a) (right : Balanced b)
      (rest : SameOutside ts us) :
      SameOutside (.leftParen :: (a ++ .rightParen :: ts)) (.leftParen :: (b ++ .rightParen :: us))

theorem same_of_outer {ts us : List Token} (left : Balanced ts) (right : Balanced us)
    (same : outer 0 ts = outer 0 us) : SameOutside ts us := by
  induction left generalizing us with
  | nil =>
    cases right with
    | nil => exact .nil
    | token plain rest =>
      rw [outer_token plain] at same
      cases same
    | group inside rest =>
      rw [outer_group inside] at same
      cases same
  | @token t ts plain rest ih =>
    rw [outer_token plain] at same
    cases right with
    | nil => cases same
    | token other following =>
      rw [outer_token other, List.cons.injEq] at same
      obtain ⟨rfl, same⟩ := same
      exact .token plain (ih following same)
    | group inside following =>
      rw [outer_group inside, List.cons.injEq] at same
      exact absurd same.1 plain.1
  | group inside rest _ ih =>
    rw [outer_group inside] at same
    cases right with
    | nil => cases same
    | token other following =>
      rw [outer_token other, List.cons.injEq] at same
      exact absurd same.1.symm other.1
    | group inner following =>
      rw [outer_group inner, List.cons.injEq, List.cons.injEq] at same
      exact .group inside inner (ih following same.2.2)

theorem balanced_significant {ts : List Token} (balanced : Balanced ts) :
    Balanced (ts.filter fun t => !t.isBlank) := by
  induction balanced with
  | nil => exact .nil
  | @token t ts plain rest ih =>
    by_cases blank : t.isBlank = true
    · simpa [blank] using ih
    · simpa [blank] using Balanced.token plain ih
  | group inside rest ihInner ihRest => simpa [isBlank] using Balanced.group ihInner ihRest

theorem same_significant {ts us : List Token} (same : SameOutside ts us) :
    SameOutside (ts.filter fun t => !t.isBlank) (us.filter fun t => !t.isBlank) := by
  induction same with
  | nil => exact .nil
  | @token t ts us plain rest ih =>
    by_cases blank : t.isBlank = true
    · simpa [blank] using ih
    · simpa [blank] using SameOutside.token plain ih
  | group left right rest ih =>
    simpa [isBlank] using
      SameOutside.group (balanced_significant left) (balanced_significant right) ih

/-! ### Scans of two runs that read the same outside -/

theorem keyword_plain {k : Keyword} {t : Token} (keyword : t.isKeyword k = true) : Plain t := by
  constructor <;> rintro rfl <;> cases keyword

theorem after_first_group {inner : List Token} (inside : Balanced inner) (k : Keyword)
    (ts : List Token) :
    afterFirst? k 0 (.leftParen :: (inner ++ .rightParen :: ts)) = afterFirst? k 0 ts := by
  have skips (depth : Nat) (t : Token) (ts : List Token) (deep : 1 ≤ depth) :
      afterFirst? k depth (t :: ts) = afterFirst? k (deeper depth t) ts := by
    rw [afterFirst?, if_neg fun both => by omega]
  rw [afterFirst?, if_neg fun both => (keyword_plain both.2).1 rfl]
  change afterFirst? k 1 _ = _
  rw [scan_skips 1 (fun depth t ts deep _ => skips depth t ts deep) inside (Nat.le_refl 1),
    skips 1 _ _ (Nat.le_refl 1)]
  rfl

theorem after_first_same {ts us : List Token} (same : SameOutside ts us) (k : Keyword) :
    Option.Rel SameOutside (afterFirst? k 0 ts) (afterFirst? k 0 us) := by
  induction same with
  | nil => exact .none
  | @token t ts us plain rest ih =>
    rw [afterFirst?, afterFirst?, deeper_plain plain]
    by_cases found : t.isKeyword k = true
    · rw [if_pos ⟨rfl, found⟩, if_pos ⟨rfl, found⟩]
      exact .some rest
    · rw [if_neg fun both => found both.2, if_neg fun both => found both.2]
      exact ih
  | group left right rest ih =>
    rw [after_first_group left, after_first_group right]
    exact ih

theorem after_last_plain {t : Token} (plain : Plain t) (k : Keyword) (ts : List Token) :
    afterLast? k 0 (t :: ts) = (afterLast? k 0 ts).or (if t.isKeyword k then some ts else none) := by
  rw [afterLast?, deeper_plain plain]
  cases afterLast? k 0 ts with
  | none => simp
  | some rest => rfl

theorem after_last_group {inner : List Token} (inside : Balanced inner) (k : Keyword)
    (ts : List Token) :
    afterLast? k 0 (.leftParen :: (inner ++ .rightParen :: ts)) = afterLast? k 0 ts := by
  have skips (depth : Nat) (t : Token) (ts : List Token) (deep : 1 ≤ depth) :
      afterLast? k depth (t :: ts) = afterLast? k (deeper depth t) ts := by
    rw [afterLast?, if_neg fun both => by omega]
    cases afterLast? k (deeper depth t) ts <;> rfl
  have opening : Token.isKeyword k .leftParen = false := rfl
  have opened (ts : List Token) : afterLast? k 0 (.leftParen :: ts) = afterLast? k 1 ts := by
    have deep : deeper 0 .leftParen = 1 := rfl
    rw [afterLast?, if_neg fun both => by simp [opening] at both, deep]
    cases afterLast? k 1 ts <;> rfl
  rw [opened, scan_skips 1 (fun depth t ts deep _ => skips depth t ts deep) inside (Nat.le_refl 1),
    skips 1 _ _ (Nat.le_refl 1)]
  rfl

theorem after_last_same {ts us : List Token} (same : SameOutside ts us) (k : Keyword) :
    Option.Rel SameOutside (afterLast? k 0 ts) (afterLast? k 0 us) := by
  induction same with
  | nil => exact .none
  | @token t ts us plain rest ih =>
    rw [after_last_plain plain, after_last_plain plain]
    generalize afterLast? k 0 ts = x at ih
    generalize afterLast? k 0 us = y at ih
    cases ih with
    | some others => exact .some others
    | none =>
      by_cases found : t.isKeyword k = true
      · rw [if_pos found, if_pos found]
        exact .some rest
      · rw [if_neg found, if_neg found]
        exact .none
  | group left right rest ih =>
    rw [after_last_group left, after_last_group right]
    exact ih

theorem drop_while_same {ts us : List Token} (same : SameOutside ts us) {p : Token → Bool}
    (words : ∀ t, p t = true → Plain t) : SameOutside (ts.dropWhile p) (us.dropWhile p) := by
  have stops : p .leftParen = false := Bool.eq_false_iff.mpr fun passes => (words _ passes).1 rfl
  induction same with
  | nil => exact .nil
  | @token t ts us plain rest ih =>
    rw [List.dropWhile_cons, List.dropWhile_cons]
    by_cases passes : p t = true
    · rw [if_pos passes, if_pos passes]
      exact ih
    · rw [if_neg passes, if_neg passes]
      exact .token plain rest
  | group left right rest ih =>
    rw [List.dropWhile_cons_of_neg (by simp [stops]), List.dropWhile_cons_of_neg (by simp [stops])]
    exact .group left right rest

theorem list_tokens_group {inner : List Token} (inside : Balanced inner) (ts : List Token) :
    Column.listTokens 0 (.leftParen :: (inner ++ .rightParen :: ts)) =
      .leftParen :: (inner ++ .rightParen :: Column.listTokens 0 ts) := by
  have keeps (depth : Nat) (t : Token) (ts : List Token) (deep : 1 ≤ depth) :
      Column.listTokens depth (t :: ts) = t :: Column.listTokens (deeper depth t) ts := by
    rw [Column.listTokens, if_neg fun both => by omega]
  rw [Column.listTokens, if_neg (by simp [Column.ends, keyword?])]
  change _ :: Column.listTokens 1 _ = _
  rw [scan_inside List.cons 1 (fun depth t ts deep _ => keeps depth t ts deep) inside
    (Nat.le_refl 1), keeps 1 _ _ (Nat.le_refl 1), List.foldr_cons_eq_append, List.map_id']
  rfl

theorem list_tokens_same {ts us : List Token} (same : SameOutside ts us) :
    SameOutside (Column.listTokens 0 ts) (Column.listTokens 0 us) := by
  induction same with
  | nil => exact .nil
  | @token t ts us plain rest ih =>
    rw [Column.listTokens, Column.listTokens, deeper_plain plain]
    by_cases ends : 0 = 0 ∧ (t = .rightParen ∨ t = .semicolon ∨ Column.ends t = true)
    · rw [if_pos ends, if_pos ends]
      exact .nil
    · rw [if_neg ends, if_neg ends]
      exact .token plain ih
  | group left right rest ih =>
    rw [list_tokens_group left, list_tokens_group right]
    exact .group left right ih

/-! ### Parts between commas -/

theorem foldr_attach (inner : List Token) (g : List Token) (gs : List (List Token)) :
    inner.foldr attach (g :: gs) = (inner ++ g) :: gs := by
  induction inner with
  | nil => rfl
  | cons t ts ih => rw [List.foldr_cons, ih, attach, List.cons_append]

theorem comma_parts_cons (depth : Nat) (ts : List Token) :
    ∃ g gs, commaParts depth ts = g :: gs := by
  cases ts with
  | nil => exact ⟨[], [], rfl⟩
  | cons t ts =>
    rw [commaParts]
    by_cases cut : t = .comma ∧ depth = 0
    · rw [if_pos cut]
      exact ⟨[], _, rfl⟩
    · rw [if_neg cut]
      cases commaParts (deeper depth t) ts with
      | nil => exact ⟨[t], [], rfl⟩
      | cons g gs => exact ⟨t :: g, gs, rfl⟩

theorem comma_parts_deep (depth : Nat) (t : Token) (ts : List Token) (deep : 1 ≤ depth) :
    commaParts depth (t :: ts) = attach t (commaParts (deeper depth t) ts) := by
  rw [commaParts, if_neg fun both => by omega]

theorem comma_parts_group {inner : List Token} (inside : Balanced inner) {ts g : List Token}
    {gs : List (List Token)} (split : commaParts 0 ts = g :: gs) :
    commaParts 0 (.leftParen :: (inner ++ .rightParen :: ts)) =
      (.leftParen :: (inner ++ .rightParen :: g)) :: gs := by
  rw [commaParts, if_neg (by simp)]
  change attach _ (commaParts 1 _) = _
  rw [scan_inside attach 1 (fun depth t ts deep _ => comma_parts_deep depth t ts deep) inside
    (Nat.le_refl 1), comma_parts_deep 1 _ _ (Nat.le_refl 1)]
  change attach _ (inner.foldr attach (attach _ (commaParts 0 ts))) = _
  rw [split, attach, foldr_attach]
  rfl

theorem comma_parts_unclosed (depth : Nat) {ts : List Token} (unclosed : .rightParen ∉ ts) :
    commaParts (depth + 1) ts = [ts] := by
  induction ts generalizing depth with
  | nil => rfl
  | cons t ts ih =>
    rw [List.mem_cons, not_or] at unclosed
    have deep : ∃ more, deeper (depth + 1) t = more + 1 := by
      by_cases left : t = .leftParen
      · exact ⟨depth + 1, by rw [left]; rfl⟩
      · exact ⟨depth, deeper_plain ⟨left, Ne.symm unclosed.1⟩ _⟩
    obtain ⟨more, deep⟩ := deep
    rw [comma_parts_deep _ _ _ (by omega), deep, ih more unclosed.2]
    rfl

def lastPart (ts : List Token) : List Token := (commaParts 0 ts).getLast?.getD []

theorem comma_parts_open {before behind : List Token} (plain : ∀ t ∈ before, Plain t)
    (unclosed : .rightParen ∉ behind) :
    ∃ front last, commaParts 0 before = front ++ [last] ∧
      commaParts 0 (before ++ .leftParen :: behind) =
        front ++ [last ++ .leftParen :: behind] := by
  induction before with
  | nil =>
    refine ⟨[], [], rfl, ?_⟩
    rw [List.nil_append, commaParts, if_neg (by simp)]
    change attach _ (commaParts (0 + 1) behind) = _
    rw [comma_parts_unclosed 0 unclosed]
    rfl
  | cons t ts ih =>
    obtain ⟨front, last, whole, opened⟩ := ih fun u mem => plain u (.tail t mem)
    rw [List.cons_append, commaParts, commaParts, deeper_plain (plain t (.head ts)), whole, opened]
    by_cases cut : t = .comma ∧ 0 = 0
    · rw [if_pos cut, if_pos cut]
      exact ⟨[] :: front, last, rfl, rfl⟩
    · rw [if_neg cut, if_neg cut]
      cases front with
      | nil => exact ⟨[], t :: last, rfl, rfl⟩
      | cons first others => exact ⟨(t :: first) :: others, last, rfl, rfl⟩

theorem last_part_open {before behind : List Token} (plain : ∀ t ∈ before, Plain t)
    (unclosed : .rightParen ∉ behind) :
    lastPart (before ++ .leftParen :: behind) = lastPart before ++ .leftParen :: behind := by
  obtain ⟨front, last, whole, opened⟩ := comma_parts_open plain unclosed
  rw [lastPart, lastPart, whole, opened, List.getLast?_concat, List.getLast?_concat]
  rfl

theorem comma_parts_same {ts us : List Token} (same : SameOutside ts us) :
    List.Forall₂ SameOutside (commaParts 0 ts) (commaParts 0 us) := by
  induction same with
  | nil => exact .cons .nil .nil
  | @token t ts us plain rest ih =>
    rw [commaParts, commaParts, deeper_plain plain]
    by_cases cut : t = .comma ∧ 0 = 0
    · rw [if_pos cut, if_pos cut]
      exact .cons .nil ih
    · rw [if_neg cut, if_neg cut]
      generalize commaParts 0 ts = left at ih
      generalize commaParts 0 us = right at ih
      cases ih with
      | nil => exact .cons (.token plain .nil) .nil
      | cons first others => exact .cons (.token plain first) others
  | @group a b ts us left right rest ih =>
    obtain ⟨g, gs, split⟩ := comma_parts_cons 0 ts
    obtain ⟨h, hs, other⟩ := comma_parts_cons 0 us
    rw [split, other] at ih
    rw [comma_parts_group left split, comma_parts_group right other]
    cases ih with
    | cons first others => exact .cons (.group left right first) others

/-! ### What the scans answer -/

theorem same_concat_cases {ts us : List Token} (same : SameOutside ts us) :
    (ts = [] ∧ us = []) ∨
      (∃ a b t, SameOutside a b ∧ ts = a ++ [t] ∧ us = b ++ [t]) ∨
      ∃ a b, ts = a ++ [.rightParen] ∧ us = b ++ [.rightParen] := by
  induction same with
  | nil => exact .inl ⟨rfl, rfl⟩
  | @token t ts us plain rest ih =>
    rcases ih with ⟨rfl, rfl⟩ | ⟨a, b, u, before, rfl, rfl⟩ | ⟨a, b, rfl, rfl⟩
    · exact .inr (.inl ⟨[], [], t, .nil, rfl, rfl⟩)
    · exact .inr (.inl ⟨t :: a, t :: b, u, .token plain before, rfl, rfl⟩)
    · exact .inr (.inr ⟨t :: a, t :: b, rfl, rfl⟩)
  | @group inner other ts us left right rest ih =>
    rcases ih with ⟨rfl, rfl⟩ | ⟨a, b, u, before, rfl, rfl⟩ | ⟨a, b, rfl, rfl⟩
    · exact .inr (.inr ⟨.leftParen :: inner, .leftParen :: other, rfl, rfl⟩)
    · exact .inr (.inl ⟨_, _, u, .group left right before, by simp, by simp⟩)
    · exact .inr (.inr ⟨.leftParen :: (inner ++ .rightParen :: a),
        .leftParen :: (other ++ .rightParen :: b), by simp, by simp⟩)

theorem ends_in_star_two (t u : Token) (ts us : List Token) :
    endsInStar (t :: u :: ts) = endsInStar (t :: u :: us) := by
  cases t with
  | star => cases u <;> rfl
  | _ => rfl

theorem ends_in_star_same {ts us : List Token} (same : SameOutside ts us) :
    endsInStar ts.reverse = endsInStar us.reverse := by
  rcases same_concat_cases same with ⟨rfl, rfl⟩ | ⟨a, b, t, before, rfl, rfl⟩ | ⟨a, b, rfl, rfl⟩
  · rfl
  · rw [List.reverse_concat, List.reverse_concat]
    rcases same_concat_cases before with ⟨rfl, rfl⟩ | ⟨c, d, u, -, rfl, rfl⟩ | ⟨c, d, rfl, rfl⟩
    · rfl
    · rw [List.reverse_concat, List.reverse_concat]
      exact ends_in_star_two t u _ _
    · rw [List.reverse_concat, List.reverse_concat]
      exact ends_in_star_two t .rightParen _ _
  · rw [List.reverse_concat, List.reverse_concat]
    rfl

theorem empty_same {ts us : List Token} (same : SameOutside ts us) : ts.isEmpty = us.isEmpty := by
  cases same <;> rfl

theorem columns_same {ts us : List Token} (same : SameOutside ts us) :
    (Column.listOfTokens ts).map (·.wildcard) = (Column.listOfTokens us).map (·.wildcard) := by
  have found := after_first_same same .select
  rw [column_wildcards, column_wildcards]
  generalize afterFirst? .select 0 ts = x at found
  generalize afterFirst? .select 0 us = y at found
  cases found with
  | none => rfl
  | some rest =>
    have items := drop_while_same rest (p := fun t => t.isKeyword .distinct || t.isKeyword .all)
      fun t either => (Bool.or_eq_true _ _ ▸ either).elim keyword_plain keyword_plain
    exact wildcards_related empty_same ends_in_star_same (comma_parts_same (list_tokens_same items))

theorem take_while_same {ts us : List Token} (same : SameOutside ts us) {p : Token → Bool}
    (opens : p .leftParen = true) :
    (.leftParen ∈ ts.takeWhile p ∧ .leftParen ∈ us.takeWhile p) ∨
      ts.takeWhile p = us.takeWhile p := by
  induction same with
  | nil => exact .inr rfl
  | @token t ts us plain rest ih =>
    rw [List.takeWhile_cons, List.takeWhile_cons]
    by_cases passes : p t = true
    · rw [if_pos passes, if_pos passes]
      rcases ih with ⟨left, right⟩ | equal
      · exact .inl ⟨.tail t left, .tail t right⟩
      · exact .inr (congrArg (t :: ·) equal)
    · rw [if_neg passes, if_neg passes]
      exact .inr rfl
  | group left right rest ih =>
    rw [List.takeWhile_cons_of_pos opens, List.takeWhile_cons_of_pos opens]
    exact .inl ⟨.head _, .head _⟩

theorem sole_number_open {ts : List Token} (opened : .leftParen ∈ ts) (unclosed : .rightParen ∉ ts) :
    soleNumber? (lastPart ts) = none := by
  obtain ⟨before, behind, rfl, first⟩ := List.eq_append_cons_of_mem opened
  rw [List.mem_append, List.mem_cons, not_or, not_or] at unclosed
  have plain : ∀ t ∈ before, Plain t := by
    intro t mem
    constructor <;> rintro rfl
    · exact first mem
    · exact unclosed.1 mem
  rw [last_part_open plain unclosed.2.2]
  cases lastPart before with
  | nil => rfl
  | cons t ts => cases ts <;> simp [soleNumber?]

end Token

namespace Limit

open Token

def goesOn (t : Token) : Bool := !ends t && t != .rightParen

theorem of_tokens (ts : List Token) :
    ofTokens ts =
      match afterLast? .limit 0 ts with
      | none => absent
      | some rest => ofExpression (rest.takeWhile goesOn) := rfl

theorem right_paren_stops (ts : List Token) : .rightParen ∉ ts.takeWhile goesOn := by
  intro mem
  have passes := List.all_eq_true.1 List.all_takeWhile _ mem
  simp [goesOn] at passes

theorem limit_same {ts us : List Token} (same : SameOutside ts us) :
    (ofTokens ts).count? = (ofTokens us).count? := by
  have found := after_last_same same .limit
  rw [of_tokens, of_tokens]
  generalize afterLast? .limit 0 ts = x at found
  generalize afterLast? .limit 0 us = y at found
  cases found with
  | none => rfl
  | @some ts us rest =>
    dsimp only
    rw [limit_of_expression, limit_of_expression]
    rcases take_while_same rest (p := goesOn) rfl with ⟨left, right⟩ | equal
    · have none := sole_number_open left (right_paren_stops ts)
      have noneToo := sole_number_open right (right_paren_stops us)
      rw [lastPart] at none noneToo
      rw [none, noneToo]
    · rw [equal]

end Limit

namespace Statement

open Token

theorem insert_same {s t : Statement} (same : SameOutside s.significant t.significant) :
    s.isInsert = t.isInsert := by
  unfold isInsert
  generalize s.significant = ts at same
  generalize t.significant = us at same
  cases same <;> rfl

-- Whatever stands in parentheses, the category, the number of a limit and the wildcards of the columns
-- are the same.
theorem shape_outside (s t : Statement) (left : Balanced s.tokens) (right : Balanced t.tokens)
    (same : outer 0 s.tokens = outer 0 t.tokens) : s.shape = t.shape := by
  have significant : SameOutside s.significant t.significant :=
    same_significant (same_of_outer left right same)
  have limits : s.limit.count? = t.limit.count? := Limit.limit_same significant
  have columns : s.columns.map (·.wildcard) = t.columns.map (·.wildcard) := columns_same significant
  simp only [shape, category_alone, insert_same significant, limits, columns]

def selectionInside : Statement where
  tokens := [.word "SELECT" none, .blank .space, .word "count" none, .leftParen, .star, .rightParen,
    .blank .space, .word "FROM" none, .blank .space, .word "t" none, .blank .space,
    .word "WHERE" none, .blank .space, .word "a" none, .blank .space, .word "IN" none,
    .leftParen, .word "SELECT" none, .blank .space, .word "b" none, .comma, .word "u" none, .period,
    .star, .blank .space, .word "FROM" none, .blank .space, .word "u" none, .blank .space,
    .word "LIMIT" none, .blank .space, .number "2" false, .rightParen, .blank .space,
    .word "LIMIT" none, .blank .space, .number "1" false]
  tokens_squeezed := rfl
  tokens_ne_nil := by simp

def listInside : Statement where
  tokens := [.word "SELECT" none, .blank .space, .word "count" none, .leftParen, .word "a" none,
    .rightParen, .blank .space, .word "FROM" none, .blank .space, .word "t" none, .blank .space,
    .word "WHERE" none, .blank .space, .word "a" none, .blank .space, .word "IN" none,
    .leftParen, .leftParen, .number "1" false, .rightParen, .comma, .number "2" false, .rightParen,
    .blank .space, .word "LIMIT" none, .blank .space, .number "1" false]
  tokens_squeezed := rfl
  tokens_ne_nil := by simp

theorem shape_outside_selection :
    Balanced selectionInside.tokens ∧ Balanced listInside.tokens ∧
    outer 0 selectionInside.tokens = outer 0 listInside.tokens ∧
    selectionInside.shape = listInside.shape ∧ listInside.shape.category = .singleValue := by
  have left : Balanced selectionInside.tokens := by decide
  have right : Balanced listInside.tokens := by decide
  have same : outer 0 selectionInside.tokens = outer 0 listInside.tokens := by decide
  exact ⟨left, right, same, shape_outside selectionInside listInside left right same, by decide +kernel⟩

end Statement
end SqlCatalog
