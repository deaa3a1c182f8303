import Mathlib.Data.List.TakeWhile
import Mathlib.Data.Nat.Digits.Defs
import SqlCatalog.Proofs.Parentheses
/-!
What is reported of a limit. The number is that of the last part of the expression behind LIMIT, as
long as there are no parentheses in it; a parenthesis hides the number (`limit_of_clause`).
-/
namespace SqlCatalog

namespace Token

structure Denotes (digits : String) (n : Nat) : Prop where
  nonempty : digits.toList ≠ []
  decimal : ∀ c ∈ digits.toList, c.isDigit = true
  value : Nat.ofDigits 10 (digits.toList.reverse.map fun c => c.toNat - '0'.toNat) = n

theorem digits_value (cs : List Char) :
    cs.foldl (fun n c => n * 10 + (c.toNat - '0'.toNat)) 0 =
      Nat.ofDigits 10 (cs.reverse.map fun c => c.toNat - '0'.toNat) := by
  rw [Nat.ofDigits_eq_foldr, List.foldr_map, List.foldr_reverse]
  congr 1
  funext n c
  rw [Nat.cast_id]
  omega

theorem word_number_iff (digits : String) (n : Nat) :
    wordNumber? digits = some n ↔ Denotes digits n ∧ n < 2 ^ 64 := by
  have size : UInt64.size = 2 ^ 64 := rfl
  simp only [wordNumber?, digits_value, size]
  by_cases unread : (digits.toList.isEmpty || !digits.toList.all Char.isDigit) = true
  · rw [if_pos unread]
    constructor
    · intro none
      cases none
    · intro number
      have all := List.all_eq_true.mpr number.1.decimal
      simp [all, number.1.nonempty] at unread
  · rw [if_neg unread, Option.ite_none_right_eq_some, Option.some.injEq]
    simp only [Bool.or_eq_true, List.isEmpty_iff, Bool.not_eq_true', Bool.not_eq_false, not_or,
      List.all_eq_true] at unread
    constructor
    · rintro ⟨fits, rfl⟩
      exact ⟨⟨unread.1, unread.2, rfl⟩, fits⟩
    · rintro ⟨⟨-, -, rfl⟩, fits⟩
      exact ⟨fits, rfl⟩

/-! ### The last part between commas -/

theorem balanced_of_plain {ts : List Token} (plain : ∀ t ∈ ts, Plain t) : Balanced ts := by
  induction ts with
  | nil => exact .nil
  | cons t ts ih => exact .token (plain t (.head ts)) (ih fun u mem => plain u (.tail t mem))

theorem outer_plain_append {ts : List Token} (plain : ∀ t ∈ ts, Plain t) (rest : List Token) :
    outer 0 (ts ++ rest) = ts ++ outer 0 rest := by
  induction ts with
  | nil => rfl
  | cons t ts ih =>
    rw [List.cons_append, outer_token (plain t (.head ts)), ih fun u mem => plain u (.tail t mem),
      List.cons_append]

theorem balanced_open_cases {ts : List Token} (balanced : Balanced ts) :
    (∀ t ∈ ts, Plain t) ∨
      ∃ front rest, ts = front ++ .leftParen :: rest ∧ ∀ t ∈ front, Plain t := by
  induction balanced with
  | nil => exact .inl (by simp)
  | @token t ts plain _ ih =>
    rcases ih with all | ⟨front, rest, rfl, all⟩
    · exact .inl (List.forall_mem_cons.mpr ⟨plain, all⟩)
    · exact .inr ⟨t :: front, rest, rfl, List.forall_mem_cons.mpr ⟨plain, all⟩⟩
  | group inside rest _ _ => exact .inr ⟨[], _, rfl, by simp⟩

-- What stands behind the last comma outside parentheses, or all of it where there is none.
structure LastPart (ts part : List Token) : Prop where
  behind : ts = part ∨ ∃ front, Balanced front ∧ ts = front ++ .comma :: part
  balanced : Balanced part
  whole : .comma ∉ outer 0 part

theorem last_part_cons {t : Token} {ts part : List Token} (plain : Plain t) (comma : t ≠ .comma)
    (last : LastPart ts part) : ∃ part, LastPart (t :: ts) part := by
  rcases last.behind with rfl | ⟨front, balanced, rfl⟩
  · refine ⟨t :: ts, .inl rfl, .token plain last.balanced, ?_⟩
    rw [outer_token plain, List.mem_cons, not_or]
    exact ⟨comma.symm, last.whole⟩
  · exact ⟨part, .inr ⟨t :: front, .token plain balanced, rfl⟩, last.balanced, last.whole⟩

theorem exists_last_part {ts : List Token} (balanced : Balanced ts) : ∃ part, LastPart ts part := by
  induction balanced with
  | nil => exact ⟨[], .inl rfl, .nil, by simp [outer]⟩
  | @token t ts plain _ ih =>
    obtain ⟨part, last⟩ := ih
    by_cases comma : t = .comma
    · subst comma
      refine ⟨part, .inr ?_, last.balanced, last.whole⟩
      rcases last.behind with rfl | ⟨front, balanced, rfl⟩
      · exact ⟨[], .nil, rfl⟩
      · exact ⟨.comma :: front, .token plain balanced, rfl⟩
    · exact last_part_cons plain comma last
  | @group inner ts inside _ _ ih =>
    obtain ⟨part, last⟩ := ih
    rcases last.behind with rfl | ⟨front, balanced, rfl⟩
    · refine ⟨_, .inl rfl, .group inside last.balanced, ?_⟩
      rw [outer_group inside]
      simpa using last.whole
    · exact ⟨part, .inr ⟨_, .group inside balanced, by simp⟩, last.balanced, last.whole⟩

theorem comma_parts_whole {part : List Token} (balanced : Balanced part)
    (whole : .comma ∉ outer 0 part) : commaParts 0 part = [part] := by
  induction balanced with
  | nil => rfl
  | @token t ts plain _ ih =>
    rw [outer_token plain, List.mem_cons, not_or] at whole
    rw [commaParts, if_neg fun both => whole.1 both.1.symm, deeper_plain plain, ih whole.2]
    rfl
  | group inside _ _ ih =>
    rw [outer_group inside] at whole
    rw [comma_parts_group inside (ih (by simpa using whole))]

theorem comma_parts_append {front : List Token} (balanced : Balanced front) (rest : List Token) :
    commaParts 0 (front ++ .comma :: rest) = commaParts 0 front ++ commaParts 0 rest := by
  induction balanced with
  | nil => rfl
  | @token t ts plain _ ih =>
    rw [List.cons_append, commaParts, commaParts, deeper_plain plain, ih]
    by_cases cut : t = .comma ∧ 0 = 0
    · rw [if_pos cut, if_pos cut]
      rfl
    · obtain ⟨g, gs, split⟩ := comma_parts_cons 0 ts
      rw [if_neg cut, if_neg cut, split]
      rfl
  | @group inner ts inside _ _ ih =>
    obtain ⟨g, gs, split⟩ := comma_parts_cons 0 ts
    rw [split] at ih
    have following : commaParts 0 (ts ++ .comma :: rest) = g :: (gs ++ commaParts 0 rest) := ih
    rw [List.cons_append, List.append_assoc, List.cons_append, comma_parts_group inside following,
      comma_parts_group inside split]
    rfl

theorem last_part_eq {ts part : List Token} (last : LastPart ts part) : lastPart ts = part := by
  have whole := comma_parts_whole last.balanced last.whole
  rw [lastPart]
  rcases last.behind with rfl | ⟨front, balanced, rfl⟩
  · rw [whole]
    rfl
  · rw [comma_parts_append balanced, whole, List.getLast?_concat]
    rfl

/-! ### The clause -/

theorem after_last_some {ts rest found : List Token} {k : Keyword} (balanced : Balanced ts)
    (later : afterLast? k 0 rest = some found) : afterLast? k 0 (ts ++ rest) = some found := by
  induction balanced with
  | nil => exact later
  | token plain _ ih => rw [List.cons_append, after_last_plain plain, ih, Option.some_or]
  | group inside _ _ ih =>
    rw [List.cons_append, List.append_assoc, List.cons_append, after_last_group inside, ih]

theorem after_last_none {ts rest : List Token} {k : Keyword} (balanced : Balanced ts)
    (nowhere : ∀ t ∈ outer 0 ts, t.isKeyword k = false) (later : afterLast? k 0 rest = none) :
    afterLast? k 0 (ts ++ rest) = none := by
  induction balanced with
  | nil => exact later
  | token plain _ ih =>
    rw [outer_token plain, List.forall_mem_cons] at nowhere
    rw [List.cons_append, after_last_plain plain, ih nowhere.2, nowhere.1]
    rfl
  | group inside _ _ ih =>
    rw [outer_group inside, List.forall_mem_cons, List.forall_mem_cons] at nowhere
    rw [List.cons_append, List.append_assoc, List.cons_append, after_last_group inside,
      ih nowhere.2.2]

end Token

open Token

-- A statement with a limit: what stands before the word LIMIT, the expression behind it, and what
-- stands behind that, which is nothing or begins with OFFSET, FOR or FETCH.
structure LimitClause (ts before expression behind : List Token) : Prop where
  tokens : ∃ l, l.isKeyword .limit = true ∧ ts = before ++ l :: (expression ++ behind)
  balanced : Balanced before ∧ Balanced expression ∧ Balanced behind
  ended : ∀ t ∈ behind.head?, Limit.ends t = true
  last : ∀ t ∈ outer 0 expression ++ outer 0 behind, t.isKeyword .limit = false
  unended : ∀ t ∈ outer 0 expression, Limit.ends t = false

namespace LimitClause

variable {ts before expression behind : List Token}

theorem after_last (clause : LimitClause ts before expression behind) :
    afterLast? .limit 0 ts = some (expression ++ behind) := by
  obtain ⟨l, keyword, rfl⟩ := clause.tokens
  have none : afterLast? .limit 0 (expression ++ behind) = none := by
    refine after_last_none clause.balanced.2.1 (fun t mem => ?_) ?_
    · exact clause.last t (List.mem_append_left _ mem)
    · rw [← List.append_nil behind]
      refine after_last_none clause.balanced.2.2 (fun t mem => ?_) rfl
      exact clause.last t (List.mem_append_right _ mem)
  refine after_last_some clause.balanced.1 ?_
  rw [after_last_plain (keyword_plain keyword), none, keyword]
  rfl

theorem reported (clause : LimitClause ts before expression behind) :
    Limit.ofTokens ts = .ofExpression (expression.takeWhile Limit.goesOn) := by
  have stops : behind.takeWhile Limit.goesOn = [] := by
    cases behind with
    | nil => rfl
    | cons t ts => rw [List.takeWhile_cons_of_neg (by simp [Limit.goesOn, clause.ended t rfl])]
  rw [Limit.of_tokens, clause.after_last]
  dsimp only
  rw [List.takeWhile_append, stops, List.append_nil]
  by_cases all : (expression.takeWhile Limit.goesOn).length = expression.length
  · rw [if_pos all, (List.takeWhile_prefix _).eq_of_length all]
  · rw [if_neg all]

theorem reported_plain (clause : LimitClause ts before expression behind)
    (plain : ∀ t ∈ expression, Plain t) : Limit.ofTokens ts = .ofExpression expression := by
  have all : ∀ t ∈ expression, Limit.goesOn t = true := by
    intro t mem
    have outside := outer_plain_append plain []
    rw [List.append_nil] at outside
    have unended := clause.unended t (by rw [outside]; exact List.mem_append_left _ mem)
    simp [Limit.goesOn, unended, (plain t mem).2]
  rw [clause.reported, List.takeWhile_eq_self_iff.mpr all]

theorem reported_open {front rest : List Token} (plain : ∀ t ∈ front, Plain t)
    (clause : LimitClause ts before (front ++ .leftParen :: rest) behind) :
    Limit.ofTokens ts =
      .ofExpression (front ++ .leftParen :: rest.takeWhile Limit.goesOn) := by
  have all : ∀ t ∈ front, Limit.goesOn t = true := by
    intro t mem
    have unended := clause.unended t (by
      rw [outer_plain_append plain]
      exact List.mem_append_left _ mem)
    simp [Limit.goesOn, unended, (plain t mem).2]
  rw [clause.reported, List.takeWhile_append_of_pos all, List.takeWhile_cons_of_pos rfl]

end LimitClause

namespace Limit

theorem of_expression (ts : List Token) :
    ofExpression ts =
      match soleNumber? (lastPart ts) with
      | some n => .literal n
      | none => .expression (spaced (lastPart ts)) := by
  unfold ofExpression
  rw [← lastPart]
  split
  · next digits last =>
    rw [last, soleNumber?]
    cases wordNumber? digits with
    | none => simp [spaced, spelling]
    | some n => rfl
  · next other =>
    have none : soleNumber? (lastPart ts) = none := by
      unfold soleNumber?
      split
      · next digits last => exact absurd last (other digits)
      · rfl
    rw [none]

theorem sole_number_iff (ts : List Token) (n : Nat) :
    soleNumber? ts = some n ↔
      ∃ digits, ts = [.number digits false] ∧ Denotes digits n ∧ n < 2 ^ 64 := by
  simp only [← word_number_iff]
  constructor
  · intro number
    unfold soleNumber? at number
    split at number
    · next digits => exact ⟨digits, rfl, number⟩
    · cases number
  · rintro ⟨digits, rfl, number⟩
    exact number

end Limit

namespace Statement

-- The last part of the expression behind LIMIT is what is reported, as a number where it is one, if no
-- parenthesis is opened in the expression. If one is, then the tokens up to the first that closes, or
-- up to OFFSET, FOR or FETCH, are all that is seen, and they are no number.
theorem limit_of_clause (s : Statement) {before expression behind count : List Token}
    (clause : LimitClause s.significant before expression behind)
    (last : LastPart expression count) :
    (∀ n, s.limit = .literal n ↔ .leftParen ∉ expression ∧
      ∃ digits, count = [.number digits false] ∧ Denotes digits n ∧ n < 2 ^ 64) ∧
    (.leftParen ∉ expression → (∀ n, s.limit ≠ .literal n) →
      s.limit = .expression (spaced count)) ∧
    (.leftParen ∈ expression → ∃ front rest part, expression = front ++ .leftParen :: rest ∧
      .leftParen ∉ front ∧ LastPart front part ∧
      s.limit =
        .expression (spaced (part ++ .leftParen :: rest.takeWhile Limit.goesOn))) := by
  have whole := last_part_eq last
  rcases balanced_open_cases clause.balanced.2.1 with plain | ⟨front, rest, rfl, plain⟩
  · have reported : s.limit = .ofExpression expression := clause.reported_plain plain
    have none : .leftParen ∉ expression := fun mem => (plain _ mem).1 rfl
    rw [Limit.of_expression, whole] at reported
    rw [reported]
    refine ⟨fun n => ?_, fun _ unread => ?_, fun opened => absurd opened none⟩
    · rw [← Limit.sole_number_iff, and_iff_right none]
      cases soleNumber? count <;> simp
    · cases number : soleNumber? count with
      | none => rfl
      | some n => simp [number] at unread
  · have reported : s.limit = .ofExpression _ := LimitClause.reported_open plain clause
    have opened : .leftParen ∈ front ++ .leftParen :: rest := by simp
    obtain ⟨part, partOf⟩ := exists_last_part (balanced_of_plain plain)
    have unclosed : .rightParen ∉ rest.takeWhile Limit.goesOn :=
      Limit.right_paren_stops rest
    have seen := last_part_open plain unclosed
    have unread :
        soleNumber? (lastPart (front ++ .leftParen :: rest.takeWhile Limit.goesOn)) = none := by
      refine sole_number_open (List.mem_append_right front (.head _)) fun mem => ?_
      rcases List.mem_append.mp mem with before | after
      · exact (plain _ before).2 rfl
      · exact unclosed ((List.mem_cons.mp after).resolve_left nofun)
    rw [Limit.of_expression, unread, seen, last_part_eq partOf] at reported
    rw [reported]
    refine ⟨fun n => ?_, fun none => absurd opened none, fun _ => ?_⟩
    · exact ⟨nofun, fun both => absurd opened both.1⟩
    · exact ⟨front, rest, part, rfl, fun mem => (plain _ mem).1 rfl, partOf, rfl⟩

def limitFront : List Token :=
  [.word "SELECT" none, .word "a" none, .word "FROM" none, .word "t" none]

def limitTokens (expression : List Token) : List Token :=
  [.word "SELECT" none, .blank .space, .word "a" none, .blank .space, .word "FROM" none,
    .blank .space, .word "t" none, .blank .space, .word "LIMIT" none, .blank .space] ++ expression

theorem denotes_one : Denotes "1" 1 := ⟨by decide, by simp, by decide⟩

theorem limit_of_clause_count :
    ∃ s : Statement,
      SqlSource.statements ⟨"SELECT a FROM t LIMIT 5, 1", "op", none⟩ .empty .sqlite =
        .ok ⟨"op", [s], by simp⟩ ∧
      LimitClause s.significant limitFront [.number "5" false, .comma, .number "1" false] [] ∧
      LastPart [.number "5" false, .comma, .number "1" false] [.number "1" false] ∧
      s.limit = .literal 1 := by
  let s : Statement :=
    ⟨limitTokens [.number "5" false, .comma, .blank .space, .number "1" false], rfl, by
      simp [limitTokens]⟩
  have reads : Token.ofText .sqlite "SELECT a FROM t LIMIT 5, 1" = .ok s.tokens := by decide +kernel
  have clause : LimitClause s.significant limitFront
      [.number "5" false, .comma, .number "1" false] [] :=
    ⟨⟨.word "LIMIT" none, by decide +kernel, rfl⟩, by decide, nofun, by decide +kernel,
      by decide +kernel⟩
  have last : LastPart [.number "5" false, .comma, .number "1" false] [.number "1" false] :=
    ⟨.inr ⟨[.number "5" false], by decide, rfl⟩, by decide, by decide⟩
  refine ⟨s, SqlSource.statements_single .empty s reads (by decide +kernel) (by decide +kernel),
    clause, last, ?_⟩
  exact ((limit_of_clause s clause last).1 1).mpr
    ⟨by decide, "1", rfl, denotes_one, by decide⟩

theorem call_in_offset_hides_count :
    ∃ s : Statement,
      SqlSource.statements ⟨"SELECT a FROM t LIMIT abs(5), 1", "op", none⟩ .empty .sqlite =
        .ok ⟨"op", [s], by simp⟩ ∧
      LimitClause s.significant limitFront [.word "abs" none, .leftParen, .number "5" false,
        .rightParen, .comma, .number "1" false] [] ∧
      LastPart [.word "abs" none, .leftParen, .number "5" false, .rightParen, .comma,
        .number "1" false] [.number "1" false] ∧
      Denotes "1" 1 ∧ s.limit = .expression "abs ( 5" := by
  let s : Statement :=
    ⟨limitTokens [.word "abs" none, .leftParen, .number "5" false, .rightParen, .comma,
      .blank .space, .number "1" false], rfl, by simp [limitTokens]⟩
  have reads : Token.ofText .sqlite "SELECT a FROM t LIMIT abs(5), 1" = .ok s.tokens := by
    decide +kernel
  refine ⟨s, SqlSource.statements_single .empty s reads (by decide +kernel) (by decide +kernel),
    ?_, ?_, denotes_one, by decide +kernel⟩
  · exact ⟨⟨.word "LIMIT" none, by decide +kernel, rfl⟩, by decide, nofun, by decide +kernel,
      by decide +kernel⟩
  · exact ⟨.inr ⟨[.word "abs" none, .leftParen, .number "5" false, .rightParen], by decide, rfl⟩,
      by decide, by decide⟩

end Statement
end SqlCatalog
