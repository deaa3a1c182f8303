import SqlCatalog.Proofs.Nesting
/-!
Files that are included between statements. The statements of the whole are those in front of the
directive, those of the file and those behind it, whatever the ends of the three texts look like
(`include_splices`).
-/
namespace SqlCatalog

namespace Statement

open Token

theorem of_tokens_blank {t : Token} (blank : t.isBlank = true) (ts : List Token) :
    ofTokens? (t :: ts) = ofTokens? ts := by
  have same : squeezed (t :: ts) = squeezed ts := by
    rw [squeezed, if_neg (by simp [isSignificant, blank])]
  simp only [ofTokens?, same]

theorem list_of_tokens_blank {t : Token} (blank : t.isBlank = true) (ts : List Token) :
    listOfTokens (t :: ts) = listOfTokens ts := by
  have kept : ¬ (t = .semicolon ∧ Nesting.outer.depth = 0) := by
    rintro ⟨rfl, -⟩
    cases blank
  have same : Nesting.outer.after t = .outer := by
    have past := Nesting.past_blank .outer blank
    rwa [Nesting.past, if_neg kept] at past
  rw [listOfTokens, listOfTokens, groups, groups_from_keep _ _ _ kept, same, ← groups]
  cases split : groups ts with
  | nil => exact absurd split (groups_from_ne_nil .outer ts)
  | cons first others => simp only [attach, List.filterMap_cons, of_tokens_blank blank]

theorem list_of_tokens_append {ts : List Token} (closed : (Nesting.outer.behind ts).depth = 0)
    (us : List Token) :
    listOfTokens (ts ++ .semicolon :: us) = listOfTokens ts ++ listOfTokens us := by
  rw [listOfTokens, groups, groups_from_append .outer closed, List.filterMap_append]
  rfl

theorem list_of_tokens_separators {gap : List Token}
    (separators : ∀ t ∈ gap, t.isBlank = true ∨ t = .semicolon) (ts : List Token) :
    listOfTokens (gap ++ ts) = listOfTokens ts := by
  induction gap with
  | nil => rfl
  | cons t gap ih =>
    have onward := ih fun u mem => separators u (List.mem_cons_of_mem t mem)
    rw [List.cons_append]
    rcases separators t List.mem_cons_self with blank | rfl
    · rw [list_of_tokens_blank blank, onward]
    · rw [← onward]
      exact @list_of_tokens_append [] rfl (gap ++ ts)

theorem list_of_tokens_blanks {gap : List Token} (blanks : ∀ t ∈ gap, t.isBlank = true)
    (ts : List Token) : listOfTokens (gap ++ ts) = listOfTokens ts :=
  list_of_tokens_separators (fun t mem => .inl (blanks t mem)) ts

theorem list_of_blanks {gap : List Token} (blanks : ∀ t ∈ gap, t.isBlank = true) :
    listOfTokens gap = [] := by
  have none := list_of_tokens_blanks blanks []
  rwa [List.append_nil] at none

end Statement

namespace Token

-- Tokens behind which a statement starts: there are none, or a semicolon is the last of them,
-- blanks apart.
inductive Ended : List Token → Prop where
  | blanks {gap : List Token} (blanks : ∀ t ∈ gap, t.isBlank = true) : Ended gap
  | semicolon {before gap : List Token} (blanks : ∀ t ∈ gap, t.isBlank = true) :
      Ended (before ++ .semicolon :: gap)

theorem list_of_ended {ts : List Token} (ended : Ended ts)
    (closed : (Nesting.outer.behind ts).depth = 0) (us : List Token) :
    Statement.listOfTokens (ts ++ us) = Statement.listOfTokens ts ++ Statement.listOfTokens us := by
  cases ended with
  | blanks blanks =>
    rw [Statement.list_of_tokens_blanks blanks, Statement.list_of_blanks blanks, List.nil_append]
  | @semicolon before gap blanks =>
    have outside : (Nesting.outer.behind before).depth = 0 := by
      by_contra inside
      rw [Nesting.behind_append, Nesting.behind_cons, Nesting.past_kept _ inside,
        Nesting.behind_blanks _ blanks] at closed
      exact inside closed
    rw [List.append_assoc, List.cons_append, Statement.list_of_tokens_append outside,
      Statement.list_of_tokens_append outside, Statement.list_of_tokens_blanks blanks,
      Statement.list_of_blanks blanks, List.append_nil]

end Token

namespace Inclusion

open Token Relation

/-! ### Reading one run behind another -/

theorem pieces_blanks {gap : List Token} (blanks : ∀ t ∈ gap, t.isBlank = true) :
    ∃ kept : List Token, (∀ t ∈ kept, t.isBlank = true) ∧ pieces gap = kept.map .token ∧
      ∀ ts, pieces (gap ++ ts) = kept.map .token ++ pieces ts := by
  induction gap with
  | nil => exact ⟨[], by simp, rfl, fun ts => rfl⟩
  | cons t gap ih =>
    obtain ⟨kept, keptBlanks, alone, read⟩ := ih fun u mem => blanks u (List.mem_cons_of_mem t mem)
    cases t with
    | blank b =>
      have first (ts : List Token) : pieces (.blank b :: ts) =
          .token (.blank (if b.isComment then .space else b)) :: pieces ts := rfl
      refine ⟨.blank (if b.isComment then .space else b) :: kept, ?_, ?_, fun ts => ?_⟩
      · intro u mem
        rcases List.mem_cons.mp mem with rfl | later
        · rfl
        · exact keptBlanks u later
      · rw [first, alone, List.map_cons]
      · rw [List.cons_append, first, read ts, List.map_cons, List.cons_append]
    | _ => cases blanks _ List.mem_cons_self

theorem pieces_from_statement (atStart : Bool) (t : Token) (ts : List Token) :
    piecesFrom (.statement atStart) (t :: ts) =
      (readToken atStart t).1.toList ++ piecesFrom (readToken atStart t).2 ts := rfl

theorem pieces_from_semicolon (reading : Reading) (before : List Token) {us : List Token}
    (named : .nameless ∉ piecesFrom reading (before ++ .semicolon :: us)) :
    ∃ ps, ∀ ts, piecesFrom reading (before ++ .semicolon :: ts) = ps ++ pieces ts := by
  induction before generalizing reading with
  | nil =>
    cases reading with
    | statement atStart => exact ⟨[.token .semicolon], fun ts => rfl⟩
    | name => exact absurd List.mem_cons_self named
    | afterName => exact ⟨[], fun ts => rfl⟩
  | cons t before ih =>
    have statement (atStart : Bool)
        (named : .nameless ∉ piecesFrom (.statement atStart) (t :: before ++ .semicolon :: us)) :
        ∃ ps, ∀ ts, piecesFrom (.statement atStart) (t :: before ++ .semicolon :: ts) =
          ps ++ pieces ts := by
      rw [List.cons_append, pieces_from_statement] at named
      obtain ⟨ps, read⟩ := ih _ fun mem => named (List.mem_append_right _ mem)
      refine ⟨(readToken atStart t).1.toList ++ ps, fun ts => ?_⟩
      rw [List.cons_append, pieces_from_statement, read, List.append_assoc]
    simp only [List.cons_append] at named statement ⊢
    cases reading with
    | statement atStart => exact statement atStart named
    | name =>
      simp only [piecesFrom] at named ⊢
      by_cases blank : t.isBlank = true
      · simp only [if_pos blank] at named ⊢
        exact ih .name named
      · simp only [if_neg blank] at named ⊢
        cases target : fileName? t with
        | none =>
          rw [target] at named
          exact absurd List.mem_cons_self named
        | some path =>
          rw [target] at named
          obtain ⟨ps, read⟩ := ih .afterName fun mem => named (List.mem_cons_of_mem _ mem)
          exact ⟨.directive path :: ps, fun ts => by rw [read, List.cons_append]⟩
    | afterName =>
      simp only [piecesFrom] at named ⊢
      by_cases blank : t.isBlank = true
      · simp only [if_pos blank] at named ⊢
        exact ih .afterName named
      · simp only [if_neg blank] at named ⊢
        by_cases ends : t = .semicolon
        · simp only [if_pos ends] at named ⊢
          exact ih (.statement true) named
        · simp only [if_neg ends] at named ⊢
          exact statement true named

theorem pieces_ended {ts : List Token} (ended : Ended ts) (named : .nameless ∉ pieces ts)
    (us : List Token) : pieces (ts ++ us) = pieces ts ++ pieces us := by
  cases ended with
  | blanks blanks =>
    obtain ⟨kept, -, alone, read⟩ := pieces_blanks blanks
    rw [alone, read]
  | @semicolon before gap blanks =>
    obtain ⟨ps, front⟩ := pieces_from_semicolon (.statement true) before named
    obtain ⟨kept, -, alone, read⟩ := pieces_blanks blanks
    rw [List.append_assoc, List.cons_append, pieces, pieces, front, front, alone, read,
      List.append_assoc]

theorem pieces_after_blanks (ts : List Token) :
    ∃ kept : List Token, (∀ t ∈ kept, t.isBlank = true ∨ t = .semicolon) ∧
      pieces ts = kept.map .token ++ piecesFrom .afterName ts := by
  induction ts with
  | nil => exact ⟨[], by simp, rfl⟩
  | cons t ts ih =>
    by_cases blank : t.isBlank = true
    · obtain ⟨kept, separators, read⟩ := ih
      have single : ∀ u ∈ [t], u.isBlank = true := by simpa using blank
      obtain ⟨first, firstBlanks, -, front⟩ := pieces_blanks single
      refine ⟨first ++ kept, ?_, ?_⟩
      · intro u mem
        rcases List.mem_append.mp mem with early | late
        · exact .inl (firstBlanks u early)
        · exact separators u late
      · rw [piecesFrom, if_pos blank, List.map_append, List.append_assoc, ← read]
        exact front ts
    · rw [piecesFrom, if_neg blank]
      by_cases ends : t = .semicolon
      · subst ends
        exact ⟨[.semicolon], by simp, rfl⟩
      · rw [if_neg ends]
        exact ⟨[], by simp, rfl⟩

inductive Directive (target : Path) : List Token → Prop where
  | bare {word name : Token} {gap : List Token} (directs : isDirectiveWord word = true)
      (blanks : ∀ t ∈ gap, t.isBlank = true) (named : fileName? name = some target) :
      Directive target (word :: (gap ++ [name]))
  | ended {word name : Token} {gap behind : List Token} (directs : isDirectiveWord word = true)
      (blanks : ∀ t ∈ gap, t.isBlank = true) (named : fileName? name = some target)
      (blanksBehind : ∀ t ∈ behind, t.isBlank = true) :
      Directive target (word :: (gap ++ name :: (behind ++ [.semicolon])))

theorem pieces_named {word name : Token} {target : Path} {gap : List Token}
    (directs : isDirectiveWord word = true) (blanks : ∀ t ∈ gap, t.isBlank = true)
    (named : fileName? name = some target) (ts : List Token) :
    pieces (word :: (gap ++ name :: ts)) = .directive target :: piecesFrom .afterName ts := by
  have directing : readToken true word = (none, .name) := by
    cases word with
    | word text quote => simp [readToken, directs]
    | _ => cases directs
  have seen : name.isBlank = false := by
    cases name <;> first | rfl | cases named
  rw [pieces, pieces_from_statement, directing, Option.toList_none, List.nil_append]
  induction gap with
  | nil => rw [List.nil_append, piecesFrom, if_neg (by simp [seen]), named]
  | cons t gap ih =>
    rw [List.cons_append, piecesFrom, if_pos (blanks t List.mem_cons_self)]
    exact ih fun u mem => blanks u (List.mem_cons_of_mem t mem)

theorem pieces_after_ended {gap : List Token} (blanks : ∀ t ∈ gap, t.isBlank = true)
    (ts : List Token) : piecesFrom .afterName (gap ++ .semicolon :: ts) = pieces ts := by
  induction gap with
  | nil => rfl
  | cons t gap ih =>
    rw [List.cons_append, piecesFrom, if_pos (blanks t List.mem_cons_self)]
    exact ih fun u mem => blanks u (List.mem_cons_of_mem t mem)

-- Behind a directive the pieces are those of the text that follows, but for blanks and a semicolon
-- in front of it.
theorem pieces_directive {target : Path} {directive : List Token}
    (names : Directive target directive) (ts : List Token) :
    ∃ (ps : List Piece) (kept : List Token), pieces (directive ++ ts) = .directive target :: ps ∧
      (∀ t ∈ kept, t.isBlank = true ∨ t = .semicolon) ∧ pieces ts = kept.map .token ++ ps := by
  cases names with
  | @bare word name gap directs blanks named =>
    obtain ⟨kept, separators, read⟩ := pieces_after_blanks ts
    refine ⟨_, kept, ?_, separators, read⟩
    rw [List.cons_append, List.append_assoc]
    exact pieces_named directs blanks named ts
  | @ended word name gap behind directs blanks named blanksBehind =>
    refine ⟨pieces ts, [], ?_, by simp, rfl⟩
    rw [List.cons_append, List.append_assoc, List.cons_append, List.append_assoc,
      pieces_named directs blanks named]
    exact congrArg _ (pieces_after_ended blanksBehind ts)

/-! ### Expanding one run behind another -/

variable (s : Setting)

theorem expands_append {stack : List Location} {ps qs : List Piece} {out others : List Token}
    (first : Expands s stack ps out) (second : Expands s stack qs others) :
    Expands s stack (ps ++ qs) (out ++ others) := by
  induction first with
  | nil => exact second
  | token rest ih => exact .token (ih second)
  | directive leads fresh holds file rest ihFile ihRest =>
    rw [List.cons_append, List.cons_append, List.append_assoc, List.cons_append]
    exact .directive leads fresh holds file (ihRest second)

theorem expands_tokens {stack : List Location} {kept out : List Token} {ps : List Piece}
    (expands : Expands s stack (kept.map .token ++ ps) out) :
    ∃ others, out = kept ++ others ∧ Expands s stack ps others := by
  induction kept generalizing out with
  | nil => exact ⟨out, rfl, expands⟩
  | cons t kept ih =>
    cases expands with
    | token rest =>
      obtain ⟨others, rfl, onward⟩ := ih rest
      exact ⟨others, rfl, onward⟩

theorem expands_further {stack : List Location} {ps : List Piece} {out : List Token}
    (expands : Expands s stack ps out) (other : Location) (away : ¬ Reaches s ps other) :
    Expands s (stack ++ [other]) ps out := by
  induction expands with
  | nil => exact .nil
  | token rest ih => exact .token (ih fun reached => away (reaches_cons s reached))
  | @directive stack target location ts ps included out leads fresh holds file rest ihFile ihRest =>
    have names : Names s (.directive target :: ps) location := ⟨target, List.mem_cons_self, leads⟩
    have apart : location ≠ other := by
      rintro rfl
      exact away ⟨location, names, .refl⟩
    refine .directive leads ?_ holds
      (ihFile fun reached => away (reaches_file s names holds reached))
      (ihRest fun reached => away (reaches_cons s reached))
    simpa [apart] using fresh

theorem expands_included {location : Location} {ts out : List Token} (holds : Holds s location ts)
    (expands : Expands s [] (pieces ts) out) : Expands s [location] (pieces ts) out := by
  refine expands_further s expands location fun reached => ?_
  obtain ⟨first, names, path⟩ := reached
  exact expands_acyclic s expands location ⟨first, names, path⟩ (.head' ⟨ts, holds, names⟩ path)

theorem inlined_last {atStart : Bool} {ts out : List Token} (inlined : Inlined s atStart ts out)
    (last : ts.getLast? = some .semicolon) : out.getLast? = some .semicolon := by
  have behind {out : List Token} (t : Token) (others : out.getLast? = some .semicolon) :
      (t :: out).getLast? = some .semicolon := by
    simp [List.getLast?_cons, others]
  induction inlined with
  | nil => cases last
  | @directive word name target location ts rest included out directs named leads holds file others
      ihFile ihOthers =>
    have ending : (.semicolon :: out).getLast? = some .semicolon := by
      cases rest with
      | nil =>
        cases last
        cases named
      | cons first rest =>
        rw [List.getLast?_cons_cons, List.getLast?_cons_cons] at last
        by_cases ends : first = .semicolon
        · subst ends
          cases rest with
          | nil =>
            cases others
            rfl
          | cons second rest =>
            rw [List.getLast?_cons_cons] at last
            exact behind _ (ihOthers last)
        · have kept : dropSemicolon (first :: rest) = first :: rest := by
            cases first <;> first | rfl | exact absurd rfl ends
          rw [kept] at ihOthers
          exact behind _ (ihOthers last)
    rw [List.getLast?_append, ending]
    rfl
  | @semicolon atStart rest out others ih =>
    cases rest with
    | nil =>
      cases others
      rfl
    | cons first rest =>
      rw [List.getLast?_cons_cons] at last
      exact behind _ (ih last)
  | @token atStart t rest out inside plain others ih =>
    cases rest with
    | nil => exact absurd (Option.some.inj last) inside
    | cons first rest =>
      rw [List.getLast?_cons_cons] at last
      exact behind _ (ih last)

theorem ended_of_last {ts : List Token} (last : (visible ts).getLast? = some .semicolon) :
    Ended ts := by
  obtain ⟨early, split⟩ := List.getLast?_eq_some_iff.mp last
  obtain ⟨front, back, rfl, -, ends⟩ := List.filter_eq_append_iff.mp split
  obtain ⟨gap, rest, rfl, blanks, -, none⟩ := List.filter_eq_cons_iff.mp ends
  rw [← List.append_assoc]
  refine .semicolon fun t mem => ?_
  have hidden := List.filter_eq_nil_iff.mp none t mem
  simpa using hidden

theorem visible_blanks {gap : List Token} (blanks : ∀ t ∈ gap, t.isBlank = true) :
    visible gap = [] := by
  rw [visible, List.filter_eq_nil_iff]
  intro t mem
  simp [blanks t mem]

theorem ended_expanded {ts out : List Token} (expands : Expands s [] (pieces ts) out)
    (ended : Ended ts) : Ended out := by
  cases ended with
  | blanks blanks =>
    obtain ⟨kept, keptBlanks, alone, -⟩ := pieces_blanks blanks
    rw [alone, ← List.append_nil (kept.map Piece.token)] at expands
    obtain ⟨others, rfl, rest⟩ := expands_tokens s expands
    cases rest
    rw [List.append_nil]
    exact .blanks keptBlanks
  | @semicolon before gap blanks =>
    refine ended_of_last (inlined_last s (expands_inlined s expands true _ rfl) ?_)
    have semicolon : visible (.semicolon :: gap) = [.semicolon] := by
      rw [visible_cons, visible_blanks blanks]
      rfl
    rw [visible_append, semicolon, List.getLast?_append]
    rfl

-- A file is included where a statement starts, in front of any other text. The text in front, the
-- file and the text behind are each expanded without an error, the text in front outside all bodies
-- and the file closing those that it opens. Then so is the whole, and its statements are those of
-- the text in front, of the file, and of the text behind.
theorem include_splices {target : Path} {location : Location}
    {front directive back file frontOut fileOut backOut : List Token}
    {frontOrigin fileOrigin backOrigin : String}
    (frontExpands : expand s frontOrigin front = .ok frontOut) (ended : Ended front)
    (frontCloses : (Nesting.outer.behind frontOut).depth = 0)
    (names : Directive target directive)
    (leads : s.files.resolve (s.base.join target) = .ok location) (holds : Holds s location file)
    (fileExpands : expand s fileOrigin file = .ok fileOut)
    (fileCloses : (Nesting.outer.behind fileOut).depth = 0)
    (backExpands : expand s backOrigin back = .ok backOut) (origin : String) :
    ∃ out, expand s origin (front ++ directive ++ back) = .ok out ∧
      Statement.listOfTokens out = Statement.listOfTokens frontOut ++
        Statement.listOfTokens fileOut ++ Statement.listOfTokens backOut := by
  have frontRun := expands_of_ok s [] frontOrigin _ frontOut frontExpands
  have fileRun := expands_included s holds (expands_of_ok s [] fileOrigin _ fileOut fileExpands)
  have backRun := expands_of_ok s [] backOrigin _ backOut backExpands
  obtain ⟨ps, kept, read, separators, follows⟩ := pieces_directive names back
  rw [follows] at backRun
  obtain ⟨others, rfl, rest⟩ := expands_tokens s backRun
  have run : Expands s [] (pieces (front ++ directive ++ back))
      (frontOut ++ .blank .space :: (fileOut ++ .semicolon :: others)) := by
    rw [List.append_assoc, pieces_ended ended (expands_complete s frontRun).1, read]
    exact expands_append s frontRun (.directive leads (by simp) holds fileRun rest)
  refine ⟨_, ok_of_expands s run origin, ?_⟩
  rw [list_of_ended (ended_expanded s frontRun ended) frontCloses,
    Statement.list_of_tokens_blank rfl, Statement.list_of_tokens_append fileCloses,
    Statement.list_of_tokens_separators separators, List.append_assoc]

def lone (text : String) : Setting where
  files :=
    { resolve := fun path => if path.text = "./f" then .ok ["f"] else .error .notFound
      textAt := fun location => if location = ["f"] then .ok text else .error .notFound
      isFile := fun location => location = ["f"]
      namesAt := fun _ => .error .notADirectory
      locations := [["f"]]
      distinct := by decide
      mem_locations := by
        intro location
        rw [List.mem_singleton]
        constructor
        · rintro rfl
          exact ⟨text, rfl⟩
        · rintro ⟨found, held⟩
          by_contra other
          rw [if_neg other] at held
          cases held }
  dialect := .sqlite
  base := ⟨"."⟩

theorem lone_leads (text : String) :
    (lone text).files.resolve ((lone text).base.join ⟨"f"⟩) = .ok ["f"] := by
  have path : (lone text).base.join ⟨"f"⟩ = ⟨"./f"⟩ := by cbv
  rw [path]
  rfl

theorem lone_holds {text : String} {ts : List Token} (reads : Token.ofText .sqlite text = .ok ts) :
    Holds (lone text) ["f"] ts := ⟨text, rfl, reads⟩

theorem include_splices_comment :
    let s := lone "SELECT 7 -- seven"
    let front : List Token := [.word "DELETE" none, .semicolon]
    let directive : List Token := [.word "Include" none, .blank .tab, .word "f" (some .double)]
    let back : List Token := [.blank .newline, .word "COMMIT" none]
    ∃ out, expand s "op" (front ++ directive ++ back) = .ok out ∧
      (Statement.listOfTokens out).map Statement.sql = ["DELETE", "SELECT 7", "COMMIT"] := by
  intro s front directive back
  have reads : Token.ofText .sqlite "SELECT 7 -- seven" = .ok [.word "SELECT" none, .blank .space,
      .number "7" false, .blank .space, .blank (.lineComment " seven")] := by decide +kernel
  have names : Directive ⟨"f"⟩ directive :=
    @Directive.bare ⟨"f"⟩ (.word "Include" none) (.word "f" (some .double)) [.blank .tab] (by cbv)
      (by simp [Token.isBlank]) rfl
  have plain (ts out : List Token) (read : pieces ts = out.map .token) :
      expand s "op" ts = .ok out := by
    rw [expand, read, expand_tokens]
  have file : expand s "op" [.word "SELECT" none, .blank .space, .number "7" false, .blank .space,
      .blank (.lineComment " seven")] = .ok [.word "SELECT" none, .blank .space, .number "7" false,
      .blank .space, .blank .space] := plain _ _ (by cbv)
  obtain ⟨out, expands, statements⟩ := include_splices s (plain front front (by cbv))
    (@Ended.semicolon [.word "DELETE" none] [] (by simp)) (by decide) names (lone_leads _)
    (lone_holds reads) file (by decide) (plain back back (by cbv)) "op"
  refine ⟨out, expands, ?_⟩
  rw [statements]
  decide

end Inclusion
end SqlCatalog
