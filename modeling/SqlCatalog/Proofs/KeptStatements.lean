import SqlCatalog.Proofs.Recompiling
import SqlCatalog.Proofs.RunLog
/-!
An operation has every statement of its source, compiled, in the order of the source
(`statements_kept`). A script goes to the engine in one piece where none of its statements has a
marker and the engine takes scripts; its text, made of the statements of the source, is made of the
compiled ones as well.
-/
namespace SqlCatalog

open SqlCatalog.Action

namespace Category

theorem single_length {l : StatementList} (single : (ofStatements l).isSingle = true) :
    l.length = 1 := by
  by_cases one : l.length = 1
  · exact one
  · unfold ofStatements at single
    rw [if_neg one, if_neg one] at single
    split at single <;> cases single

end Category

namespace CompiledSql

open Marker

theorem of_markers_bare {sql : String} {style : PlaceholderStyle}
    (bare : (ofMarkers sql style).params = []) : (ofMarkers sql style).sql = sql := by
  obtain ⟨segments, lexes⟩ := lexes_exists style sql.toList
  have scan : (pieces style sql).flatMap Piece.characters = segments.flatMap Segment.pieces :=
    scanned_lexes lexes
  have nameless : segments.filterMap Segment.name? = [] := by
    rw [← names_segments, ← scan, names_characters, List.eq_nil_iff_forall_not_mem]
    intro name mem
    have listed : name ∈ (ofMarkers sql style).params := mem_first_appearances.mpr mem
    rw [bare] at listed
    cases listed
  have kept (s : Segment) (mem : s ∈ segments) :
      (s.compile style (names (pieces style sql))).toList = s.source := by
    rw [Segment.compile, List.filterMap_eq_nil_iff.mp nameless s mem, String.toList_ofList]
  rw [show (ofMarkers sql style).sql = _ from join_lexes _ lexes, written, List.flatMap_congr kept,
    lexes_source lexes, String.ofList_toList]

end CompiledSql

namespace Operation

open Engine

def IsBareScript (op : Operation) : Prop :=
  op.category = .script ∧ ∀ c ∈ op.statements, c.params = []

def joined (op : Operation) : String := "\n".intercalate (op.statements.map (·.sql ++ ";"))

theorem of_statements_kept (name : String) (l : StatementList) (style : PlaceholderStyle) :
    (ofStatements name l style).statements =
      l.statements.map fun s => .ofMarkers s.sql style := by
  have split : l.statements = l.first :: l.statements.tail := (List.cons_head_tail _).symm
  have others : (ofStatements name l style).others =
      l.statements.tail.map fun s => .ofMarkers s.sql style := by
    by_cases single : (Category.ofStatements l).isSingle = true
    · obtain ⟨s, only⟩ := List.length_eq_one_iff.mp (Category.single_length single)
      simp only [ofStatements, only, List.tail_cons, List.map_nil, ite_self]
    · exact if_neg single
  rw [split, List.map_cons, ← others]
  rfl

theorem of_statements_joined {name : String} {l : StatementList} {style : PlaceholderStyle}
    (bare : ∀ c ∈ (ofStatements name l style).statements, c.params = []) :
    (ofStatements name l style).joined = l.script := by
  rw [of_statements_kept] at bare
  have same : ((ofStatements name l style).statements.map (·.sql ++ ";")) =
      l.statements.map (·.sql ++ ";") := by
    rw [of_statements_kept, List.map_map]
    refine List.map_congr_left fun s mem => ?_
    have text := CompiledSql.of_markers_bare (bare _ (List.mem_map_of_mem mem))
    exact congrArg (· ++ ";") text
  rw [joined, same]
  rfl

theorem of_statements_script (name : String) (l : StatementList) (style : PlaceholderStyle)
    (text : String) :
    (ofStatements name l style).script = some text ↔
      (ofStatements name l style).IsBareScript ∧ text = (ofStatements name l style).joined := by
  have markerless : ((ofStatements name l style).statements.all fun c => !c.hasParams) = true ↔
      ∀ c ∈ (ofStatements name l style).statements, c.params = [] := by
    simp [List.all_eq_true, CompiledSql.hasParams]
  have given : (ofStatements name l style).script = some text ↔
      ((ofStatements name l style).category = .script ∧
        ((ofStatements name l style).statements.all fun c => !c.hasParams) = true) ∧
      l.script = text :=
    Option.ite_none_right_eq_some.trans (and_congr_right' Option.some_inj)
  rw [given, markerless]
  constructor
  · rintro ⟨bare, rfl⟩
    exact ⟨bare, (of_statements_joined bare.2).symm⟩
  · rintro ⟨bare, rfl⟩
    exact ⟨bare, (of_statements_joined bare.2).symm⟩

variable {σ : Type} (op : Operation) (e : Engine σ)

theorem scriptless_nil : Scriptless [] := by
  intro x mem
  cases mem

theorem scriptless_cons {x : Exchange} {log : List Exchange} (head : x.isScript = false)
    (rest : Scriptless log) : Scriptless (x :: log) :=
  List.forall_mem_cons.mpr ⟨head, rest⟩

theorem in_turn_scriptless {bounds : List Bound} {log : List Exchange}
    {outcome : Outcome (List ResultSet)} (executed : InTurn bounds log outcome) :
    Scriptless log := by
  induction executed with
  | nil => exact scriptless_nil
  | stop stops same => exact scriptless_cons rfl scriptless_nil
  | next rest ih => exact scriptless_cons rfl ih

theorem settles_scriptless {reports : Bool} {set : ResultSet} {lookup : List Exchange}
    {outcome : Outcome Int64} (settles : op.Settles reports set lookup outcome) :
    Scriptless lookup := by
  cases settles with
  | carried | unchanged => exact scriptless_nil
  | _ => exact scriptless_cons rfl scriptless_nil

theorem ran_scriptless {reports : Bool} {first : Bound} {others : List Bound}
    {log : List Exchange} {outcome : Outcome Output}
    (ran : op.Ran reports first others log outcome) : Scriptless log := by
  cases ran with
  | unanswered stops same => exact scriptless_cons rfl scriptless_nil
  | unsettled inserts settles stops same =>
    exact scriptless_cons rfl (op.settles_scriptless settles)
  | inserted inserts settles rest =>
    have lookup := op.settles_scriptless settles
    exact scriptless_cons rfl (List.forall_mem_append.mpr ⟨lookup, in_turn_scriptless rest⟩)
  | answered plain rest => exact scriptless_cons rfl (in_turn_scriptless rest)

theorem run_statements_scriptless (p : Params) (t : Logged σ) :
    Adds (op.runStatements e.logged p) t fun log _ => Scriptless log := by
  rw [run_statements_eq]
  cases missing : p.firstMissing? op.paramNames with
  | some parameter => exact adds_nothing rfl scriptless_nil
  | none =>
    obtain ⟨log, grown, ran⟩ :=
      op.run_bound_logged e (p.boundTo op.first) (op.others.map p.boundTo) t
    exact ⟨log, grown, op.ran_scriptless ran⟩

-- What a run for so many elements hands over where the engine takes scripts as `native` says: the
-- whole text, once for every element up to the one that ends the run, and nothing else; or no text
-- of a script.
structure HandsOver (op : Operation) (native : Bool) (count : Nat) (log : List Exchange)
    (answered : Bool) : Prop where
  whole : native = true ∧ op.IsBareScript →
    ∃ outcomes : List (Outcome (List ResultSet)), log = outcomes.map (.executeScript op.joined) ∧
      outcomes.length ≤ count ∧ (0 < count → 0 < outcomes.length) ∧
      (answered = true → outcomes.length = count)
  apart : ¬ (native = true ∧ op.IsBareScript) → Scriptless log

section HandingOver

variable {op : Operation} {native answered : Bool} {count : Nat} {log rest : List Exchange}

theorem hands_over_nothing : op.HandsOver native 0 [] answered where
  whole _ := ⟨[], rfl, Nat.le_refl 0, id, fun _ => rfl⟩
  apart _ := scriptless_nil

theorem hands_over_once (bare : op.IsBareScript) (outcome : Outcome (List ResultSet)) :
    op.HandsOver true 1 [.executeScript op.joined outcome] answered where
  whole _ := ⟨[outcome], rfl, Nat.le_refl 1, id, fun _ => rfl⟩
  apart never := absurd ⟨rfl, bare⟩ never

theorem hands_over_next (head : op.HandsOver native 1 log true)
    (tail : op.HandsOver native count rest answered) :
    op.HandsOver native (count + 1) (log ++ rest) answered where
  whole takes := by
    obtain ⟨first, rfl, -, -, one⟩ := head.whole takes
    obtain ⟨others, rfl, bounded, -, all⟩ := tail.whole takes
    have total : (first ++ others).length = others.length + 1 := by
      rw [List.length_append, one rfl, Nat.add_comm]
    refine ⟨first ++ others, List.map_append.symm, ?_, fun _ => ?_, fun done => ?_⟩
    · rw [total]
      exact Nat.succ_le_succ bounded
    · rw [total]
      exact Nat.succ_pos _
    · rw [total, all done]
  apart never := List.forall_mem_append.mpr ⟨head.apart never, tail.apart never⟩

theorem hands_over_stop (head : op.HandsOver native 1 log false) :
    op.HandsOver native (count + 1) log false where
  whole takes := by
    obtain ⟨outcomes, rfl, bounded, some, -⟩ := head.whole takes
    refine ⟨outcomes, rfl, bounded.trans (Nat.le_add_left 1 count), fun _ => some Nat.one_pos, ?_⟩
    intro done
    cases done
  apart := head.apart

end HandingOver

section Runs

variable {op} (scripts : ∀ text, op.script = some text ↔ op.IsBareScript ∧ text = op.joined)
include scripts

theorem run_for_hands_over (p : Params) (t : Logged σ) :
    Adds (op.runFor e.logged p) t fun log outcome =>
      op.HandsOver (e.hasScripts t.state) 1 log outcome.isDone := by
  have looked : e.logged.hasScripts t = e.hasScripts t.state := rfl
  rcases op.run_for_cases p e.logged t with ⟨apart, same⟩ | ⟨text, native, whole, same⟩
  · have never : ¬ (e.hasScripts t.state = true ∧ op.IsBareScript) := by
      rintro ⟨native, bare⟩
      have whole := (scripts op.joined).mpr ⟨bare, rfl⟩
      rw [looked, native, whole] at apart
      rcases apart with refused | none
      · cases refused
      · cases none
    obtain ⟨log, grown, scriptless⟩ := adds_congr same (op.run_statements_scriptless e p t)
    exact ⟨log, grown, fun takes => absurd takes never, fun _ => scriptless⟩
  · obtain ⟨bare, rfl⟩ := (scripts text).mp whole
    rw [← looked, native]
    apply adds_congr same
    apply adds_bind (adds_record (.executeScript op.joined) _ t)
    · rintro sets next log - ⟨-, rfl⟩
      exact adds_nothing rfl (hands_over_once bare _)
    · rintro log outcome result ⟨-, rfl⟩ stopped same
      exact hands_over_once bare _

variable {native : Bool} (declared : ∀ s, e.hasScripts s = native)
include declared

theorem each_hands_over (elements : List Params) (t : Logged σ) :
    Adds (each (op.runFor e.logged) elements) t fun log outcome =>
      op.HandsOver native elements.length log outcome.isDone := by
  induction elements generalizing t with
  | nil => exact adds_nothing rfl hands_over_nothing
  | cons p elements ih =>
    have here := run_for_hands_over e scripts p t
    rw [declared] at here
    apply adds_bind here
    · rintro output next log - head
      apply adds_bind (ih next)
      · rintro outputs last rest - tail
        apply adds_nothing rfl
        rw [List.append_nil]
        exact hands_over_next head tail
      · intro rest outcome result tail stopped same
        rw [stopped] at tail
        rw [Outcome.not_done_of_ending stopped same]
        exact hands_over_next head tail
    · intro log outcome result head stopped same
      rw [stopped] at head
      rw [Outcome.not_done_of_ending stopped same]
      exact hands_over_stop head

theorem run_hands_over (args : Arguments) (t : Logged σ) :
    Adds (op.run e.logged args) t fun log outcome =>
      op.HandsOver native args.elements.length log outcome.isDone := by
  cases args with
  | single p =>
    have here := run_for_hands_over e scripts p t
    rw [declared] at here
    exact here
  | batch all =>
    apply adds_bind (each_hands_over e scripts declared all t)
    · rintro outputs next log - hands
      apply adds_nothing rfl
      rw [List.append_nil]
      exact hands
    · intro log outcome result hands stopped same
      rw [stopped] at hands
      rw [Outcome.not_done_of_ending stopped same]
      exact hands

end Runs

-- The statements of an operation are those of its source, each compiled, in the same order. It has
-- a text of its own just where it is a script without markers, and the text is that of the compiled
-- statements. A run hands that text over just where there is one and the engine takes scripts.
theorem statements_kept (name : String) (l : StatementList) (style : PlaceholderStyle) :
    let op := ofStatements name l style
    (op.statements = l.statements.map fun s => .ofMarkers s.sql style) ∧
    (∀ text, op.script = some text ↔ op.IsBareScript ∧ text = op.joined) ∧
    ∀ {σ : Type} (e : Engine σ),
      (∀ (p : Params) (t : Logged σ), Adds (op.runFor e.logged p) t fun log outcome =>
        op.HandsOver (e.hasScripts t.state) 1 log outcome.isDone) ∧
      ∀ native, (∀ s, e.hasScripts s = native) → ∀ (args : Arguments) (t : Logged σ),
        Adds (op.run e.logged args) t fun log outcome =>
          op.HandsOver native args.elements.length log outcome.isDone := by
  intro op
  have scripts := of_statements_script name l style
  refine ⟨of_statements_kept name l style, scripts, fun e => ⟨?_, ?_⟩⟩
  · exact run_for_hands_over e scripts
  · intro native declared
    exact run_hands_over e scripts declared

end Operation
end SqlCatalog
