import Mathlib
import SqlCatalog.Proofs.Binding
import SqlCatalog.Proofs.Utf8Order
/-!
Parameters after any number of values have been given, each under a name with or without a colon. What
they hold is the value that was given last under each bare name, so statements are bound to these
(`given_last`).
-/
namespace SqlCatalog

namespace Entries

variable {β : Type}

def last? (name : String) (l : List (String × β)) : Option β :=
  (l.reverse.find? fun e => e.1 == name).map (·.2)

theorem last_concat (name : String) (l : List (String × β)) (e : String × β) :
    last? name (l ++ [e]) = if name = e.1 then some e.2 else last? name l := by
  rw [last?, List.reverse_append, List.reverse_singleton, List.singleton_append]
  by_cases same : name = e.1
  · rw [if_pos same, List.find?_cons_of_pos (by simp [same]), Option.map_some]
  · rw [if_neg same, List.find?_cons_of_neg (by simpa using Ne.symm same), last?]

theorem last_some_iff (name : String) (l : List (String × β)) :
    (last? name l).isSome ↔ name ∈ l.map (·.1) := by
  simp [last?, List.find?_isSome]

end Entries

namespace Params

inductive Giving where
  | insert (name : String) (value : Value)
  | extend (name : String) (value : Value)

namespace Giving

def name : Giving → String
  | insert name _ => name
  | extend name _ => name

def value : Giving → Value
  | insert _ value => value
  | extend _ value => value

def take (p : Params) : Giving → Params
  | insert name value => (p.replace name value).2
  | extend name value => p.insert name value

def key (g : Giving) : String := bareName g.name

def entry (g : Giving) : String × Value := (g.key, g.value)

end Giving

def after (history : List Giving) : Params := history.foldl Giving.take empty

def lastGiven (history : List Giving) (key : String) : Option Value :=
  Entries.last? key (history.map Giving.entry)

theorem bare_name_marked (name : String) : bareName (":" ++ name) = name := by
  rw [bareName, String.toList_append]
  exact String.ofList_toList

theorem bare_name_plain {name : String} (plain : name.toList.head? ≠ some ':') :
    bareName name = name := by
  rw [bareName]
  cases characters : name.toList with
  | nil => rfl
  | cons c cs =>
    rw [characters] at plain
    split
    · rename_i rest same
      cases same
      exact absurd rfl plain
    · rfl

theorem replace_eq (p : Params) (name : String) (value : Value) :
    p.replace name value = (p.get? name, p.insert name value) := by
  rw [replace, NameMap.replace_eq]
  rfl

theorem take_insert (p : Params) (g : Giving) : g.take p = p.insert g.name g.value := by
  cases g with
  | insert name value => rw [Giving.take, replace_eq]; rfl
  | extend name value => rfl

theorem values_insert (p : Params) (name key : String) (value : Value) :
    (p.insert name value).values.get? key =
      if key = bareName name then some value else p.values.get? key :=
  NameMap.get?_insert p.values (bareName name) key value

theorem after_concat (history : List Giving) (g : Giving) :
    after (history ++ [g]) = (after history).insert g.name g.value := by
  rw [after, List.foldl_append, List.foldl_cons, List.foldl_nil, take_insert]
  rfl

theorem last_given_concat (history : List Giving) (g : Giving) (key : String) :
    lastGiven (history ++ [g]) key = if key = g.key then some g.value else lastGiven history key := by
  rw [lastGiven, List.map_append, List.map_singleton, Entries.last_concat]
  rfl

-- The induction is on the history from its end: the last value given hides those before it.
theorem values_after (history : List Giving) (key : String) :
    (after history).values.get? key = lastGiven history key := by
  induction history using List.reverseRecOn with
  | nil => rfl
  | append_singleton history g ih =>
    rw [after_concat, values_insert, ih, last_given_concat, Giving.key]

theorem last_given_some_iff (history : List Giving) (key : String) :
    (lastGiven history key).isSome ↔ key ∈ history.map Giving.key := by
  rw [lastGiven, Entries.last_some_iff, List.map_map]
  rfl

theorem names_after (history : List Giving) :
    (after history).values.names.Perm (history.map Giving.key).dedup := by
  have once : (after history).values.names.Nodup := by
    rw [List.Nodup]
    refine (after history).values.names_increasing.imp ?_
    intro a b less same
    rw [same] at less
    exact String.lt_irrefl b less
  rw [List.perm_ext_iff_of_nodup once (List.nodup_dedup _)]
  intro key
  rw [NameMap.mem_names_iff, values_after, last_given_some_iff, List.mem_dedup]

theorem bind_statement_congr (op : Operation) (p q : Params) (c : CompiledSql)
    (same : ∀ name ∈ c.params, q.get? name = p.get? name) :
    op.bindStatement q c = op.bindStatement p c := by
  rw [Operation.bind_statement_eq, Operation.bind_statement_eq, first_missing_congr p q c.params same,
    bound_to_congr p q c same]

-- Over every history: reading, what an insertion gives back, the number of names, and the list in the
-- order of the names' UTF-8 bytes; and what binds a statement, whatever else was given.
theorem given_last (history : List Giving) :
    (∀ name, bareName (":" ++ name) = name ∧
      (name.toList.head? ≠ some ':' → bareName name = name)) ∧
    (∀ name, (after history).get? name = lastGiven history (bareName name)) ∧
    (∀ name value, ((after history).replace name value).1 = (after history).get? name) ∧
    (after history).size = (history.map Giving.key).dedup.length ∧
    (∀ key value, (key, value) ∈ (after history).toList ↔ lastGiven history key = some value) ∧
    (after history).toList.Pairwise (fun a b => Text.utf8 a.1 < Text.utf8 b.1) ∧
    ∀ (other : List Giving) (op : Operation) (c : CompiledSql),
      (∀ name ∈ c.params, lastGiven other (bareName name) = lastGiven history (bareName name)) →
      op.bindStatement (after other) c = op.bindStatement (after history) c := by
  have reads (given : List Giving) (name : String) :
      (after given).get? name = lastGiven given (bareName name) := values_after given (bareName name)
  refine ⟨fun name => ⟨bare_name_marked name, bare_name_plain⟩, reads history, ?_, ?_, ?_, ?_, ?_⟩
  · intro name value
    rw [replace_eq]
  · rw [← (names_after history).length_eq, NameMap.names, List.length_map]
    rfl
  · intro key value
    rw [toList, NameMap.mem_entries_iff, values_after]
  · exact (after history).values.increasing.imp Text.utf8_lt
  · intro other op c same
    refine bind_statement_congr op (after history) (after other) c fun name member => ?_
    rw [reads, reads, same name member]

-- A name given twice, with a colon and without, among others in another order; one with two colons is
-- another name.
theorem given_last_twice :
    let history : List Giving :=
      [.insert ":id" (.int 1), .extend "name" (.text "Ada"), .insert "id" (.int 2),
        .extend "::id" .null]
    let other : List Giving := [.insert "unused" .null, .insert ":id" (.int 2)]
    let c : CompiledSql := ⟨"SELECT ?1", ["id"]⟩
    "id".toList.head? ≠ some ':' ∧ bareName "id" = "id" ∧
    (after history).get? ":id" = some (.int 2) ∧
    (∀ name ∈ c.params, lastGiven other (bareName name) = lastGiven history (bareName name)) ∧
    Operation.transfer.bindStatement (after other) c =
      Operation.transfer.bindStatement (after history) c := by
  intro history other c
  obtain ⟨bare, reads, -, -, -, -, binds⟩ := given_last history
  have plain : "id".toList.head? ≠ some ':' := by decide
  have same : ∀ name ∈ c.params,
      lastGiven other (bareName name) = lastGiven history (bareName name) := by
    intro name member
    rw [List.mem_singleton.mp member]
    rfl
  refine ⟨plain, (bare "id").2 plain, ?_, same, binds other Operation.transfer c same⟩
  rw [reads]
  rfl

end Params
end SqlCatalog
