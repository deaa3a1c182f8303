import SqlCatalog.Proofs.Requests
/-!
How many operations of an inventory are compiled. It counts them right through every history, and it
warns in just those steps that take the count from the capacity to one more (`capacity_warnings`).
-/
namespace SqlCatalog

namespace Entries

variable {β : Type}

theorem count_insert (p : β → Bool) (name : String) (value : β) {l : List (String × β)}
    (increasing : Increasing l) :
    (insert name value l).countP (fun e => p e.2) + ((get? name l).any p).toNat =
      l.countP (fun e => p e.2) + (p value).toNat := by
  induction l with
  | nil => cases holds : p value <;> simp [insert, get?, holds]
  | cons head rest ih =>
    obtain ⟨n, v⟩ := head
    obtain ⟨above, ordered⟩ := List.pairwise_cons.1 increasing
    by_cases less : name < n
    · have absent : get? name ((n, v) :: rest) = none := by
        apply get?_eq_none
        intro e member same
        rcases List.mem_cons.mp member with rfl | later
        · exact String.lt_irrefl _ (same ▸ less)
        · exact String.lt_irrefl _ (String.lt_trans less (same ▸ above e later))
      rw [insert, if_pos less, absent, List.countP_cons]
      cases p value <;> simp
    · by_cases same : name = n
      · subst same
        rw [insert, if_neg less, if_pos rfl, List.countP_cons, List.countP_cons]
        cases old : p v <;> cases new : p value <;> simp [get?, old]
      · have others := ih ordered
        rw [insert, if_neg less, if_neg same, List.countP_cons, List.countP_cons]
        simp only [get?, if_neg same]
        omega

theorem count_erase (p : β → Bool) (name : String) (l : List (String × β)) :
    (erase name l).countP (fun e => p e.2) + ((get? name l).any p).toNat =
      l.countP (fun e => p e.2) := by
  induction l with
  | nil => rfl
  | cons head rest ih =>
    obtain ⟨n, v⟩ := head
    by_cases same : name = n
    · subst same
      rw [erase, if_pos rfl, List.countP_cons]
      cases held : p v <;> simp [get?, held]
    · rw [erase, if_neg same, List.countP_cons, List.countP_cons]
      simp only [get?, if_neg same]
      omega

end Entries

namespace Inventory

def compiledNames (inv : Inventory) : List String := inv.names.filter inv.isCompiled

theorem compiled_names_length (inv : Inventory) :
    inv.compiledNames.length = inv.entries.entries.countP fun e => e.2.isCompiled := by
  rw [compiledNames, names, NameMap.names, List.filter_map, List.length_map,
    ← List.countP_eq_length_filter]
  apply List.countP_congr
  intro e member
  rw [Function.comp, isCompiled, NameMap.get?, Entries.get_of_mem inv.entries.increasing member]
  rfl

theorem put_compiled_names (inv : Inventory) (name : String) (entry : Entry) :
    (inv.put name entry).1.compiledNames.length + (inv.isCompiled name).toNat =
      inv.compiledNames.length + entry.isCompiled.toNat := by
  rw [compiled_names_length, compiled_names_length, (inv.put_frame name entry).1]
  exact Entries.count_insert Entry.isCompiled name entry inv.entries.increasing

theorem remove_compiled_names (inv : Inventory) (name : String) :
    (inv.remove name).2.compiledNames.length + (inv.isCompiled name).toNat =
      inv.compiledNames.length := by
  rw [compiled_names_length, compiled_names_length, (inv.remove_frame name).1]
  exact Entries.count_erase Entry.isCompiled name inv.entries.entries

-- The warning of a step from `before` to `after` compiled operations.
def crossing (capacity : Option Nat) (before after : Nat) : Option Warning :=
  match capacity with
  | none => none
  | some limit =>
    if before = limit ∧ after = limit + 1 then some (.overCapacity (limit + 1) limit) else none

theorem crossing_none {capacity : Option Nat} {before after : Nat} (lower : after ≤ before) :
    crossing capacity before after = none := by
  cases capacity with
  | none => rfl
  | some limit =>
    rw [crossing, if_neg]
    omega

-- The count and the mark of an inventory in which `number` operations are compiled.
structure Tallies (inv : Inventory) (number : Nat) : Prop where
  count : inv.compiledCount = number
  exceeded : inv.exceeded = inv.capacity.any fun limit => decide (limit < number)

theorem count_up_tallies {inv : Inventory} {number : Nat} (tallies : Tallies inv number) :
    Tallies inv.countUp.1 (number + 1) ∧
      inv.countUp.2 = crossing inv.capacity number (number + 1) := by
  obtain ⟨count, exceeded⟩ := tallies
  cases capacity : inv.capacity with
  | none =>
    simp only [capacity, Option.any_none] at exceeded
    simp only [countUp, capacity, count]
    exact ⟨⟨rfl, by simp only [exceeded, Option.any_none]⟩, rfl⟩
  | some limit =>
    simp only [capacity, Option.any_some] at exceeded
    by_cases first : number = limit
    · have warns : limit < number + 1 ∧ ¬ inv.exceeded = true := by simp [exceeded, first]
      simp only [countUp, capacity, count, if_pos warns]
      exact ⟨⟨rfl, by simp only [Option.any_some, warns.1, decide_true]⟩, by simp [crossing, first]⟩
    · have silent : ¬ (limit < number + 1 ∧ ¬ inv.exceeded = true) := by
        simp only [exceeded, decide_eq_true_eq]
        omega
      have same : (limit < number) = (limit < number + 1) := propext (by omega)
      simp only [countUp, capacity, count, if_neg silent]
      exact ⟨⟨rfl, by simp only [exceeded, same, Option.any_some]⟩,
        by simp [crossing, first]⟩

theorem count_down_tallies {inv : Inventory} {number : Nat} (tallies : Tallies inv (number + 1)) :
    Tallies inv.countDown number := by
  obtain ⟨count, exceeded⟩ := tallies
  cases capacity : inv.capacity with
  | none =>
    simp only [capacity, Option.any_none] at exceeded
    simp only [countDown, capacity, count]
    exact ⟨rfl, by simp only [exceeded, Option.any_none]⟩
  | some limit =>
    simp only [capacity, Option.any_some] at exceeded
    simp only [countDown, capacity, count, Nat.add_sub_cancel]
    refine ⟨rfl, ?_⟩
    simp only [exceeded, Option.any_some]
    by_cases exceeds : limit < number
    · simp [exceeds, Nat.lt_succ_of_lt exceeds]
    · simp [exceeds]

theorem tallies_entries {inv : Inventory} {number : Nat} (entries : NameMap Entry)
    (tallies : Tallies inv number) : Tallies { inv with entries } number :=
  ⟨tallies.count, tallies.exceeded⟩

-- Every way in which an inventory changes keeps its count and its mark right.
def Counted (inv : Inventory) : Prop := Tallies inv inv.compiledNames.length

theorem put_counted {inv : Inventory} (counted : Counted inv) (name : String) (entry : Entry) :
    Counted (inv.put name entry).1 ∧ (inv.put name entry).2 =
      crossing inv.capacity inv.compiledNames.length (inv.put name entry).1.compiledNames.length := by
  have number := inv.put_compiled_names name entry
  have tallies := tallies_entries (inv.entries.insert name entry) counted
  unfold Counted
  generalize (inv.put name entry).1.compiledNames.length = after at number
  generalize inv.compiledNames.length = before at number tallies
  unfold put
  cases was : inv.isCompiled name <;> cases now : entry.isCompiled <;>
    simp only [was, now, Bool.toNat_false, Bool.toNat_true, Nat.add_zero, Nat.add_right_cancel_iff]
      at number
  · subst number
    exact ⟨tallies, (crossing_none (Nat.le_refl _)).symm⟩
  · subst number
    exact count_up_tallies tallies
  · subst number
    exact ⟨count_down_tallies tallies, (crossing_none (Nat.le_succ _)).symm⟩
  · subst number
    exact ⟨tallies, (crossing_none (Nat.le_refl _)).symm⟩

theorem remove_counted {inv : Inventory} (counted : Counted inv) (name : String) :
    Counted (inv.remove name).2 := by
  have number := inv.remove_compiled_names name
  have tallies := tallies_entries (inv.entries.erase name) counted
  unfold Counted
  generalize (inv.remove name).2.compiledNames.length = after at number
  rw [← number] at tallies
  unfold remove
  cases was : inv.isCompiled name with
  | false =>
    simp only [was, Bool.toNat_false, Nat.add_zero] at tallies
    exact tallies
  | true =>
    simp only [was, Bool.toNat_true] at tallies
    exact count_down_tallies tallies

theorem serve_counted {inv : Inventory} (counted : Counted inv) (files : FileView)
    (request : Request) :
    let reply := inv.serve files request
    Counted reply.after ∧ reply.warning =
      crossing inv.capacity inv.compiledNames.length reply.after.compiledNames.length := by
  have change := inv.serve_change files request
  dsimp only
  generalize (inv.serve files request).after = next at change
  generalize (inv.serve files request).warning = warning at change
  cases change with
  | nothing => exact ⟨counted, (crossing_none (Nat.le_refl _)).symm⟩
  | put name entry => exact put_counted counted name entry
  | remove name =>
    refine ⟨remove_counted counted name, (crossing_none ?_).symm⟩
    have number := inv.remove_compiled_names name
    omega

theorem after_counted (compiler : Compiler) (capacity : Option Nat)
    (history : List (FileView × Request)) :
    Counted ((empty compiler capacity).after history) := by
  induction history using List.reverseRecOn with
  | nil => exact ⟨rfl, by cases capacity <;> rfl⟩
  | append_singleton history step ih =>
    obtain ⟨files, request⟩ := step
    rw [after_concat]
    exact (serve_counted ih files request).1

-- Nothing is counted down from zero: a compiled operation has been counted.
theorem capacity_warnings (compiler : Compiler) (capacity : Option Nat)
    (history : List (FileView × Request)) :
    let inv := (empty compiler capacity).after history
    inv.compiledCount = inv.compiledNames.length ∧
    (∀ name, inv.isCompiled name = true → 0 < inv.compiledCount) ∧
    inv.exceeded = capacity.any (fun limit => decide (limit < inv.compiledNames.length)) ∧
    ∀ files request,
      let reply := inv.serve files request
      reply.warning =
        match capacity with
        | none => none
        | some limit =>
          if inv.compiledNames.length = limit ∧ reply.after.compiledNames.length = limit + 1 then
            some (.overCapacity (limit + 1) limit)
          else none := by
  intro inv
  have limit : inv.capacity = capacity := ((empty compiler capacity).after_frame history).2
  have counted : Counted inv := after_counted compiler capacity history
  refine ⟨counted.count, fun name compiled => ?_, ?_, fun files request => ?_⟩
  · have others := inv.remove_compiled_names name
    rw [compiled, ← counted.count] at others
    simp only [Bool.toNat_true] at others
    omega
  · rw [counted.exceeded, limit]
  · have warned := (serve_counted counted files request).2
    rw [limit] at warned
    exact warned

end Inventory
end SqlCatalog
