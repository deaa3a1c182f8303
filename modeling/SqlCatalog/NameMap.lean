/-!
Finite maps from names, kept as lists in increasing order of the names (by code points, which is the
order of their UTF-8 bytes). Main statements: reading after a change (`get?_insert`, `get?_erase`),
what a change has replaced (`replace_eq`), and a name is in the map exactly when it is in the list
(`mem_names_iff`).
-/
namespace SqlCatalog

/-! ### Lists of named values in increasing order -/
namespace Entries

variable {β : Type}

def get? (name : String) : List (String × β) → Option β
  | [] => none
  | (n, v) :: rest => if name = n then some v else get? name rest

def insert (name : String) (value : β) : List (String × β) → List (String × β)
  | [] => [(name, value)]
  | (n, v) :: rest =>
    if name < n then (name, value) :: (n, v) :: rest
    else if name = n then (name, value) :: rest
    else (n, v) :: insert name value rest

-- Inserts, and tells what the name stood for before.
def replace (name : String) (value : β) : List (String × β) → Option β × List (String × β)
  | [] => (none, [(name, value)])
  | (n, v) :: rest =>
    if name < n then (none, (name, value) :: (n, v) :: rest)
    else if name = n then (some v, (name, value) :: rest)
    else
      let (old, rest) := replace name value rest
      (old, (n, v) :: rest)

def erase (name : String) : List (String × β) → List (String × β)
  | [] => []
  | (n, v) :: rest => if name = n then rest else (n, v) :: erase name rest

def ofList (l : List (String × β)) : List (String × β) :=
  l.foldl (fun entries e => insert e.1 e.2 entries) []

def Increasing (l : List (String × β)) : Prop := l.Pairwise fun a b => a.1 < b.1

theorem lt_of_not {a b : String} (notLess : ¬a < b) (ne : a ≠ b) : b < a :=
  String.not_le.1 fun le => ne (String.le_antisymm le (String.not_lt.1 notLess))

theorem mem_insert {name : String} {value : β} {l : List (String × β)} {e : String × β}
    (h : e ∈ insert name value l) : e = (name, value) ∨ e ∈ l := by
  induction l with
  | nil => simpa [insert] using h
  | cons head rest ih =>
    obtain ⟨n, v⟩ := head
    simp only [insert] at h
    split at h
    · simpa using h
    · split at h
      · rcases List.mem_cons.1 h with h | h
        · exact .inl h
        · exact .inr (List.mem_cons_of_mem _ h)
      · rcases List.mem_cons.1 h with h | h
        · exact .inr (h ▸ List.mem_cons_self)
        · rcases ih h with h | h
          · exact .inl h
          · exact .inr (List.mem_cons_of_mem _ h)

theorem increasing_insert {l : List (String × β)} (name : String) (value : β)
    (h : Increasing l) : Increasing (insert name value l) := by
  induction l with
  | nil => exact List.pairwise_singleton _ _
  | cons head rest ih =>
    obtain ⟨n, v⟩ := head
    obtain ⟨above, ordered⟩ := List.pairwise_cons.1 h
    simp only [insert]
    split
    case isTrue less =>
      refine List.pairwise_cons.2 ⟨fun e he => ?_, h⟩
      rcases List.mem_cons.1 he with rfl | he
      · exact less
      · exact String.lt_trans less (above e he)
    case isFalse notLess =>
      split
      case isTrue same => exact List.pairwise_cons.2 ⟨fun e he => same ▸ above e he, ordered⟩
      case isFalse differs =>
        refine List.pairwise_cons.2 ⟨fun e he => ?_, ih ordered⟩
        rcases mem_insert he with rfl | he
        · exact lt_of_not notLess differs
        · exact above e he

theorem replace_inserts (name : String) (value : β) (l : List (String × β)) :
    (replace name value l).2 = insert name value l := by
  induction l with
  | nil => rfl
  | cons head rest ih =>
    obtain ⟨n, v⟩ := head
    simp only [replace, insert]
    split
    · rfl
    · split
      · rfl
      · rw [ih]

theorem erase_sublist (name : String) (l : List (String × β)) : (erase name l).Sublist l := by
  induction l with
  | nil => exact List.Sublist.slnil
  | cons head rest ih =>
    simp only [erase]
    split
    · exact List.sublist_cons_self _ _
    · exact ih.cons_cons _

theorem increasing_erase {l : List (String × β)} (name : String) (h : Increasing l) :
    Increasing (erase name l) :=
  h.sublist (erase_sublist name l)

theorem get?_eq_none {name : String} {l : List (String × β)} (h : ∀ e ∈ l, e.1 ≠ name) :
    get? name l = none := by
  induction l with
  | nil => rfl
  | cons head rest ih =>
    have ne := h head List.mem_cons_self
    simp only [get?, if_neg (Ne.symm ne)]
    exact ih fun e he => h e (List.mem_cons_of_mem _ he)

-- The search stops where the name would stand: behind that there are only greater ones.
theorem replace_old {l : List (String × β)} (name : String) (value : β) (h : Increasing l) :
    (replace name value l).1 = get? name l := by
  induction l with
  | nil => rfl
  | cons head rest ih =>
    obtain ⟨n, v⟩ := head
    obtain ⟨above, ordered⟩ := List.pairwise_cons.1 h
    simp only [replace]
    split
    case isTrue less =>
      refine (get?_eq_none fun e he same => ?_).symm
      rcases List.mem_cons.1 he with rfl | he
      · exact String.lt_irrefl _ (same ▸ less)
      · exact String.lt_irrefl _ (String.lt_trans less (same ▸ above e he))
    case isFalse =>
      split
      case isTrue same => simp [get?, same]
      case isFalse differs => simp only [get?, if_neg differs, ih ordered]

theorem get_of_mem {l : List (String × β)} (increasing : Increasing l) {e : String × β}
    (member : e ∈ l) : get? e.1 l = some e.2 := by
  induction l with
  | nil => cases member
  | cons head rest ih =>
    obtain ⟨above, ordered⟩ := List.pairwise_cons.1 increasing
    rcases List.mem_cons.mp member with rfl | later
    · simp [get?]
    · have differs : e.1 ≠ head.1 := fun same => String.lt_irrefl _ (same ▸ above e later)
      simp only [get?, if_neg differs]
      exact ih ordered later

theorem mem_of_get? {name : String} {value : β} {l : List (String × β)}
    (found : get? name l = some value) : (name, value) ∈ l := by
  induction l with
  | nil => cases found
  | cons head rest ih =>
    obtain ⟨n, v⟩ := head
    simp only [get?] at found
    split at found
    case isTrue same =>
      cases found
      exact same ▸ List.mem_cons_self
    case isFalse => exact List.mem_cons_of_mem _ (ih found)

theorem get?_insert (name key : String) (value : β) (l : List (String × β)) :
    get? key (insert name value l) = if key = name then some value else get? key l := by
  induction l with
  | nil => simp [insert, get?]
  | cons head rest ih =>
    obtain ⟨n, v⟩ := head
    simp only [insert]
    split
    · simp [get?]
    · split
      case isTrue same => subst same; by_cases h : key = name <;> simp [get?, h]
      case isFalse differs =>
        by_cases h : key = n
        · subst h
          simp [get?, Ne.symm differs]
        · simp [get?, h, ih]

theorem get?_erase {l : List (String × β)} (name key : String) (h : Increasing l) :
    get? key (erase name l) = if key = name then none else get? key l := by
  induction l with
  | nil => simp [erase, get?]
  | cons head rest ih =>
    obtain ⟨n, v⟩ := head
    obtain ⟨above, ordered⟩ := List.pairwise_cons.1 h
    simp only [erase]
    split
    case isTrue same =>
      subst same
      by_cases h : key = name
      · subst h
        simp only [if_true]
        exact get?_eq_none fun e he eq => String.lt_irrefl _ (eq ▸ above e he)
      · simp [get?, h]
    case isFalse differs =>
      by_cases h : key = n
      · subst h
        simp [get?, Ne.symm differs]
      · simp [get?, h, ih ordered]

theorem erase_insert {name : String} (value : β) {l : List (String × β)}
    (absent : get? name l = none) : erase name (insert name value l) = l := by
  induction l with
  | nil => simp [insert, erase]
  | cons head rest ih =>
    obtain ⟨n, v⟩ := head
    simp only [get?] at absent
    split at absent
    case isTrue => cases absent
    case isFalse differs =>
      simp only [insert, if_neg differs]
      split
      · simp [erase]
      · simp only [erase, if_neg differs, ih absent]

end Entries

structure NameMap (β : Type) where
  entries : List (String × β)
  increasing : Entries.Increasing entries

namespace NameMap

variable {β : Type}

def empty : NameMap β := ⟨[], List.Pairwise.nil⟩

instance : Inhabited (NameMap β) := ⟨empty⟩

def get? (m : NameMap β) (name : String) : Option β := Entries.get? name m.entries

def insert (m : NameMap β) (name : String) (value : β) : NameMap β :=
  ⟨Entries.insert name value m.entries, Entries.increasing_insert name value m.increasing⟩

def replace (m : NameMap β) (name : String) (value : β) : Option β × NameMap β :=
  let replaced := Entries.replace name value m.entries
  (replaced.1, ⟨replaced.2, by
    rw [Entries.replace_inserts]
    exact Entries.increasing_insert name value m.increasing⟩)

def erase (m : NameMap β) (name : String) : NameMap β :=
  ⟨Entries.erase name m.entries, Entries.increasing_erase name m.increasing⟩

def names (m : NameMap β) : List String := m.entries.map (·.1)

def size (m : NameMap β) : Nat := m.entries.length

def isEmpty (m : NameMap β) : Bool := m.entries.isEmpty

def contains (m : NameMap β) (name : String) : Bool := (m.get? name).isSome

theorem get?_insert (m : NameMap β) (name key : String) (value : β) :
    (m.insert name value).get? key = if key = name then some value else m.get? key :=
  Entries.get?_insert name key value m.entries

theorem replace_eq (m : NameMap β) (name : String) (value : β) :
    m.replace name value = (m.get? name, m.insert name value) := by
  simp only [replace, Entries.replace_old name value m.increasing, Entries.replace_inserts]
  rfl

theorem get?_erase (m : NameMap β) (name key : String) :
    (m.erase name).get? key = if key = name then none else m.get? key :=
  Entries.get?_erase name key m.increasing

theorem erase_insert {m : NameMap β} {name : String} (value : β) (absent : m.get? name = none) :
    (m.insert name value).erase name = m := by
  obtain ⟨entries, increasing⟩ := m
  simp only [insert, erase, Entries.erase_insert value absent]

theorem names_increasing (m : NameMap β) : m.names.Pairwise (· < ·) :=
  List.pairwise_map.2 m.increasing

theorem mem_entries_iff (m : NameMap β) (name : String) (value : β) :
    (name, value) ∈ m.entries ↔ m.get? name = some value :=
  ⟨fun member => Entries.get_of_mem m.increasing member, Entries.mem_of_get?⟩

theorem mem_names_iff (m : NameMap β) (name : String) :
    name ∈ m.names ↔ (m.get? name).isSome := by
  unfold names get?
  generalize m.entries = l
  induction l with
  | nil => simp [Entries.get?]
  | cons head rest ih =>
    by_cases h : name = head.1
    · simp [Entries.get?, h]
    · simp only [List.map_cons, List.mem_cons, h, false_or, ih, Entries.get?, if_false]

end NameMap
end SqlCatalog
