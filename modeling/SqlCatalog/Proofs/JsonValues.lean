import Mathlib
import SqlCatalog.Proofs.ParameterNames
/-!
JSON and values are each other's images, but for what the one has and the other has not: whole numbers
of more than 64 bits with sign, and timestamps, blobs and the numbers that are not finite
(`Value.json_round_trip`). The members of an object are parameters in the same way.
-/
namespace SqlCatalog

namespace Json

def Above : Json → Prop
  | number (.whole n _) => Int64.maxValue.toInt < n
  | _ => False

theorem int_of_range {n : Int} (range : WholeRange n) : int n = number (.whole n range) :=
  dif_pos range

theorem float_of_finite {x : Float} (finite : x.isFinite) : float x = number (.float x finite) :=
  dif_pos finite

theorem float_of_not {x : Float} (infinite : ¬x.isFinite) : float x = null := dif_neg infinite

theorem whole_range_of_int64 (n : Int64) : WholeRange n.toInt := by
  have above : (Int64.maxValue.toInt : Int) < UInt64.size := by decide
  exact ⟨n.minValue_le_toInt, Int.lt_of_le_of_lt n.toInt_le above⟩

theorem float_ne_whole (x : Float) (n : Int) (range : WholeRange n) :
    float x ≠ number (.whole n range) := by
  unfold float
  split <;> intro same <;> cases same

end Json

namespace Entries

variable {α β : Type}

theorem last_map (f : α → β) (name : String) (l : List (String × α)) :
    last? name (l.map fun e => (e.1, f e.2)) = (last? name l).map f := by
  rw [last?, last?, ← List.map_reverse, List.find?_map, Option.map_map, Option.map_map]
  rfl

theorem last_of_distinct {l : List (String × α)} (distinct : (l.map (·.1)).Nodup)
    {e : String × α} (member : e ∈ l) : last? e.1 l = some e.2 := by
  induction l using List.reverseRecOn with
  | nil => cases member
  | append_singleton l final ih =>
    rw [List.map_append, List.nodup_append] at distinct
    obtain ⟨before, -, apart⟩ := distinct
    rw [last_concat]
    rcases List.mem_append.mp member with earlier | here
    · have differs : e.1 ≠ final.1 :=
        apart e.1 (List.mem_map_of_mem earlier) final.1 List.mem_cons_self
      rw [if_neg differs, ih before earlier]
    · rw [List.mem_singleton.mp here, if_pos rfl]

end Entries

namespace Value

def Plain : Value → Prop
  | float x => x.isFinite
  | json (.array _) => True
  | json (.object _) => True
  | null => True
  | bool _ => True
  | int _ => True
  | text _ => True
  | _ => False

theorem of_json_whole {n : Int} {range : Json.WholeRange n} (fits : n ≤ Int64.maxValue.toInt) :
    ofJson (.number (.whole n range)) = int (Int64.ofInt n) := if_pos fits

theorem of_json_above {n : Int} {range : Json.WholeRange n} (above : Int64.maxValue.toInt < n) :
    ofJson (.number (.whole n range)) = float n.toNat.toUInt64.toFloat :=
  if_neg (Int.not_le.mpr above)

theorem to_json_of_json (j : Json) : (ofJson j).toJson = j ↔ ¬j.Above := by
  cases j with
  | null | bool b | text s | array items | object members => exact ⟨fun _ => id, fun _ => rfl⟩
  | number n =>
    cases n with
    | float x finite => exact ⟨fun _ => id, fun _ => Json.float_of_finite finite⟩
    | whole n range =>
      constructor
      · intro same above
        rw [of_json_above above] at same
        exact Json.float_ne_whole _ n range same
      · intro within
        have fits : n ≤ Int64.maxValue.toInt := Int.not_lt.mp within
        have kept : (Int64.ofInt n).toInt = n :=
          Int64.toInt_ofInt_of_le range.1 (Int.lt_of_le_of_lt fits (by decide))
        rw [of_json_whole fits, toJson, kept, Json.int_of_range range]

theorem of_json_int (n : Int64) : ofJson (.int n.toInt) = int n := by
  rw [Json.int_of_range (Json.whole_range_of_int64 n), of_json_whole n.toInt_le, Int64.ofInt_toInt]

theorem of_json_float (x : Float) : ofJson (.float x) = float x ↔ x.isFinite := by
  by_cases finite : x.isFinite
  · exact iff_of_true (by rw [Json.float_of_finite finite]; rfl) finite
  · refine iff_of_false ?_ finite
    rw [Json.float_of_not finite]
    exact nofun

-- No JSON stays JSON but arrays and objects.
theorem of_json_same (j : Json) : ofJson j = json j ↔ (json j).Plain := by
  cases j with
  | array items | object members => exact iff_of_true rfl trivial
  | null | bool b | text s => exact iff_of_false nofun nofun
  | number n =>
    refine iff_of_false ?_ nofun
    cases n with
    | float x finite => exact nofun
    | whole n range =>
      rw [ofJson]
      split <;> exact nofun

theorem of_json_to_json (v : Value) : ofJson v.toJson = v ↔ v.Plain := by
  cases v with
  | null | bool b | text s => exact iff_of_true rfl trivial
  | int n => exact iff_of_true (of_json_int n) trivial
  | float x => exact of_json_float x
  | json j => exact of_json_same j
  | timestamp t | blob bytes => exact iff_of_false nofun id

end Value

namespace Params

def givings (members : List (String × Json)) : List Giving :=
  members.map fun m => .extend m.1 (Value.ofJson m.2)

theorem of_json_object (members : List (String × Json)) :
    ofJson? (.object members) = some (after (givings members)) := by
  rw [ofJson?, ofList, after, givings, List.foldl_map, List.foldl_map]
  rfl

theorem givings_entries {members : List (String × Json)}
    (plain : ∀ m ∈ members, m.1.toList.head? ≠ some ':') :
    (givings members).map Giving.entry = members.map fun m => (m.1, Value.ofJson m.2) := by
  rw [givings, List.map_map]
  refine List.map_congr_left fun m member => ?_
  have bare : bareName m.1 = m.1 := bare_name_plain (plain m member)
  exact congrArg (·, Value.ofJson m.2) bare

theorem givings_keys {members : List (String × Json)}
    (plain : ∀ m ∈ members, m.1.toList.head? ≠ some ':') :
    (givings members).map Giving.key = members.map (·.1) := by
  have entries := congrArg (List.map (·.1)) (givings_entries plain)
  rwa [List.map_map, List.map_map] at entries

theorem last_given_members {members : List (String × Json)}
    (plain : ∀ m ∈ members, m.1.toList.head? ≠ some ':') (name : String) :
    lastGiven (givings members) name = (Entries.last? name members).map Value.ofJson := by
  rw [lastGiven, givings_entries plain, Entries.last_map]

end Params

-- From JSON and back for exactly the values that JSON has and that have JSON of their own, at any
-- depth; and an object's members are bound under exactly its keys.
theorem Value.json_round_trip :
    (∀ j : Json, (ofJson j).toJson = j ↔ ¬j.Above) ∧
    (∀ v : Value, ofJson v.toJson = v ↔ v.Plain) ∧
    ∀ members : List (String × Json), (∀ m ∈ members, m.1.toList.head? ≠ some ':') →
      ∃ p, Params.ofJson? (.object members) = some p ∧
        p.values.names.Perm (members.map (·.1)).dedup ∧
        (∀ name, p.values.get? name = (Entries.last? name members).map ofJson) ∧
        ((members.map (·.1)).Nodup → ∀ m ∈ members, p.get? m.1 = some (ofJson m.2)) := by
  refine ⟨to_json_of_json, of_json_to_json, fun members plain => ?_⟩
  have reads (name : String) : (Params.after (Params.givings members)).values.get? name =
      (Entries.last? name members).map ofJson := by
    rw [Params.values_after, Params.last_given_members plain]
  refine ⟨_, Params.of_json_object members, ?_, reads, ?_⟩
  · rw [← Params.givings_keys plain]
    exact Params.names_after (Params.givings members)
  · intro distinct m member
    rw [Params.get?, Params.bare_name_plain (plain m member), reads,
      Entries.last_of_distinct distinct member, Option.map_some]

theorem Value.json_round_trip_object :
    let big : Json := .number (.whole 18446744073709551615 (by decide))
    let members : List (String × Json) := [("list", .array [big, .null]), ("id", .int 7)]
    (∀ m ∈ members, m.1.toList.head? ≠ some ':') ∧ (members.map (·.1)).Nodup ∧
    (ofJson (.array [big])).toJson = .array [big] ∧ (ofJson big).toJson ≠ big ∧
    ∃ p, Params.ofJson? (.object members) = some p ∧ p.get? "id" = some (.int 7) ∧
      p.get? "list" = some (.json (.array [big, .null])) := by
  intro big members
  obtain ⟨inward, -, objects⟩ := json_round_trip
  have plain : ∀ m ∈ members, m.1.toList.head? ≠ some ':' := by
    simp only [members, List.forall_mem_cons, List.not_mem_nil, false_imp_iff, implies_true, and_true]
    decide
  have distinct : (members.map (·.1)).Nodup := by
    simp only [members, List.map_cons, List.map_nil]
    decide
  have above : big.Above := by
    change Int64.maxValue.toInt < 18446744073709551615
    decide
  obtain ⟨p, read, -, -, bound⟩ := objects members plain
  refine ⟨plain, distinct, (inward _).mpr id, fun same => (inward big).mp same above, p, read,
    ?_, bound distinct ("list", _) List.mem_cons_self⟩
  exact bound distinct ("id", .int 7) (List.mem_cons_of_mem _ List.mem_cons_self)

end SqlCatalog
