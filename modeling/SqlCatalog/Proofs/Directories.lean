import Mathlib
import SqlCatalog.Catalog.Basic
import SqlCatalog.Proofs.Action
import SqlCatalog.Proofs.JoinedPaths
import SqlCatalog.Proofs.Requests
import SqlCatalog.Proofs.Utf8Order
/-!
Adding a directory to a catalog: its own SQL files are added in the order of their names, up to the first
that cannot be added (`Catalog.directory_added`). Whatever is added, all names are identifiers.
-/
namespace SqlCatalog

/-! ### Identifiers -/

def Letter (c : Char) : Prop := 'A' ≤ c ∧ c ≤ 'Z' ∨ 'a' ≤ c ∧ c ≤ 'z' ∨ c = '_'

def Digit (c : Char) : Prop := '0' ≤ c ∧ c ≤ '9'

def Identifier (name : String) : Prop :=
  ∃ c cs, name.toList = c :: cs ∧ Letter c ∧ ∀ d ∈ cs, Letter d ∨ Digit d

theorem letter_iff (c : Char) : (c.isAlpha || c == '_') = true ↔ Letter c := by
  simp only [Letter, Char.isAlpha, Char.isUpper, Char.isLower, Bool.or_eq_true, Bool.and_eq_true,
    decide_eq_true_eq, beq_iff_eq, or_assoc]
  rfl

theorem letter_or_digit_iff (c : Char) :
    (c.isAlphanum || c == '_') = true ↔ Letter c ∨ Digit c := by
  rw [← letter_iff]
  simp only [Char.isAlphanum, Char.isDigit, Bool.or_eq_true, Bool.and_eq_true, decide_eq_true_eq,
    Digit]
  exact or_right_comm

theorem is_name_iff (name : String) : Catalog.isName name = true ↔ Identifier name := by
  unfold Catalog.isName Identifier
  cases name.toList with
  | nil => simp
  | cons c cs =>
    rw [Bool.and_eq_true, letter_iff, List.all_eq_true]
    constructor
    · rintro ⟨first, others⟩
      exact ⟨c, cs, rfl, first, fun d member => (letter_or_digit_iff d).mp (others d member)⟩
    · rintro ⟨d, ds, same, first, others⟩
      cases same
      exact ⟨first, fun d member => (letter_or_digit_iff d).mpr (others d member)⟩

instance (name : String) : Decidable (Identifier name) := decidable_of_iff _ (is_name_iff name)

theorem letter_or_digit_above {c : Char} (inside : Letter c ∨ Digit c) : '.' < c := by
  have bounds : '0' ≤ c := by
    rcases inside with (⟨above, -⟩ | ⟨above, -⟩ | rfl) | ⟨above, -⟩
    · exact Char.le_trans (by decide) above
    · exact Char.le_trans (by decide) above
    · decide
    · exact above
  exact lt_of_lt_of_le (by decide) bounds

theorem identifier_above {name : String} (identifier : Identifier name) :
    ∀ c ∈ name.toList, '.' < c := by
  obtain ⟨c, cs, characters, first, others⟩ := identifier
  rw [characters]
  intro d member
  rcases List.mem_cons.mp member with rfl | behind
  · exact letter_or_digit_above (.inl first)
  · exact letter_or_digit_above (others d behind)

theorem lt_of_append_dot {a b rest : List Char} (above : ∀ c ∈ a, '.' < c)
    (less : a ++ '.' :: rest < b ++ '.' :: rest) : a < b := by
  induction a generalizing b with
  | nil =>
    cases b with
    | nil => exact absurd less (List.lt_irrefl _)
    | cons d ds => exact List.nil_lt_cons d ds
  | cons c cs ih =>
    cases b with
    | nil =>
      have first := above c List.mem_cons_self
      rcases List.cons_lt_cons_iff.mp less with below | ⟨rfl, -⟩
      · exact absurd (lt_trans first below) (lt_irrefl _)
      · exact absurd first (lt_irrefl _)
    | cons d ds =>
      rcases List.cons_lt_cons_iff.mp less with below | ⟨rfl, behind⟩
      · exact List.cons_lt_cons_iff.mpr (.inl below)
      · have rest := ih (fun e member => above e (List.mem_cons_of_mem _ member)) behind
        exact List.cons_lt_cons_iff.mpr (.inr ⟨rfl, rest⟩)

theorem stems_lt {a b : String} (identifier : Identifier a) (less : a ++ ".sql" < b ++ ".sql") :
    a < b := by
  rw [String.lt_iff_toList_lt, String.toList_append, String.toList_append] at less
  exact String.lt_iff_toList_lt.mpr (lt_of_append_dot (identifier_above identifier) less)

/-! ### The files of a directory -/

-- A directory that can be listed, under one of its paths. No system lists a name twice or with a slash
-- in it, or anything under the empty path.
structure Directory where
  files : FileView
  path : Path
  names : List String
  listed : files.namesIn path = .ok names
  distinct : names.Nodup
  noSlash : ∀ name ∈ names, '/' ∉ name.toList
  nonempty : path.text ≠ ""

theorem merge_sort_increasing {names : List String} (distinct : names.Nodup) :
    (names.mergeSort fun a b => a ≤ b).Pairwise (· < ·) := by
  have sorted : (names.mergeSort fun a b => a ≤ b).Pairwise fun a b => decide (a ≤ b) = true :=
    List.pairwise_mergeSort (by simpa using fun a b c => String.le_trans)
      (by simpa using String.le_total) names
  have differ : (names.mergeSort fun a b => a ≤ b).Pairwise (· ≠ ·) :=
    (List.mergeSort_perm names _).nodup_iff.mpr distinct
  refine (sorted.and differ).imp ?_
  rintro a b ⟨le, other⟩
  exact lt_of_le_of_ne (by simpa using le) other

namespace Directory

variable (d : Directory)

def file (stem : String) : Path := d.path.join ⟨stem ++ ".sql"⟩

def Holds (stem : String) : Prop :=
  stem ≠ "" ∧ stem ++ ".sql" ∈ d.names ∧ d.files.hasFile (d.file stem) = true

theorem sql_name (stem : String) : stem ++ "." ++ "sql" = stem ++ ".sql" := by
  rw [String.append_assoc]
  rfl

theorem sql_name_iff (name : String) :
    Path.extension? name = some "sql" ↔ ∃ stem, stem ≠ "" ∧ name = stem ++ ".sql" := by
  rw [Path.extension_iff (by decide)]
  simp only [sql_name]

theorem cut_sql_name {stem : String} (nonempty : stem ≠ "") :
    (Path.cutName (stem ++ ".sql")).1 = stem := by
  rw [← sql_name, Path.cut_stem nonempty (by decide)]

theorem suffix_injective : Function.Injective fun stem : String => stem ++ ".sql" := by
  intro a b same
  simpa using same

theorem sql_files : ∃ stems : List String, Catalog.sqlFiles d.files d.path = .ok (stems.map d.file) ∧
    (stems.map (· ++ ".sql")).Pairwise (· < ·) ∧ ∀ stem, stem ∈ stems ↔ d.Holds stem := by
  let isSql (name : String) : Bool :=
    d.files.hasFile (d.path.join ⟨name⟩) && Path.extension? name == some "sql"
  let names := (d.names.filter isSql).mergeSort fun a b => a ≤ b
  have own (name : String) : name ∈ names ↔ name ∈ d.names ∧
      d.files.hasFile (d.path.join ⟨name⟩) = true ∧ ∃ stem, stem ≠ "" ∧ name = stem ++ ".sql" := by
    rw [List.mem_mergeSort, List.mem_filter, Bool.and_eq_true, beq_iff_eq, sql_name_iff]
  obtain ⟨stems, same⟩ : ∃ stems : List String, stems.map (· ++ ".sql") = names := by
    refine ⟨names.map fun name => (Path.cutName name).1, ?_⟩
    rw [List.map_map]
    refine (List.map_congr_left fun name member => ?_).trans (List.map_id _)
    obtain ⟨-, -, stem, nonempty, rfl⟩ := (own name).mp member
    exact congrArg (· ++ ".sql") (cut_sql_name nonempty)
  refine ⟨stems, ?_, same ▸ merge_sort_increasing (d.distinct.filter isSql), fun stem => ?_⟩
  · simp only [Catalog.sqlFiles, d.listed]
    change Except.ok (names.map fun name => d.path.join ⟨name⟩) = _
    rw [← same, List.map_map]
    rfl
  · have inside : stem ∈ stems ↔ stem ++ ".sql" ∈ stems.map (· ++ ".sql") :=
      (List.mem_map_of_injective suffix_injective).symm
    rw [inside, same, own]
    constructor
    · rintro ⟨member, file, other, nonempty, split⟩
      exact ⟨suffix_injective split ▸ nonempty, member, file⟩
    · rintro ⟨nonempty, member, file⟩
      exact ⟨member, file, stem, nonempty, rfl⟩

theorem sql_name_named {stem : String} (noSlash : '/' ∉ (stem ++ ".sql").toList) :
    Path.Named (stem ++ ".sql") := by
  have long : 4 ≤ (stem ++ ".sql").length := by
    rw [String.length_append]
    exact Nat.le_add_left 4 stem.length
  have differs (short : String) (fewer : short.length < 4) : stem ++ ".sql" ≠ short := by
    intro same
    rw [same] at long
    omega
  exact ⟨differs "" (by decide), differs "." (by decide), differs ".." (by decide), noSlash⟩

theorem file_stem {stem : String} (held : d.Holds stem) : (d.file stem).stem? = some stem := by
  obtain ⟨some, member, -⟩ := held
  have named := sql_name_named (d.noSlash _ member)
  rw [← sql_name] at named
  rw [file, ← sql_name]
  exact Path.stem_join d.nonempty named some (by decide)

end Directory

/-! ### The directories of a file system -/

theorem FileView.has_file_reached {files : FileView} {path : Path} {location : Location}
    (reached : files.resolve path = .ok location) : files.hasFile path = files.isFile location := by
  rw [hasFile, reached]

namespace FileSystem

theorem name_below_iff (location place : Location) (name : String) :
    nameBelow? location place = some name ↔ place = location ++ [name] := by
  constructor
  · intro below
    rw [nameBelow?] at below
    split at below
    · next same => rw [← same, List.dropLast_append_getLast? name below]
    · cases below
  · rintro rfl
    simp [nameBelow?]

theorem names_below_distinct (fs : FileSystem) (location : Location) :
    (fs.locations.filterMap (nameBelow? location)).Nodup := by
  refine List.Pairwise.filterMap (nameBelow? location) ?_ fs.distinct
  intro place other differ name below otherName otherBelow same
  apply differ
  rw [(name_below_iff ..).mp below, (name_below_iff ..).mp otherBelow, same]

theorem mem_names_below_iff (fs : FileSystem) (location : Location) (name : String) :
    name ∈ fs.locations.filterMap (nameBelow? location) ↔ location ++ [name] ∈ fs.locations := by
  rw [List.mem_filterMap]
  simp only [name_below_iff, exists_eq_right]

theorem node_iff (fs : FileSystem) {location : Location} (below : location ≠ []) (node : Node) :
    fs.node? location = some node ↔ (location, node) ∈ fs.entries := by
  have filled : location.isEmpty = false := by simpa using below
  rw [node?, filled, if_neg (by simp), List.lookup_eq_some_iff]
  constructor
  · rintro ⟨before, after, split, -⟩
    rw [split]
    exact List.mem_append_right before List.mem_cons_self
  · intro member
    obtain ⟨before, after, split⟩ := List.append_of_mem member
    refine ⟨before, after, split, fun e earlier => ?_⟩
    have distinct := fs.distinct
    rw [split, List.map_append, List.map_cons, List.nodup_append] at distinct
    have differs := distinct.2.2 e.1 (List.mem_map_of_mem earlier) location List.mem_cons_self
    simpa using Ne.symm differs

def Clean (fs : FileSystem) : Prop :=
  ∀ place ∈ fs.locations, ∀ name ∈ place, '/' ∉ name.toList ∧ '\x00' ∉ name.toList

instance (fs : FileSystem) : Decidable fs.Clean := inferInstanceAs (Decidable (∀ place ∈ _, _))

def directory (fs : FileSystem) (path : Path) (location : Location) (clean : fs.Clean)
    (leads : fs.resolve path = .ok location) (directory : fs.node? location = some .directory) :
    Directory where
  files := fs
  path := path
  names := fs.locations.filterMap (nameBelow? location)
  listed := by
    have listed : fs.namesAt location = .ok (fs.locations.filterMap (nameBelow? location)) := by
      rw [namesAt, directory]
    rw [FileView.namesIn, ← listed]
    change fs.resolve path >>= fs.namesAt = _
    rw [leads]
    rfl
  distinct := names_below_distinct fs location
  noSlash := fun name below =>
    (clean _ ((mem_names_below_iff fs location name).mp below) name (by simp)).1
  nonempty := (resolve_ok leads).2.1

section Directory

variable {fs : FileSystem} {path : Path} {location : Location} (clean : fs.Clean)
  (leads : fs.resolve path = .ok location) (directory : fs.node? location = some .directory)

theorem directory_has_file {stem : String} {node : Node}
    (found : fs.node? (location ++ [stem ++ ".sql"]) = some node) :
    fs.view.hasFile ((fs.directory path location clean leads directory).file stem) =
      fs.isFile (location ++ [stem ++ ".sql"]) := by
  have member := List.mem_map_of_mem (f := (·.1)) ((fs.node_iff (by simp) node).mp found)
  obtain ⟨noSlash, noNul⟩ := clean _ member (stem ++ ".sql") (by simp)
  have reached : fs.resolve (path.join ⟨stem ++ ".sql"⟩) = .ok (location ++ [stem ++ ".sql"]) :=
    resolve_join leads directory (Directory.sql_name_named noSlash) noNul (by rw [found]; rfl)
  exact FileView.has_file_reached reached

theorem directory_holds_iff (stem : String) :
    (fs.directory path location clean leads directory).Holds stem ↔
      stem ≠ "" ∧ ∃ bytes, fs.node? (location ++ [stem ++ ".sql"]) = some (.file bytes) := by
  have below : location ++ [stem ++ ".sql"] ≠ [] := by simp
  refine and_congr_right fun _ => ?_
  constructor
  · rintro ⟨member, file⟩
    have present := (mem_names_below_iff fs location _).mp member
    obtain ⟨⟨place, node⟩, inside, same⟩ := List.mem_map.mp present
    have found := (fs.node_iff below node).mpr (same ▸ inside)
    have isFile := (directory_has_file clean leads directory found).symm.trans file
    rw [FileSystem.isFile, found] at isFile
    cases node with
    | directory => cases isFile
    | file bytes => exact ⟨bytes, found⟩
  · rintro ⟨bytes, found⟩
    have member := List.mem_map_of_mem (f := (·.1)) ((fs.node_iff below _).mp found)
    refine ⟨(mem_names_below_iff fs location _).mpr member, ?_⟩
    refine (directory_has_file clean leads directory found).trans ?_
    rw [isFile, found]

end Directory

end FileSystem

/-! ### One file -/

def Compiler.entry (compiler : Compiler) (files : FileView) (name : String) (source : SqlSource)
    (lazy : Bool) : Except Failure Entry :=
  if lazy then .ok (.waiting source) else (compiler.compile files name source).map .compiled

-- What the file of a stem comes to: the stem must be an identifier, the file a text and, unless it waits,
-- a source that compiles.
def Directory.entry (d : Directory) (compiler : Compiler) (includeDir : Option Path) (lazy : Bool)
    (stem : String) : Except Failure Entry :=
  if Identifier stem then
    match d.files.readText (d.file stem) with
    | .ok text =>
      compiler.entry d.files stem
        ⟨text, (d.file stem).text, includeDir.or (d.file stem).parent?⟩ lazy
    | .error problem => .error (.unreadable (d.file stem) problem)
  else .error (.setup (.invalidName stem))

namespace Catalog

variable {σ ν : Type}

def names (s : Catalog σ ν) : List String := s.rest.inventory.names

def withEntry (s : Catalog σ ν) (name : String) (entry : Entry) : Catalog σ ν :=
  { s with
    warnings := s.warnings ++ (s.rest.inventory.put name entry).2.toList
    rest := { s.rest with inventory := (s.rest.inventory.put name entry).1 } }

theorem with_entry_compiler (s : Catalog σ ν) (name : String) (entry : Entry) :
    (s.withEntry name entry).rest.inventory.compiler = s.rest.inventory.compiler :=
  (Inventory.put_frame s.rest.inventory name entry).2.1

theorem with_entry_get (s : Catalog σ ν) (name : String) (entry : Entry) (other : String) :
    (s.withEntry name entry).rest.inventory.entries.get? other =
      if other = name then some entry else s.rest.inventory.entries.get? other := by
  have put := (Inventory.put_frame s.rest.inventory name entry).1
  rw [withEntry, put, NameMap.get?_insert]

theorem mem_names_iff (s : Catalog σ ν) (name : String) :
    name ∈ s.names ↔ (s.rest.inventory.entries.get? name).isSome :=
  NameMap.mem_names_iff s.rest.inventory.entries name

theorem add_source_eq (files : FileView) (name : String) (source : SqlSource) (lazy : Bool)
    (s : Catalog σ ν) :
    addSource files name source lazy s =
      match s.rest.inventory.compiler.entry files name
        { source with base := s.rest.options.includeDir.or source.base } lazy with
      | .ok entry => (.done (), s.withEntry name entry)
      | .error failure => (.failed failure, s) := by
  simp only [addSource, Action.bind_apply, Action.gets, onInventory, Inventory.add, Compiler.entry]
  cases lazy with
  | true => rfl
  | false =>
    simp only [Bool.false_eq_true, if_false]
    cases s.rest.inventory.compiler.compile files name
      { source with base := s.rest.options.includeDir.or source.base } <;> rfl

theorem add_file_of_directory (d : Directory) (lazy : Bool) (s : Catalog σ ν) {stem : String}
    (held : d.Holds stem) :
    addFile d.files (d.file stem) none lazy s =
      match d.entry s.rest.inventory.compiler s.rest.options.includeDir lazy stem with
      | .ok entry => (.done stem, s.withEntry stem entry)
      | .error failure => (.failed failure, s) := by
  have name : nameFor (d.file stem) none = .ok stem := by
    rw [nameFor, Option.none_or, d.file_stem held]
  by_cases identifier : Identifier stem
  · have valid : checkName stem = .ok () := if_pos ((is_name_iff stem).mpr identifier)
    rw [addFile, name, Action.of_except_ok_bind, valid, Action.of_except_ok_bind, SqlSource.ofFile,
      Directory.entry, if_pos identifier]
    cases d.files.readText (d.file stem) with
    | error problem => rfl
    | ok text =>
      rw [Action.of_except_ok_bind, Action.bind_apply, add_source_eq]
      dsimp only
      cases s.rest.inventory.compiler.entry d.files stem
        ⟨text, (d.file stem).text, s.rest.options.includeDir.or (d.file stem).parent?⟩ lazy <;> rfl
  · have invalid : checkName stem = .error (.setup (.invalidName stem)) :=
      if_neg (mt (is_name_iff stem).mp identifier)
    rw [addFile, name, Action.of_except_ok_bind, invalid, Directory.entry, if_neg identifier]
    rfl

/-! ### All files of a directory -/

structure Added (d : Directory) (lazy : Bool) (s after : Catalog σ ν) (stems : List String) : Prop where
  entries : ∀ stem ∈ stems, ∃ entry,
    d.entry s.rest.inventory.compiler s.rest.options.includeDir lazy stem = .ok entry ∧
      after.rest.inventory.entries.get? stem = some entry
  others : ∀ name, name ∉ stems →
    after.rest.inventory.entries.get? name = s.rest.inventory.entries.get? name

section Added

variable {d : Directory} {lazy : Bool} {s after : Catalog σ ν} {stems : List String}

theorem added_nil (s : Catalog σ ν) : Added d lazy s s [] := ⟨nofun, fun _ _ => rfl⟩

theorem added_cons {stem : String} {entry : Entry}
    (made : d.entry s.rest.inventory.compiler s.rest.options.includeDir lazy stem = .ok entry)
    (rest : Added d lazy (s.withEntry stem entry) after stems) :
    Added d lazy s after (stem :: stems) := by
  have later := rest.entries
  rw [with_entry_compiler] at later
  constructor
  · intro other member
    by_cases again : other ∈ stems
    · exact later other again
    · rcases List.mem_cons.mp member with rfl | behind
      · exact ⟨entry, made, by rw [rest.others other again, with_entry_get, if_pos rfl]⟩
      · exact absurd behind again
  · intro name outside
    rw [List.mem_cons, not_or] at outside
    rw [rest.others name outside.2, with_entry_get, if_neg outside.1]

theorem entry_identifier {compiler : Compiler} {includeDir : Option Path} {stem : String}
    {entry : Entry} (made : d.entry compiler includeDir lazy stem = .ok entry) :
    Identifier stem := by
  by_contra other
  rw [Directory.entry, if_neg other] at made
  cases made

theorem added_increasing (added : Added d lazy s after stems)
    (ordered : (stems.map (· ++ ".sql")).Pairwise (· < ·)) : stems.Pairwise (· < ·) := by
  refine (List.pairwise_map.mp ordered).imp_of_mem fun {a b} member _ less => ?_
  obtain ⟨entry, made, -⟩ := added.entries a member
  exact stems_lt (entry_identifier made) less

theorem added_names (added : Added d lazy s after stems) (fresh : s.names = [])
    (ordered : (stems.map (· ++ ".sql")).Pairwise (· < ·)) : after.names = stems := by
  refine List.Pairwise.eq_of_mem_iff after.rest.inventory.entries.names_increasing
    (added_increasing added ordered) fun name => ?_
  rw [mem_names_iff]
  constructor
  · intro held
    by_contra outside
    rw [added.others name outside, ← mem_names_iff, fresh] at held
    cases held
  · intro member
    obtain ⟨entry, -, held⟩ := added.entries name member
    rw [held]
    rfl

theorem add_directory_eq (d : Directory) (lazy : Bool) {stems : List String}
    (found : sqlFiles d.files d.path = .ok (stems.map d.file)) (s : Catalog σ ν) :
    addDirectory d.files d.path lazy s =
      Action.each (fun path => addFile d.files path none lazy) (stems.map d.file) s := by
  rw [addDirectory, found, Action.of_except_ok_bind]

-- The induction is on the files: the first is added or ends the run, and the others follow from the
-- catalog that holds it.
theorem files_added (d : Directory) (lazy : Bool) (stems : List String) (s : Catalog σ ν)
    (held : ∀ stem ∈ stems, d.Holds stem) :
    (∃ after, Action.each (fun path => addFile d.files path none lazy) (stems.map d.file) s =
        (.done stems, after) ∧ Added d lazy s after stems) ∨
    ∃ before stem rest failure after, stems = before ++ stem :: rest ∧
      Action.each (fun path => addFile d.files path none lazy) (stems.map d.file) s =
        (.failed failure, after) ∧
      d.entry s.rest.inventory.compiler s.rest.options.includeDir lazy stem = .error failure ∧
      Added d lazy s after before := by
  induction stems generalizing s with
  | nil => exact .inl ⟨s, rfl, added_nil s⟩
  | cons stem rest ih =>
    have first := add_file_of_directory d lazy s (held stem List.mem_cons_self)
    rw [List.map_cons]
    cases made : d.entry s.rest.inventory.compiler s.rest.options.includeDir lazy stem with
    | error failure =>
      rw [made] at first
      exact .inr ⟨[], stem, rest, failure, s, rfl, Action.each_cons_failed _ _ first, made,
        added_nil s⟩
    | ok entry =>
      rw [made] at first
      have others := ih (s.withEntry stem entry) fun other member =>
        held other (List.mem_cons_of_mem stem member)
      rw [with_entry_compiler] at others
      rw [Action.each_cons (fun path => addFile d.files path none lazy) (rest.map d.file) first]
      rcases others with ⟨after, ran, added⟩ |
        ⟨before, last, behind, failure, after, split, ran, failed, added⟩
      · rw [ran]
        exact .inl ⟨after, rfl, added_cons made added⟩
      · rw [ran]
        exact .inr ⟨stem :: before, last, behind, failure, after, by rw [split]; rfl, rfl, failed,
          added_cons made added⟩

end Added

/-! ### What adding keeps -/

section Keeps

variable {P : Catalog σ ν → Prop} (files : FileView)

theorem add_source_keeps {name : String} (kept : ∀ s entry, P s → P (s.withEntry name entry))
    (source : SqlSource) (lazy : Bool) :
    Action.Leads P (addSource files name source lazy : Action (Catalog σ ν) Unit) (fun _ => P) P := by
  intro s holds
  rw [add_source_eq]
  cases s.rest.inventory.compiler.entry files name
      { source with base := s.rest.options.includeDir.or source.base } lazy with
  | error failure => exact holds
  | ok entry => exact kept s entry holds

theorem identifier_of_check {name : String} (valid : checkName name = .ok ()) : Identifier name := by
  unfold checkName at valid
  split at valid
  · rename_i isName
    exact (is_name_iff name).mp isName
  · cases valid

variable (kept : ∀ s name entry, Identifier name → P s → P (s.withEntry name entry))

include kept

theorem add_text_keeps (name sql : String) (lazy : Bool) :
    Action.Leads P (addText files name sql lazy : Action (Catalog σ ν) Unit) (fun _ => P) P := by
  refine Action.leads_checked (fun _ holds => holds) fun _ valid => ?_
  exact add_source_keeps files (fun s entry => kept s name entry (identifier_of_check valid)) _ lazy

theorem add_file_keeps (path : Path) (name : Option String) (lazy : Bool) :
    Action.Leads P (addFile files path name lazy : Action (Catalog σ ν) String) (fun _ => P) P := by
  refine Action.leads_checked (fun _ holds => holds) fun name _ => ?_
  refine Action.leads_checked (fun _ holds => holds) fun _ valid => ?_
  refine Action.leads_checked (fun _ holds => holds) fun source _ => ?_
  refine Action.leads_bind (add_source_keeps files
    (fun s entry => kept s name entry (identifier_of_check valid)) source lazy) fun _ => ?_
  exact Action.leads_pure name fun _ holds => holds

theorem add_directory_keeps (dir : Path) (lazy : Bool) :
    Action.Leads P (addDirectory files dir lazy : Action (Catalog σ ν) (List String))
      (fun _ => P) P := by
  refine Action.leads_checked (fun _ holds => holds) fun paths _ => ?_
  exact Action.leads_each _ paths fun path _ => add_file_keeps files kept path none lazy

end Keeps

/-! ### Names -/

inductive Adding where
  | text (name sql : String) (lazy : Bool)
  | file (path : Path) (name : Option String) (lazy : Bool)
  | directory (dir : Path) (lazy : Bool)

def Adding.after (files : FileView) (s : Catalog σ ν) : Adding → Catalog σ ν
  | .text name sql lazy => (addText files name sql lazy s).2
  | .file path name lazy => (addFile files path name lazy s).2
  | .directory dir lazy => (addDirectory files dir lazy s).2

def afterAll (s : Catalog σ ν) (history : List (FileView × Adding)) : Catalog σ ν :=
  history.foldl (fun s step => step.2.after step.1 s) s

def Identified (known : List String) (s : Catalog σ ν) : Prop :=
  ∀ name ∈ s.names, name ∈ known ∨ Identifier name

theorem identified_entry {known : List String} (s : Catalog σ ν) (name : String) (entry : Entry)
    (identifier : Identifier name) (holds : Identified known s) :
    Identified known (s.withEntry name entry) := by
  intro other member
  rw [mem_names_iff, with_entry_get] at member
  split at member
  · rename_i same
    exact .inr (same ▸ identifier)
  · exact holds other ((mem_names_iff s other).mpr member)

theorem identified_step {known : List String} (files : FileView) {s : Catalog σ ν}
    (holds : Identified known s) (step : Adding) : Identified known (step.after files s) := by
  cases step with
  | text name sql lazy =>
    exact Action.leads_state (add_text_keeps files identified_entry name sql lazy) holds
  | file path name lazy =>
    exact Action.leads_state (add_file_keeps files identified_entry path name lazy) holds
  | directory dir lazy =>
    exact Action.leads_state (add_directory_keeps files identified_entry dir lazy) holds

theorem identified_all {known : List String} {s : Catalog σ ν} (holds : Identified known s)
    (history : List (FileView × Adding)) : Identified known (s.afterAll history) := by
  induction history generalizing s with
  | nil => exact holds
  | cons step rest ih => exact ih (identified_step step.1 holds step.2)

-- The stems are those of the directory's own SQL files, in the order of the bytes of the files' names:
-- all are added, or those in front of the first that cannot be.
theorem directory_added (d : Directory) (lazy : Bool) (s : Catalog σ ν) (fresh : s.names = []) :
    (∃ stems : List String,
      (stems.map (· ++ ".sql")).Pairwise (fun a b => Text.utf8 a < Text.utf8 b) ∧
      (∀ stem, stem ∈ stems ↔ d.Holds stem) ∧
      ((∃ after, addDirectory d.files d.path lazy s = (.done stems, after) ∧
          stems.Pairwise (fun a b => Text.utf8 a < Text.utf8 b) ∧ after.names = stems ∧
          Added d lazy s after stems) ∨
        ∃ before stem rest failure after, stems = before ++ stem :: rest ∧
          addDirectory d.files d.path lazy s = (.failed failure, after) ∧
          d.entry s.rest.inventory.compiler s.rest.options.includeDir lazy stem = .error failure ∧
          after.names = before ∧ Added d lazy s after before)) ∧
    ∀ (t : Catalog σ ν) (history : List (FileView × Adding)),
      ∀ name ∈ (t.afterAll history).names, name ∈ t.names ∨ Identifier name := by
  refine ⟨?_, fun t history => identified_all (fun _ member => .inl member) history⟩
  obtain ⟨stems, found, ordered, own⟩ := d.sql_files
  refine ⟨stems, ordered.imp Text.utf8_lt, own, ?_⟩
  rw [add_directory_eq d lazy found s]
  rcases files_added d lazy stems s fun stem member => (own stem).mp member with
    ⟨after, ran, added⟩ | ⟨before, stem, rest, failure, after, split, ran, failed, added⟩
  · have increasing := (added_increasing added ordered).imp Text.utf8_lt
    exact .inl ⟨after, ran, increasing, added_names added fresh ordered, added⟩
  · have front : (before.map (· ++ ".sql")).Pairwise (· < ·) := by
      rw [split, List.map_append] at ordered
      exact (List.pairwise_append.mp ordered).1
    exact .inr ⟨before, stem, rest, failure, after, split, ran, failed,
      added_names added fresh front, added⟩

-- Two files that are added, where the one's stem begins the other's and the other is a link to a text
-- elsewhere, and what is not added: a name that begins with its only dot, another extension, and a
-- directory.
def shelf : Directory where
  files :=
    { resolve := fun path =>
        if path.text = "d/" then .ok ["d"]
        else if path.text = "d/a.sql" then .ok ["d", "a.sql"]
        else if path.text = "d/a1.sql" ∨ path.text = "d/.sql" ∨ path.text = "d/notes.txt" then
          .ok ["b"]
        else if path.text = "d/sub.sql" then .ok ["d", "sub.sql"]
        else .error .notFound
      textAt := fun location =>
        if location = ["d", "a.sql"] ∨ location = ["b"] then .ok "SELECT 1"
        else .error .isADirectory
      isFile := fun location => location = ["d", "a.sql"] ∨ location = ["b"]
      namesAt := fun location =>
        if location = ["d"] then .ok ["a1.sql", "a.sql", ".sql", "notes.txt", "sub.sql"]
        else .error .notADirectory
      locations := [["d", "a.sql"], ["b"]]
      distinct := by decide
      mem_locations := by
        intro location
        split <;> simp_all }
  path := ⟨"d/"⟩
  names := ["a1.sql", "a.sql", ".sql", "notes.txt", "sub.sql"]
  listed := rfl
  distinct := by decide
  noSlash := by decide
  nonempty := by decide

def unfilled : Catalog Unit Unit := .start () ⟨.empty ⟨.sqlite, .sqlite⟩ none, .standard, ()⟩

theorem shelf_holds (stem : String) : shelf.Holds stem ↔ stem = "a" ∨ stem = "a1" := by
  have cut (short : String) : stem ++ ".sql" = short ++ ".sql" ↔ stem = short :=
    Directory.suffix_injective.eq_iff
  have notes : stem ++ ".sql" ≠ "notes.txt" := by
    intro same
    have last := congrArg (fun name : String => name.toList.getLast?) same
    simp at last
  have names : stem ++ ".sql" ∈ shelf.names ↔
      stem = "a1" ∨ stem = "a" ∨ stem = "" ∨ stem = "sub" := by
    rw [← cut "a1", ← cut "a", ← cut "", ← cut "sub"]
    simp [shelf, notes]
  have directory : shelf.files.hasFile (shelf.file "sub") = false := by decide +kernel
  have file : ∀ own ∈ ["a", "a1"], shelf.files.hasFile (shelf.file own) = true := by
    decide +kernel
  rw [Directory.Holds, names]
  constructor
  · rintro ⟨some, rfl | rfl | rfl | rfl, held⟩
    · exact .inr rfl
    · exact .inl rfl
    · exact absurd rfl some
    · cases directory.symm.trans held
  · rintro (rfl | rfl)
    · exact ⟨by decide, .inr (.inl rfl), file "a" (by simp)⟩
    · exact ⟨by decide, .inl rfl, file "a1" (by simp)⟩

theorem directory_added_shelf :
    unfilled.names = [] ∧ ∃ after,
      addDirectory shelf.files ⟨"d/"⟩ true unfilled = (.done after.names, after) ∧
      ∀ name, name ∈ after.names ↔ name = "a" ∨ name = "a1" := by
  have fresh : unfilled.names = [] := rfl
  have text : ∀ own ∈ ["a", "a1"], shelf.files.readText (shelf.file own) = .ok "SELECT 1" := by
    decide +kernel
  have made (stem : String) (own : stem = "a" ∨ stem = "a1") :
      ∃ entry, shelf.entry ⟨.sqlite, .sqlite⟩ none true stem = .ok entry := by
    have identifier : Identifier stem := by
      rcases own with rfl | rfl <;> decide
    rw [Directory.entry, if_pos identifier, text stem (by simpa using own)]
    exact ⟨_, rfl⟩
  obtain ⟨⟨stems, -, own, runs⟩, -⟩ := directory_added shelf true unfilled fresh
  refine ⟨fresh, ?_⟩
  rcases runs with ⟨after, ran, -, names, -⟩ | ⟨before, stem, rest, failure, -, split, -, failed, -⟩
  · refine ⟨after, names.symm ▸ ran, fun name => ?_⟩
    rw [names, own, shelf_holds]
  · have held : shelf.Holds stem := (own stem).mp (by rw [split]; simp)
    obtain ⟨entry, kept⟩ := made stem ((shelf_holds stem).mp held)
    exact absurd (failed.symm.trans kept) (by simp)

end Catalog
end SqlCatalog
