import SqlCatalog.CommandLine.Run
import SqlCatalog.Proofs.Batches
import SqlCatalog.Proofs.Capacity
import SqlCatalog.Proofs.Directories
import SqlCatalog.Proofs.NestedScopes
/-!
The initial file of the command. It becomes an operation under a name of its own, which is called once and
removed, so what the command goes on with are the operations of the directory; they are all there unless
a file of the directory has that name too (`CommandLine.initial_file_frame`).
-/
namespace SqlCatalog

/-! ### An entry that is put in and taken out again -/

namespace Inventory

-- The count and the mark follow from the entries.
theorem counted_unique {inv other : Inventory} (counted : Counted inv) (countedToo : Counted other)
    (entries : inv.entries = other.entries) (compiler : inv.compiler = other.compiler)
    (capacity : inv.capacity = other.capacity) : inv = other := by
  have number : inv.compiledNames.length = other.compiledNames.length := by
    rw [compiled_names_length, compiled_names_length, entries]
  have count : inv.compiledCount = other.compiledCount := by
    rw [counted.count, countedToo.count, number]
  have exceeded : inv.exceeded = other.exceeded := by
    rw [counted.exceeded, countedToo.exceeded, number, capacity]
  cases inv
  cases other
  simp_all

theorem remove_put {inv : Inventory} {name : String} (counted : Counted inv)
    (absent : inv.entries.get? name = none) (entry : Entry) :
    ((inv.put name entry).1.remove name).2 = inv := by
  obtain ⟨put, compiler, capacity⟩ := inv.put_frame name entry
  obtain ⟨removed, compilerToo, capacityToo⟩ := (inv.put name entry).1.remove_frame name
  refine counted_unique (remove_counted (put_counted counted name entry).1 name) counted ?_
    (compilerToo.trans compiler) (capacityToo.trans capacity)
  rw [removed, put, NameMap.erase_insert entry absent]

theorem get_remove_put (inv : Inventory) (name : String) (entry : Entry) (other : String) :
    ((inv.put name entry).1.remove name).2.entries.get? other =
      if other = name then none else inv.entries.get? other := by
  rw [(remove_frame _ name).1, NameMap.get?_erase, (put_frame inv name entry).1, NameMap.get?_insert]
  split <;> rfl

end Inventory

namespace Catalog

variable {σ ν α : Type}

open Session

theorem transaction_on_connection (e : Engine σ) (action : Action σ α) {s t : Catalog σ ν}
    (idle : s.scope = .idle) (scope : t.scope = s.scope) (connection : t.connection = s.connection) :
    (Session.transaction e (onConnection action) t).1 =
        (Session.transaction e (onConnection action) s).1 ∧
      (Session.transaction e (onConnection action) t).2.connection =
        (Session.transaction e (onConnection action) s).2.connection ∧
      (Session.transaction e (onConnection action) t).2.rest = t.rest := by
  by_cases refused : Refused e s
  · rw [transaction_refused_alike e _ (onConnection action) connection scope idle refused,
      transaction_refused_alike e (onConnection action) (onConnection action) rfl rfl idle refused]
    exact ⟨rfl, rfl, rfl⟩
  · have accepted : ¬ Refused e t := by rwa [Refused, connection]
    rw [transaction_opened e _ s idle refused, transaction_opened e _ t (scope.trans idle) accepted]
    have same : (opened e t).connection = (opened e s).connection := by
      simp only [opened, connection]
    have body : (onConnection action (opened e t)).1 = (onConnection action (opened e s)).1 ∧
        (onConnection action (opened e t)).2.connection =
          (onConnection action (opened e s)).2.connection := by
      simp only [onConnection, same, and_self]
    obtain ⟨ended, left, kept⟩ := close_scope_alike e (onConnection action (opened e s)).1 body.2
    rw [body.1]
    exact ⟨ended, left, kept⟩

end Catalog

namespace CommandLine

open Session

/-! ### The catalog of a directory -/

section Opening

variable {σ : Type} (e : Engine σ) (r : Request) (connection : σ)

def compilerOf : Compiler := ⟨r.dialect, e.style connection⟩

def unfilled : Shelf σ :=
  .start connection ⟨.empty (compilerOf e r connection)
    (some ((e.cacheCapacity connection).getD Catalog.standardCapacity)), optionsOf r, ()⟩

theorem catalog_directory {dir : Path} (files : FileView) (own : r.sqlDir = some dir) :
    catalog e files r connection =
      match Catalog.addDirectory files dir r.lazy (unfilled e r connection) with
      | (.failed failure, _) => .error failure
      | (_, s) => .ok s := by
  have slots : (optionsOf r).cacheCapacity ≠ some 0 := by simp [optionsOf]
  have directory : (optionsOf r).sqlDir = some dir := own
  have lazy : (optionsOf r).lazy = r.lazy := rfl
  have bare : Session.start connection ⟨.empty ⟨(optionsOf r).dialect, e.style connection⟩
      (some (((optionsOf r).cacheCapacity.or (e.cacheCapacity connection)).getD
        Catalog.standardCapacity)), optionsOf r, ()⟩ = unfilled e r connection := rfl
  rw [catalog, Catalog.open?, if_neg slots, directory]
  dsimp only
  rw [bare, lazy]
  rcases Catalog.addDirectory files dir r.lazy (unfilled e r connection) with ⟨outcome, s⟩
  cases outcome <;> rfl

-- What adding operations leaves as it is, besides counting them right.
structure Ready (s : Shelf σ) : Prop where
  counted : s.rest.inventory.Counted
  compiler : s.rest.inventory.compiler = compilerOf e r connection
  options : s.rest.options = optionsOf r
  scope : s.scope = .idle
  connection : s.connection = connection

theorem unfilled_ready : Ready e r connection (unfilled e r connection) :=
  ⟨Inventory.after_counted _ _ [], rfl, rfl, rfl, rfl⟩

variable {e r connection}

theorem ready_entry (s : Shelf σ) (name : String) (entry : Entry) (ready : Ready e r connection s) :
    Ready e r connection (s.withEntry name entry) where
  counted := (Inventory.put_counted ready.counted name entry).1
  compiler := (Catalog.with_entry_compiler s name entry).trans ready.compiler
  options := ready.options
  scope := ready.scope
  connection := ready.connection

variable {d : Directory} {s : Shelf σ}

theorem catalog_cases (e : Engine σ) (connection : σ) (own : r.sqlDir = some d.path) :
    ∃ stems : List String, (∀ stem, stem ∈ stems ↔ d.Holds stem) ∧
      ((∃ s, catalog e d.files r connection = .ok s ∧ Ready e r connection s ∧
          Catalog.Added d r.lazy (unfilled e r connection) s stems) ∨
        ∃ stem ∈ stems, ∃ failure, catalog e d.files r connection = .error failure ∧
          d.entry (compilerOf e r connection) r.includeDir r.lazy stem = .error failure) := by
  obtain ⟨stems, found, -, holds⟩ := d.sql_files
  have kept := Catalog.add_directory_keeps d.files (fun s name entry _ => ready_entry s name entry)
    d.path r.lazy _ (unfilled_ready e r connection)
  have runs := Catalog.add_directory_eq d r.lazy found (unfilled e r connection)
  refine ⟨stems, holds, ?_⟩
  rw [catalog_directory e r connection d.files own, runs]
  rw [runs] at kept
  rcases Catalog.files_added d r.lazy stems (unfilled e r connection)
      fun stem member => (holds stem).mp member with
    ⟨s, all, added⟩ | ⟨before, stem, rest, failure, s, split, stopped, made, -⟩
  · rw [all] at kept ⊢
    exact .inl ⟨s, rfl, kept, added⟩
  · rw [stopped]
    exact .inr ⟨stem, by simp [split], failure, rfl, made⟩

theorem opened_added (own : r.sqlDir = some d.path) (opened : catalog e d.files r connection = .ok s) :
    Ready e r connection s ∧ ∃ stems : List String, (∀ stem, stem ∈ stems ↔ d.Holds stem) ∧
      Catalog.Added d r.lazy (unfilled e r connection) s stems := by
  obtain ⟨stems, holds, ⟨after, same, ready, added⟩ | ⟨stem, -, failure, fails, -⟩⟩ :=
    catalog_cases e connection own
  · cases same.symm.trans opened
    exact ⟨ready, stems, holds, added⟩
  · cases fails.symm.trans opened

theorem opened_names (own : r.sqlDir = some d.path) (opened : catalog e d.files r connection = .ok s)
    (name : String) : name ∈ s.names ↔ d.Holds name := by
  obtain ⟨-, stems, holds, added⟩ := opened_added own opened
  rw [Catalog.mem_names_iff, ← holds]
  by_cases member : name ∈ stems
  · obtain ⟨entry, -, present⟩ := added.entries name member
    simp [present, member]
  · rw [added.others name member]
    simp only [member, iff_false]
    exact nofun

theorem opened_entry (own : r.sqlDir = some d.path) (opened : catalog e d.files r connection = .ok s)
    {name : String} {entry : Entry} (present : s.rest.inventory.entries.get? name = some entry) :
    d.entry (compilerOf e r connection) r.includeDir r.lazy name = .ok entry := by
  obtain ⟨-, stems, -, added⟩ := opened_added own opened
  by_cases member : name ∈ stems
  · obtain ⟨made, fits, kept⟩ := added.entries name member
    cases present.symm.trans kept
    exact fits
  · rw [added.others name member] at present
    cases present

end Opening

/-! ### The initial file -/

def initOperation (compiler : Compiler) (files : FileView) (r : Request) (path : Path) :
    Except Failure Operation := do
  let source ← SqlSource.ofFile files path
  compiler.compile files initName { source with base := r.includeDir.or source.base }

def initTransaction {σ : Type} (e : Engine σ) (op : Operation) : Action (Shelf σ) Output :=
  Session.transaction e (onConnection (op.run e (.single .empty)))

section Initial

variable {σ : Type} {e : Engine σ} {files : FileView} {r : Request} {connection : σ} {path : Path}
  {s after : Shelf σ} {op : Operation}

theorem initial_operation_added (ready : Ready e r connection s)
    (compiles : initOperation (compilerOf e r connection) files r path = .ok op) :
    Catalog.addFile files path (some initName) false s =
      (.done initName, s.withEntry initName (.compiled op)) := by
  have name : Catalog.nameFor path (some initName) = .ok initName := rfl
  have valid : Catalog.checkName initName = .ok () := by decide
  have includes : s.rest.options.includeDir = r.includeDir := by
    rw [ready.options]
    rfl
  rw [Catalog.addFile, name, Action.of_except_ok_bind, valid, Action.of_except_ok_bind]
  rw [initOperation] at compiles
  cases read : SqlSource.ofFile files path with
  | error failure =>
    rw [read] at compiles
    cases compiles
  | ok source =>
    rw [read] at compiles
    change Compiler.compile _ files initName _ = .ok op at compiles
    rw [Action.of_except_ok_bind, Action.bind_apply, Catalog.add_source_eq, Compiler.entry,
      if_neg (by decide), ready.compiler, includes, compiles]
    rfl

theorem initial_operation_called (e : Engine σ) (files : FileView) (op : Operation)
    (idle : s.scope = .idle) :
    let stored := s.withEntry initName (.compiled op)
    let called := Catalog.call e files initName (.single .empty) stored
    called.1 = (initTransaction e op s).1 ∧ called.2.scope = .idle ∧
      called.2.connection = (initTransaction e op s).2.connection ∧ called.2.rest = stored.rest := by
  intro stored called
  have held : stored.rest.inventory.entries.get? initName = some (.compiled op) := by
    rw [Catalog.with_entry_get, if_pos rfl]
  have found : Catalog.operation files initName stored = (.done op, stored) := by
    simp only [Catalog.operation, Catalog.onInventory, Inventory.get, held, Option.toList_none,
      List.append_nil]
  have same : called = initTransaction e op stored :=
    Catalog.call_transaction e files initName _ stored stored op found (by simp)
  obtain ⟨ended, left, kept⟩ := Catalog.transaction_on_connection e
    (op.run e (.single .empty)) (s := s) (t := stored) idle rfl rfl
  rw [same]
  exact ⟨ended, transaction_idle e _ stored idle, left, kept⟩

theorem run_init_done (ready : Ready e r connection s)
    (compiles : initOperation (compilerOf e r connection) files r path = .ok op)
    (runs : (initTransaction e op s).1.isDone = true) :
    ∃ after, runInit e files path s = (.done (), after) ∧ after.scope = .idle ∧
      after.connection = (initTransaction e op s).2.connection ∧
      after.rest = { s.rest with
        inventory := ((s.rest.inventory.put initName (.compiled op)).1.remove initName).2 } := by
  obtain ⟨output, answered⟩ := (Outcome.is_done_iff _).mp runs
  obtain ⟨ended, idle, left, kept⟩ := initial_operation_called e files op ready.scope
  rcases called : Catalog.call e files initName (.single .empty)
    (s.withEntry initName (.compiled op)) with ⟨outcome, final⟩
  rw [called] at ended idle left kept
  dsimp only at ended idle left kept
  rw [answered] at ended
  subst ended
  refine ⟨{ final with rest := { final.rest with
    inventory := (final.rest.inventory.remove initName).2 } }, ?_, idle, left, ?_⟩
  · rw [runInit, Action.bind_apply, initial_operation_added ready compiles]
    dsimp only
    rw [Action.bind_apply, called]
    dsimp only
    rw [Action.bind_apply]
    simp only [Catalog.remove, Catalog.onInventory, Option.toList_none, List.append_nil]
    rfl
  · dsimp only
    rw [kept]
    rfl

theorem initial_names (rest : after.rest = { s.rest with
      inventory := ((s.rest.inventory.put initName (.compiled op)).1.remove initName).2 })
    (name : String) : name ∈ after.names ↔ name ∈ s.names ∧ name ≠ initName := by
  rw [Catalog.mem_names_iff, Catalog.mem_names_iff, rest, Inventory.get_remove_put]
  by_cases reserved : name = initName <;> simp [reserved]

theorem answer_initial (named : r.init = some path) (ran : runInit e files path s = (.done (), after)) :
    answer e files r s = answer e files { r with init := none } after := by
  simp only [answer, named]
  rw [Action.bind_apply, ran]

end Initial

-- The name of the initial file's own operation is free behind it, whatever had it before; so just if a
-- file of the directory has it the command goes on with less than the directory holds.
theorem initial_file_frame {σ : Type} (e : Engine σ) (d : Directory) {r : Request} {connection : σ}
    {path : Path} {s : Shelf σ} {op : Operation} (own : r.sqlDir = some d.path)
    (named : r.init = some path) (opened : catalog e d.files r connection = .ok s)
    (compiles : initOperation (compilerOf e r connection) d.files r path = .ok op)
    (runs : (initTransaction e op s).1.isDone = true) :
    ∃ after, runInit e d.files path s = (.done (), after) ∧
      after.connection = (initTransaction e op s).2.connection ∧
      (∀ name, name ∈ after.names ↔ d.Holds name ∧ name ≠ initName) ∧
      (∀ name entry, after.rest.inventory.entries.get? name = some entry →
        d.entry (compilerOf e r connection) r.includeDir r.lazy name = .ok entry) ∧
      (after.rest = s.rest ↔ ¬ d.Holds initName) ∧
      (¬ d.Holds initName → answer e d.files r s = answer e d.files { r with init := none }
        { s with connection := after.connection, warnings := after.warnings }) := by
  obtain ⟨ready, -⟩ := opened_added own opened
  obtain ⟨after, ran, idle, connection, rest⟩ := run_init_done ready compiles runs
  have names (name : String) : name ∈ after.names ↔ d.Holds name ∧ name ≠ initName := by
    rw [initial_names rest, opened_names own opened]
  have same : after.rest = s.rest ↔ ¬ d.Holds initName := by
    constructor
    · intro same there
      have kept := (opened_names own opened initName).mpr there
      rw [Catalog.names, ← same] at kept
      exact ((names initName).mp kept).2 rfl
    · intro free
      have absent : s.rest.inventory.entries.get? initName = none := by
        rw [← opened_names own opened, Catalog.mem_names_iff] at free
        simpa using free
      rw [rest, Inventory.remove_put ready.counted absent]
  refine ⟨after, ran, connection, names, fun name entry present => ?_, same, fun free => ?_⟩
  · rw [rest, Inventory.get_remove_put] at present
    split at present
    · cases present
    · exact opened_entry own opened present
  · have unchanged : after = { s with connection := after.connection, warnings := after.warnings } := by
      obtain ⟨connection, scope, warnings, kept⟩ := after
      cases idle
      cases same.mpr free
      rw [← ready.scope]
    rw [answer_initial named ran, ← unchanged]

/-! ### A directory with one file -/

def stocked (stem : String) : FileSystem :=
  ⟨[], [(["init.sql"], .file "CREATE TABLE u (a)".toUTF8), (["sql"], .directory),
    (["sql", stem ++ ".sql"], .file "SELECT 1".toUTF8)], by simp⟩

def listingRequest : Request :=
  { Request.standard with
    sqlDir := some ⟨"sql"⟩
    lazy := true
    init := some ⟨"init.sql"⟩
    list := true }

def creation : Operation where
  name := initName
  category := .table
  style := .sqlite
  first := ⟨"CREATE TABLE u (a)", []⟩
  others := []
  script := none
  script_bare := by simp

theorem creation_compiles {files : FileView}
    (reads : files.readText ⟨"init.sql"⟩ = .ok "CREATE TABLE u (a)") :
    initOperation ⟨.sqlite, .sqlite⟩ files listingRequest ⟨"init.sql"⟩ = .ok creation := by
  let created : Statement :=
    ⟨[.word "CREATE" none, .blank .space, .word "TABLE" none, .blank .space, .word "u" none,
      .blank .space, .leftParen, .word "a" none, .rightParen], rfl, by simp⟩
  let source : SqlSource := ⟨"CREATE TABLE u (a)", "init.sql", some ⟨""⟩⟩
  have read : SqlSource.ofFile files ⟨"init.sql"⟩ = .ok source := by
    rw [SqlSource.ofFile, reads]
    decide +kernel
  have tokens : Token.ofText .sqlite source.text = .ok created.tokens := by decide +kernel
  have single : source.statements files .sqlite = .ok ⟨"init.sql", [created], by simp⟩ :=
    SqlSource.statements_single files created tokens (by decide +kernel) (by decide +kernel)
  rw [initOperation, read]
  change Operation.compile files .sqlite .sqlite initName source = .ok creation
  rw [Operation.compile, single]
  decide +kernel

abbrev fresh : Database.Handle := ⟨.start, 100⟩

theorem creation_runs {s : Shelf Database.Handle} (ready : Ready Database.engine listingRequest fresh s) :
    (initTransaction Database.engine creation s).1.isDone = true := by
  have bare : (initTransaction Database.engine creation
      (unfilled Database.engine listingRequest fresh)).1.isDone = true := by
    cbv
  obtain ⟨ended, -⟩ := Catalog.transaction_on_connection Database.engine
    (creation.run Database.engine (.single .empty))
    (s := unfilled Database.engine listingRequest fresh) (t := s) rfl ready.scope ready.connection
  rw [initTransaction, ended]
  exact bare

theorem stocked_directory (stem : String) : (stocked stem).node? ["sql"] = some .directory := rfl

def stockedDirectory (stem : String) (clean : (stocked stem).Clean)
    (leads : (stocked stem).resolve ⟨"sql"⟩ = .ok ["sql"]) : Directory :=
  (stocked stem).directory ⟨"sql"⟩ ["sql"] clean leads (stocked_directory stem)

section Stocked

variable {stem : String} (clean : (stocked stem).Clean)
  (leads : (stocked stem).resolve ⟨"sql"⟩ = .ok ["sql"])

theorem stocked_holds (other : String) :
    (stockedDirectory stem clean leads).Holds other ↔ other = stem ∧ stem ≠ "" := by
  have same : other ++ ".sql" = stem ++ ".sql" ↔ other = stem := Directory.suffix_injective.eq_iff
  rw [stockedDirectory, FileSystem.directory_holds_iff]
  simp only [FileSystem.node_iff _ (show ["sql"] ++ [other ++ ".sql"] ≠ [] by simp)]
  simp [stocked, same]
  grind

theorem stocked_opens (identifier : Identifier stem)
    (reads : (stocked stem).view.readText ((stockedDirectory stem clean leads).file stem) =
      .ok "SELECT 1") :
    ∃ s, catalog Database.engine (stocked stem) listingRequest fresh = .ok s := by
  let d := stockedDirectory stem clean leads
  obtain ⟨stems, holds, ⟨s, opened, -⟩ | ⟨other, member, failure, -, fails⟩⟩ :=
    catalog_cases (d := d) (r := listingRequest) Database.engine fresh rfl
  · exact ⟨s, opened⟩
  · obtain ⟨rfl, -⟩ := (stocked_holds clean leads other).mp ((holds other).mp member)
    have read : d.files.readText (d.file other) = .ok "SELECT 1" := reads
    rw [Directory.entry, if_pos identifier, read] at fails
    cases fails

end Stocked

def oneFile : Directory := stockedDirectory "one" (by decide) (by decide +kernel)

theorem initial_file_frame_one :
    ∃ s after, catalog Database.engine oneFile.files listingRequest fresh = .ok s ∧
      initOperation ⟨.sqlite, .sqlite⟩ oneFile.files listingRequest ⟨"init.sql"⟩ = .ok creation ∧
      (initTransaction Database.engine creation s).1.isDone = true ∧
      runInit Database.engine oneFile.files ⟨"init.sql"⟩ s = (.done (), after) ∧
      after.rest = s.rest ∧ "one" ∈ after.names := by
  obtain ⟨s, opened⟩ : ∃ s, catalog Database.engine oneFile.files listingRequest fresh = .ok s :=
    stocked_opens (by decide) (by decide +kernel) (by decide) (by decide +kernel)
  have ready := (opened_added rfl opened).1
  have compiles : initOperation ⟨.sqlite, .sqlite⟩ oneFile.files listingRequest ⟨"init.sql"⟩ =
      .ok creation :=
    creation_compiles (by decide +kernel)
  have held (name : String) : oneFile.Holds name ↔ name = "one" ∧ "one" ≠ "" :=
    stocked_holds _ _ name
  obtain ⟨after, ran, -, names, -, same, -⟩ :=
    initial_file_frame Database.engine oneFile rfl rfl opened compiles (creation_runs ready)
  refine ⟨s, after, opened, compiles, creation_runs ready, ran, ?_, ?_⟩
  · rw [same, held]
    decide
  · rw [names, held]
    decide

def reservedFile : Directory := stockedDirectory initName (by decide) (by decide +kernel)

theorem reserved_name_lost :
    ∃ s after, catalog Database.engine reservedFile.files listingRequest fresh = .ok s ∧
      initOperation ⟨.sqlite, .sqlite⟩ reservedFile.files listingRequest ⟨"init.sql"⟩ =
        .ok creation ∧
      (initTransaction Database.engine creation s).1.isDone = true ∧
      runInit Database.engine reservedFile.files ⟨"init.sql"⟩ s = (.done (), after) ∧
      initName ∈ s.names ∧ after.names = [] ∧
      report Database.engine connect reservedFile.files listingRequest = ⟨0, "[]\n", none⟩ := by
  obtain ⟨s, opened⟩ :
      ∃ s, catalog Database.engine reservedFile.files listingRequest fresh = .ok s :=
    stocked_opens (by decide) (by decide +kernel) (by decide) (by decide +kernel)
  have ready := (opened_added rfl opened).1
  have compiles : initOperation ⟨.sqlite, .sqlite⟩ reservedFile.files listingRequest ⟨"init.sql"⟩ =
      .ok creation :=
    creation_compiles (by decide +kernel)
  obtain ⟨after, ran, -, -, rest⟩ := run_init_done ready compiles (creation_runs ready)
  have held (name : String) : name ∈ s.names ↔ name = initName := by
    rw [opened_names rfl opened]
    exact (stocked_holds _ _ name).trans (and_iff_left (by decide))
  have empty : after.names = [] := by
    apply List.eq_nil_iff_forall_not_mem.mpr
    intro name member
    obtain ⟨before, other⟩ := (initial_names rest name).mp member
    exact other ((held name).mp before)
  refine ⟨s, after, opened, compiles, creation_runs ready, ran, (held initName).mpr rfl, empty, ?_⟩
  have listed : list reservedFile.files after = (.done (.array []), after) := by
    rw [list, Action.bind_apply]
    simp only [Action.gets, show after.rest.inventory.names = [] from empty]
    rfl
  have answered : (answer Database.engine reservedFile.files listingRequest s).1 = .done (.array []) := by
    rw [answer_initial rfl ran]
    change (list reservedFile.files after).1 = _
    rw [listed]
  have connected : connect listingRequest.db >>= catalog Database.engine reservedFile.files
      listingRequest = .ok s := opened
  rw [report, connected]
  simp only [answered]
  decide

end CommandLine
end SqlCatalog
