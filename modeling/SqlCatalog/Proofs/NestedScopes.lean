import SqlCatalog.Proofs.Batches
/-!
Attempts to open a scope inside another. Each is refused and leaves the connection alone. A body
that ignores them goes on as it would without them, unless it asks whether an operation is compiled:
an attempt to call one compiles it (`nested_scopes_refused`).
-/
namespace SqlCatalog

variable {σ ν α β : Type}

/-! ### Inventories that differ in what is compiled -/

namespace Inventory

-- The inventories hold the same operations; some that wait in the second may be compiled in the
-- first.
structure Ahead (files : FileView) (inv other : Inventory) : Prop where
  compiler : inv.compiler = other.compiler
  entries : ∀ name, inv.entries.get? name = other.entries.get? name ∨
    ∃ source op, other.entries.get? name = some (.waiting source) ∧
      other.compiler.compile files name source = .ok op ∧
      inv.entries.get? name = some (.compiled op)

inductive AheadOf (files : FileView) :
    (left right : Except Failure (α × Inventory × Option Warning)) → Prop where
  | failed (failure : Failure) : AheadOf files (.error failure) (.error failure)
  | done {inv other : Inventory} {warning warningToo : Option Warning} (a : α)
      (ahead : inv.Ahead files other) :
      AheadOf files (.ok (a, inv, warning)) (.ok (a, other, warningToo))

variable {files : FileView} {inv other : Inventory}

theorem ahead_refl (files : FileView) (inv : Inventory) : inv.Ahead files inv :=
  ⟨rfl, fun _ => .inl rfl⟩

theorem ahead_put (ahead : inv.Ahead files other) (name : String) (entry : Entry) :
    (inv.put name entry).1.Ahead files (other.put name entry).1 := by
  obtain ⟨entries, compiler, -⟩ := inv.put_frame name entry
  obtain ⟨entriesToo, compilerToo, -⟩ := other.put_frame name entry
  refine ⟨by rw [compiler, compilerToo, ahead.compiler], fun key => ?_⟩
  rw [entries, entriesToo, compilerToo, NameMap.get?_insert, NameMap.get?_insert]
  by_cases here : key = name
  · rw [if_pos here, if_pos here]
    exact .inl rfl
  · rw [if_neg here, if_neg here]
    exact ahead.entries key

theorem ahead_remove (ahead : inv.Ahead files other) (name : String) :
    (inv.remove name).2.Ahead files (other.remove name).2 := by
  obtain ⟨entries, compiler, -⟩ := inv.remove_frame name
  obtain ⟨entriesToo, compilerToo, -⟩ := other.remove_frame name
  refine ⟨by rw [compiler, compilerToo, ahead.compiler], fun key => ?_⟩
  rw [entries, entriesToo, compilerToo, NameMap.get?_erase, NameMap.get?_erase]
  by_cases here : key = name
  · rw [if_pos here, if_pos here]
    exact .inl rfl
  · rw [if_neg here, if_neg here]
    exact ahead.entries key

theorem ahead_caught_up (ahead : inv.Ahead files other) {name : String} {op : Operation}
    (present : inv.entries.get? name = some (.compiled op)) :
    inv.Ahead files (other.put name (.compiled op)).1 := by
  obtain ⟨entries, compiler, -⟩ := other.put_frame name (.compiled op)
  refine ⟨by rw [compiler, ahead.compiler], fun key => ?_⟩
  rw [entries, compiler, NameMap.get?_insert]
  by_cases here : key = name
  · rw [if_pos here, here]
    exact .inl present
  · rw [if_neg here]
    exact ahead.entries key

theorem ahead_further (ahead : inv.Ahead files other) {name : String} {source : SqlSource}
    {op : Operation} (waits : inv.entries.get? name = some (.waiting source))
    (compiles : inv.compiler.compile files name source = .ok op) :
    (inv.put name (.compiled op)).1.Ahead files other := by
  obtain ⟨entries, compiler, -⟩ := inv.put_frame name (.compiled op)
  refine ⟨by rw [compiler, ahead.compiler], fun key => ?_⟩
  rw [entries, NameMap.get?_insert]
  by_cases here : key = name
  · rw [if_pos here, here]
    rcases ahead.entries name with same | ⟨_, _, _, _, present⟩
    · exact .inr ⟨source, op, same.symm.trans waits, ahead.compiler ▸ compiles, rfl⟩
    · rw [waits] at present
      cases present
  · rw [if_neg here]
    exact ahead.entries key

theorem ahead_get (ahead : inv.Ahead files other) (name : String) :
    AheadOf files (inv.get files name) (other.get files name) := by
  rcases ahead.entries name with same | ⟨source, op, waits, compiles, present⟩
  · rcases other.get_cases files name with
      ⟨absent, got⟩ | ⟨op, present, got⟩ | ⟨source, failure, waits, fails, got⟩ |
        ⟨source, op, waits, compiles, got⟩
    · rw [got, get, same, absent]
      exact .failed _
    · rw [got, get, same, present]
      exact .done op ahead
    · rw [got, get, same, waits, ahead.compiler]
      simp only [fails]
      exact .failed failure
    · rw [got, get, same, waits, ahead.compiler]
      simp only [compiles]
      exact .done op (ahead_put ahead name _)
  · rw [get, get, present, waits]
    simp only [compiles]
    exact .done op (ahead_caught_up ahead present)

theorem ahead_got (ahead : inv.Ahead files other) {name : String} {op : Operation}
    {after : Inventory} {warning : Option Warning}
    (got : inv.get files name = .ok (op, after, warning)) : after.Ahead files other := by
  rcases inv.get_cases files name with
    ⟨-, gets⟩ | ⟨_, -, gets⟩ | ⟨_, _, -, -, gets⟩ | ⟨source, op, waits, compiles, gets⟩
  · cases gets.symm.trans got
  · cases gets.symm.trans got
    exact ahead
  · cases gets.symm.trans got
  · cases gets.symm.trans got
    exact ahead_further ahead waits compiles

theorem ahead_add (ahead : inv.Ahead files other) (name : String) (source : SqlSource)
    (lazy : Bool) :
    AheadOf files ((inv.add files name source lazy).map fun made => ((), made.1, made.2))
      ((other.add files name source lazy).map fun made => ((), made.1, made.2)) := by
  unfold add
  rw [ahead.compiler]
  cases lazy with
  | true => exact .done () (ahead_put ahead name _)
  | false =>
    cases other.compiler.compile files name source with
    | ok op => exact .done () (ahead_put ahead name _)
    | error failure => exact .failed failure

theorem ahead_contains (ahead : inv.Ahead files other) (name : String) :
    inv.contains name = other.contains name := by
  rw [contains, contains, NameMap.contains, NameMap.contains]
  rcases ahead.entries name with same | ⟨source, op, waits, -, present⟩
  · rw [same]
  · rw [waits, present]
    rfl

theorem ahead_names (ahead : inv.Ahead files other) : inv.names = other.names := by
  have members (name : String) : name ∈ inv.names ↔ name ∈ other.names := by
    rw [names, names, NameMap.mem_names_iff, NameMap.mem_names_iff]
    exact iff_of_eq (congrArg (· = true) (ahead_contains ahead name))
  have distinct (m : NameMap Entry) : m.names.Nodup := by
    refine m.names_increasing.imp fun less => ?_
    rintro rfl
    exact String.lt_irrefl _ less
  have permuted : inv.names.Perm other.names :=
    (List.perm_ext_iff_of_nodup (distinct _) (distinct _)).mpr members
  refine permuted.eq_of_pairwise ?_ inv.entries.names_increasing other.entries.names_increasing
  intro a b _ _ less greater
  exact absurd greater (String.lt_asymm less)

theorem ahead_size (ahead : inv.Ahead files other) : inv.size = other.size := by
  have same := congrArg List.length (ahead_names ahead)
  rwa [names, names, NameMap.names, NameMap.names, List.length_map, List.length_map] at same

end Inventory

namespace Catalog

open Session SqlCatalog.Action

/-! ### Bodies of transactions -/

inductive Attempt (σ ν : Type) : Type → Type 1 where
  | call (name : String) (args : Arguments) : Attempt σ ν Output
  | transaction {β : Type} (body : Action (Catalog σ ν) β) : Attempt σ ν β
  | withConnection {β : Type} (action : Action σ β) : Attempt σ ν β

namespace Attempt

def take (e : Engine σ) (files : FileView) : Attempt σ ν β → Action (Catalog σ ν) β
  | .call name args => Catalog.call e files name args
  | .transaction body => Catalog.transaction e body
  | .withConnection action => Catalog.withConnection action

def Opens (files : FileView) (s : Catalog σ ν) : Attempt σ ν β → Prop
  | .call name args => (∃ op found, operation files name s = (.done op, found)) ∧ args ≠ .batch []
  | .transaction _ => True
  | .withConnection _ => True

def left (files : FileView) (s : Catalog σ ν) : Attempt σ ν β → Catalog σ ν
  | .call name _ => (operation files name s).2
  | .transaction _ => s
  | .withConnection _ => s

end Attempt

inductive Move (σ ν : Type) : Type → Type 1 where
  | callInside (name : String) (args : Arguments) : Move σ ν Output
  | onConnection {β : Type} (action : Action σ β) : Move σ ν β
  | operation (name : String) : Move σ ν Operation
  | category (name : String) : Move σ ν Category
  | addText (name text : String) (lazy : Bool) : Move σ ν Unit
  | addFile (path : Path) (name : Option String) (lazy : Bool) : Move σ ν String
  | addDirectory (dir : Path) (lazy : Bool) : Move σ ν (List String)
  | remove (name : String) : Move σ ν Bool
  | isCompiled (name : String) : Move σ ν Bool
  | contains (name : String) : Move σ ν Bool
  | names : Move σ ν (List String)
  | size : Move σ ν Nat
  | captured {β : Type} (change : ScopeState → CatalogOptions → Compiler → ν → β × ν) : Move σ ν β
  | attempt {β : Type} (a : Attempt σ ν β) : Move σ ν β

namespace Move

def run (e : Engine σ) (files : FileView) : Move σ ν β → Action (Catalog σ ν) β
  | .callInside name args => Catalog.callInside e files name args
  | .onConnection action => Session.onConnection action
  | .operation name => Catalog.operation files name
  | .category name => Catalog.category files name
  | .addText name text lazy => Catalog.addText files name text lazy
  | .addFile path name lazy => Catalog.addFile files path name lazy
  | .addDirectory dir lazy => Catalog.addDirectory files dir lazy
  | .remove name => Catalog.remove name
  | .isCompiled name => Action.gets fun s => s.rest.inventory.isCompiled name
  | .contains name => Action.gets fun s => s.rest.inventory.contains name
  | .names => Action.gets fun s => s.rest.inventory.names
  | .size => Action.gets fun s => s.rest.inventory.size
  | .captured change => fun s =>
    match change s.scope s.rest.options s.rest.inventory.compiler s.rest.captured with
    | (b, kept) => (.done b, { s with rest := { s.rest with captured := kept } })
  | .attempt a => a.take e files

def Unaware (s t : Catalog σ ν) : Move σ ν β → Prop
  | .isCompiled name => s.rest.inventory.isCompiled name = t.rest.inventory.isCompiled name
  | _ => True

end Move

-- The body of a transaction: what it does may depend on all outcomes so far but those of the
-- attempts that it ignores.
inductive Body (σ ν α : Type) : Type 1 where
  | finish (outcome : Outcome α)
  | move {β : Type} (m : Move σ ν β) (next : Outcome β → Body σ ν α)
  | ignoring {β : Type} (a : Attempt σ ν β) (next : Body σ ν α)

namespace Body

def run (e : Engine σ) (files : FileView) : Body σ ν α → Action (Catalog σ ν) α
  | .finish outcome => fun s => (outcome, s)
  | .move m next => fun s =>
    match m.run e files s with
    | (outcome, s) => (next outcome).run e files s
  | .ignoring a next => fun s => next.run e files (a.take e files s).2

def without : Body σ ν α → Body σ ν α
  | .finish outcome => .finish outcome
  | .move m next => .move m fun outcome => (next outcome).without
  | .ignoring _ next => next.without

-- Nowhere is the body told of what its attempts have compiled. The first catalog is that of the
-- body, the second that of the body without the attempts that it ignores.
def Unaware (e : Engine σ) (files : FileView) : Body σ ν α → (s t : Catalog σ ν) → Prop
  | .finish _, _, _ => True
  | .move m next, s, t => m.Unaware s t ∧
      (next (m.run e files s).1).Unaware e files (m.run e files s).2 (m.run e files t).2
  | .ignoring a next, s, t => next.Unaware e files (a.take e files s).2 t

inductive Reaches (e : Engine σ) (files : FileView) :
    (body : Body σ ν α) → (s : Catalog σ ν) → (rest : Body σ ν α) → (t : Catalog σ ν) → Prop where
  | here (body : Body σ ν α) (s : Catalog σ ν) : Reaches e files body s body s
  | move {β : Type} {m : Move σ ν β} {next : Outcome β → Body σ ν α} {rest : Body σ ν α}
      {s t : Catalog σ ν}
      (later : Reaches e files (next (m.run e files s).1) (m.run e files s).2 rest t) :
      Reaches e files (.move m next) s rest t
  | ignoring {β : Type} {a : Attempt σ ν β} {next rest : Body σ ν α} {s t : Catalog σ ν}
      (later : Reaches e files next (a.take e files s).2 rest t) :
      Reaches e files (.ignoring a next) s rest t

end Body

/-! ### Attempts inside a scope -/

theorem take_open (e : Engine σ) (files : FileView) (attempt : Attempt σ ν β) (s : Catalog σ ν)
    (inside : s.scope = .open) :
    (attempt.take e files s).2 = attempt.left files s ∧
      (attempt.Opens files s → (attempt.take e files s).1 = .failed .alreadyInTransaction) := by
  cases attempt with
  | call name args =>
    obtain ⟨found, -, scope, looked⟩ := call_cases e files name args s
    rcases looked with ⟨failure, unknown, called⟩ | ⟨op, known, empty, called⟩ |
      ⟨op, known, some, called⟩
    · refine ⟨by rw [Attempt.take, called, Attempt.left, unknown], fun opens => ?_⟩
      obtain ⟨⟨op, after, known⟩, -⟩ := opens
      cases unknown.symm.trans known
    · exact ⟨by rw [Attempt.take, called, Attempt.left, known], fun opens => absurd empty opens.2⟩
    · rw [transaction_busy e _ found (scope.trans inside)] at called
      rw [Attempt.take, called, Attempt.left, known]
      exact ⟨rfl, fun _ => rfl⟩
  | transaction body =>
    have busy := transaction_busy e body s inside
    exact ⟨congrArg Prod.snd busy, fun _ => congrArg Prod.fst busy⟩
  | withConnection action =>
    have busy : Catalog.withConnection action s = (.failed .alreadyInTransaction, s) := by
      rw [Catalog.withConnection, holding, if_pos inside]
    exact ⟨congrArg Prod.snd busy, fun _ => congrArg Prod.fst busy⟩

theorem left_frame (files : FileView) (attempt : Attempt σ ν β) (s : Catalog σ ν) :
    (attempt.left files s).connection = s.connection ∧
      (attempt.left files s).scope = s.scope := by
  cases attempt with
  | call name args => exact operation_connection files name s
  | transaction body => exact ⟨rfl, rfl⟩
  | withConnection action => exact ⟨rfl, rfl⟩

/-! ### Two runs side by side -/

structure Ahead (files : FileView) (s t : Catalog σ ν) : Prop where
  inside : s.scope = .open
  scope : s.scope = t.scope
  connection : s.connection = t.connection
  options : s.rest.options = t.rest.options
  captured : s.rest.captured = t.rest.captured
  inventory : s.rest.inventory.Ahead files t.rest.inventory

theorem ahead_refl (files : FileView) {s : Catalog σ ν} (inside : s.scope = .open) :
    Ahead files s s :=
  ⟨inside, rfl, rfl, rfl, rfl, Inventory.ahead_refl files _⟩

def Blind (files : FileView) (x : Action (Catalog σ ν) α) : Prop :=
  ∀ s t, Ahead files s t → (x s).1 = (x t).1 ∧ Ahead files (x s).2 (x t).2

section Blind

variable {files : FileView}

theorem blind_pure (a : α) : Blind files (pure a : Action (Catalog σ ν) α) :=
  fun _ _ ahead => ⟨rfl, ahead⟩

theorem blind_of_except (x : Except Failure α) :
    Blind files (ofExcept x : Action (Catalog σ ν) α) := by
  intro s t ahead
  cases x with
  | ok a => exact ⟨rfl, ahead⟩
  | error failure => exact ⟨rfl, ahead⟩

theorem blind_gets {f : Catalog σ ν → α} (same : ∀ s t, Ahead files s t → f s = f t) :
    Blind files (gets f) :=
  fun s t ahead => ⟨congrArg Outcome.done (same s t ahead), ahead⟩

theorem blind_bind {x : Action (Catalog σ ν) α} {f : α → Action (Catalog σ ν) β}
    (first : Blind files x) (second : ∀ a, Blind files (f a)) : Blind files (x >>= f) := by
  intro s t ahead
  obtain ⟨same, onward⟩ := first s t ahead
  rw [bind_apply, bind_apply]
  rcases left : x s with ⟨outcome, s'⟩
  rcases right : x t with ⟨outcomeToo, t'⟩
  rw [left, right] at same onward
  dsimp only at same onward
  subst same
  cases outcome with
  | done a => exact second a s' t' onward
  | failed failure => exact ⟨rfl, onward⟩
  | crashed text => exact ⟨rfl, onward⟩

theorem blind_each {f : α → Action (Catalog σ ν) β} (one : ∀ a, Blind files (f a))
    (l : List α) : Blind files (each f l) := by
  induction l with
  | nil => exact blind_pure []
  | cons a l ih =>
    exact blind_bind (one a) fun b => blind_bind ih fun bs => blind_pure (b :: bs)

theorem blind_on_connection (action : Action σ α) :
    Blind files (onConnection action : Action (Catalog σ ν) α) := by
  intro s t ahead
  obtain ⟨inside, scope, connection, options, captured, inventory⟩ := ahead
  simp only [onConnection, connection]
  exact ⟨trivial, inside, scope, rfl, options, captured, inventory⟩

theorem blind_on_inventory {change : Inventory → Except Failure (α × Inventory × Option Warning)}
    (changes : ∀ inv other, Inventory.Ahead files inv other →
      Inventory.AheadOf files (change inv) (change other)) :
    Blind files (onInventory change : Action (Catalog σ ν) α) := by
  intro s t ahead
  obtain ⟨inside, scope, connection, options, captured, inventory⟩ := ahead
  have changed := changes _ _ inventory
  unfold onInventory
  generalize change s.rest.inventory = left at changed
  generalize change t.rest.inventory = right at changed
  cases changed with
  | failed failure => exact ⟨rfl, inside, scope, connection, options, captured, inventory⟩
  | done a onward => exact ⟨rfl, inside, scope, connection, options, captured, onward⟩

theorem operation_blind (name : String) :
    Blind files (operation files name : Action (Catalog σ ν) Operation) :=
  blind_on_inventory fun _ _ ahead => Inventory.ahead_get ahead name

theorem category_blind (name : String) :
    Blind files (category files name : Action (Catalog σ ν) Category) :=
  blind_bind (operation_blind name) fun op => blind_pure op.category

theorem call_inside_blind (e : Engine σ) (name : String) (args : Arguments) :
    Blind files (callInside e files name args : Action (Catalog σ ν) Output) :=
  blind_bind (operation_blind name) fun op => blind_on_connection (op.run e args)

theorem add_source_blind (name : String) (source : SqlSource) (lazy : Bool) :
    Blind files (addSource files name source lazy : Action (Catalog σ ν) Unit) := by
  apply blind_bind (blind_gets fun _ _ ahead => ahead.options)
  exact fun options => blind_on_inventory fun _ _ ahead => Inventory.ahead_add ahead name _ lazy

theorem add_text_blind (name text : String) (lazy : Bool) :
    Blind files (addText files name text lazy : Action (Catalog σ ν) Unit) :=
  blind_bind (blind_of_except _) fun _ => add_source_blind name _ lazy

theorem add_file_blind (path : Path) (name : Option String) (lazy : Bool) :
    Blind files (addFile files path name lazy : Action (Catalog σ ν) String) := by
  apply blind_bind (blind_of_except _)
  intro name
  apply blind_bind (blind_of_except _)
  intro _
  apply blind_bind (blind_of_except _)
  intro source
  exact blind_bind (add_source_blind name source lazy) fun _ => blind_pure name

theorem add_directory_blind (dir : Path) (lazy : Bool) :
    Blind files (addDirectory files dir lazy : Action (Catalog σ ν) (List String)) :=
  blind_bind (blind_of_except _) fun paths =>
    blind_each (fun path => add_file_blind path none lazy) paths

theorem remove_blind (name : String) :
    Blind files (remove name : Action (Catalog σ ν) Bool) := by
  apply blind_on_inventory
  intro inv other ahead
  have same : (inv.remove name).1 = (other.remove name).1 := Inventory.ahead_contains ahead name
  rw [same]
  exact .done _ (Inventory.ahead_remove ahead name)

theorem left_ahead {s t : Catalog σ ν} (ahead : Ahead files s t) (a : Attempt σ ν β) :
    Ahead files (a.left files s) t := by
  cases a with
  | call name args =>
    obtain ⟨inside, scope, connection, options, captured, inventory⟩ := ahead
    rw [Attempt.left, operation, onInventory]
    cases got : s.rest.inventory.get files name with
    | error failure => exact ⟨inside, scope, connection, options, captured, inventory⟩
    | ok found =>
      exact ⟨inside, scope, connection, options, captured, Inventory.ahead_got inventory got⟩
  | transaction body => exact ahead
  | withConnection action => exact ahead

theorem blind_refused {x : Action (Catalog σ ν) α}
    (refuses : ∀ s, s.scope = .open → x s = (.failed .alreadyInTransaction, s)) :
    Blind files x := by
  intro s t ahead
  rw [refuses s ahead.inside, refuses t (ahead.scope ▸ ahead.inside)]
  exact ⟨rfl, ahead⟩

theorem transaction_blind (e : Engine σ) (body : Action (Catalog σ ν) α) :
    Blind files (Session.transaction e body) :=
  blind_refused (transaction_busy e body)

theorem attempt_blind (e : Engine σ) (a : Attempt σ ν β) : Blind files (a.take e files) := by
  cases a with
  | call name args =>
    apply blind_bind (operation_blind name)
    intro op
    split
    · exact blind_pure _
    · exact transaction_blind e _
  | transaction body => exact transaction_blind e body
  | withConnection action =>
    apply blind_refused
    intro s inside
    rw [Attempt.take, Catalog.withConnection, holding, if_pos inside]

theorem move_blind (e : Engine σ) (m : Move σ ν β) {s t : Catalog σ ν} (ahead : Ahead files s t)
    (unaware : m.Unaware s t) :
    (m.run e files s).1 = (m.run e files t).1 ∧
      Ahead files (m.run e files s).2 (m.run e files t).2 := by
  cases m with
  | callInside name args => exact call_inside_blind e name args s t ahead
  | onConnection action => exact blind_on_connection action s t ahead
  | operation name => exact operation_blind name s t ahead
  | category name => exact category_blind name s t ahead
  | addText name text lazy => exact add_text_blind name text lazy s t ahead
  | addFile path name lazy => exact add_file_blind path name lazy s t ahead
  | addDirectory dir lazy => exact add_directory_blind dir lazy s t ahead
  | remove name => exact remove_blind name s t ahead
  | isCompiled name => exact ⟨congrArg Outcome.done unaware, ahead⟩
  | contains name =>
    exact ⟨congrArg Outcome.done (Inventory.ahead_contains ahead.inventory name), ahead⟩
  | names => exact ⟨congrArg Outcome.done (Inventory.ahead_names ahead.inventory), ahead⟩
  | size => exact ⟨congrArg Outcome.done (Inventory.ahead_size ahead.inventory), ahead⟩
  | captured change =>
    obtain ⟨inside, scope, connection, options, captured, inventory⟩ := ahead
    have same : change s.scope s.rest.options s.rest.inventory.compiler s.rest.captured =
        change t.scope t.rest.options t.rest.inventory.compiler t.rest.captured := by
      rw [scope, options, inventory.compiler, captured]
    simp only [Move.run, same]
    exact ⟨trivial, inside, scope, connection, options, rfl, inventory⟩
  | attempt a => exact attempt_blind e a s t ahead

theorem body_alike (e : Engine σ) (body : Body σ ν α) {s t : Catalog σ ν} (ahead : Ahead files s t)
    (unaware : body.Unaware e files s t) :
    (body.run e files s).1 = (body.without.run e files t).1 ∧
      Ahead files (body.run e files s).2 (body.without.run e files t).2 := by
  induction body generalizing s t with
  | finish outcome => exact ⟨rfl, ahead⟩
  | move m next ih =>
    obtain ⟨here, later⟩ := unaware
    obtain ⟨same, onward⟩ := move_blind e m ahead here
    simp only [Body.run, Body.without, ← same]
    exact ih _ onward later
  | ignoring a next ih =>
    have onward := left_ahead ahead a
    rw [← (take_open e files a s ahead.inside).1] at onward
    exact ih onward unaware

theorem reaches_open {e : Engine σ} {body rest : Body σ ν α} {s t : Catalog σ ν}
    (reaches : body.Reaches e files s rest t) (inside : s.scope = .open) : t.scope = .open := by
  induction reaches with
  | here => exact inside
  | @move β m next rest s t later ih =>
    have unaware : m.Unaware s s := by
      cases m <;> first | exact trivial | rfl
    exact ih (move_blind e m (ahead_refl files inside) unaware).2.inside
  | @ignoring β a next rest s t later ih =>
    apply ih
    rw [(take_open e files a s inside).1, (left_frame files a s).2, inside]

end Blind

theorem roll_back_rest (e : Engine σ) (warning : Failure → Warning) (s : Catalog σ ν) :
    (s.rollBack e warning).rest = s.rest := by
  rcases rolled : e.rollback s.connection with ⟨result, connection⟩
  cases result with
  | ok => rw [roll_back_ok e warning s connection rolled]
  | error problem =>
    rw [roll_back_error e warning s problem connection rolled]
    rfl

theorem close_scope_alike (e : Engine σ) (outcome : Outcome α) {s t : Catalog σ ν}
    (same : s.connection = t.connection) :
    (closeScope e outcome s).1 = (closeScope e outcome t).1 ∧
      (closeScope e outcome s).2.connection = (closeScope e outcome t).2.connection ∧
      (closeScope e outcome s).2.rest = s.rest := by
  cases outcome with
  | failed failure =>
    refine ⟨rfl, ?_, roll_back_rest e _ s⟩
    simp only [closeScope, roll_back_connection, same]
  | crashed text =>
    refine ⟨rfl, ?_, roll_back_rest e _ s⟩
    simp only [closeScope, abandon, roll_back_connection, same]
  | done a =>
    rcases committed : e.commit t.connection with ⟨outcome, connection⟩
    have committedToo := same ▸ committed
    cases outcome with
    | done =>
      simp only [closeScope, commit_scope_done e s connection committedToo,
        commit_scope_done e t connection committed]
      exact ⟨trivial, trivial, trivial⟩
    | failed failure =>
      simp only [closeScope, commit_scope_failed e s failure connection committedToo,
        commit_scope_failed e t failure connection committed, abandon, roll_back_connection,
        roll_back_rest]
      exact ⟨trivial, trivial, trivial⟩
    | crashed text =>
      simp only [closeScope, commit_scope_crashed e s text connection committedToo,
        commit_scope_crashed e t text connection committed, abandon, roll_back_connection,
        roll_back_rest]
      exact ⟨trivial, trivial, trivial⟩

theorem transaction_alike (e : Engine σ) {x y : Action (Catalog σ ν) α} (s : Catalog σ ν)
    (same : (x (opened e s)).1 = (y (opened e s)).1)
    (connection : (x (opened e s)).2.connection = (y (opened e s)).2.connection)
    (captured : (x (opened e s)).2.rest.captured = (y (opened e s)).2.rest.captured) :
    (transaction e x s).1 = (transaction e y s).1 ∧
      (transaction e x s).2.connection = (transaction e y s).2.connection ∧
      (transaction e x s).2.rest.captured = (transaction e y s).2.rest.captured := by
  unfold Catalog.transaction
  by_cases busy : s.scope = .open
  · rw [transaction_busy e x s busy, transaction_busy e y s busy]
    exact ⟨rfl, rfl, rfl⟩
  · have idle : s.scope = .idle := by
      cases scope : s.scope with
      | idle => rfl
      | «open» => exact absurd scope busy
    by_cases refused : Refused e s
    · obtain ⟨outcome, -, always⟩ := transaction_refused (α := α) e s idle refused
      rw [always x, always y]
      exact ⟨rfl, rfl, rfl⟩
    · rw [transaction_opened e x s idle refused, transaction_opened e y s idle refused, same]
      obtain ⟨ended, left, kept⟩ := close_scope_alike e (y (opened e s)).1 connection
      have keptToo := (close_scope_alike e (y (opened e s)).1 connection.symm).2.2
      exact ⟨ended, left, by rw [kept, keptToo, captured]⟩

-- An attempt to open a scope while one is open is refused and leaves the connection as it is, and
-- all else but that a call has looked its operation up. Whatever a body does, its scope is open. The
-- attempts that it ignores change neither the outcome nor the connection with the calls made to it,
-- nor what the body has captured, unless the body is told of what they have compiled.
theorem nested_scopes_refused (e : Engine σ) (files : FileView) :
    (∀ (β : Type) (a : Attempt (Engine.Traced σ) ν β) (t : Catalog (Engine.Traced σ) ν),
      t.scope = .open → a.Opens files t →
      a.take e.traced files t = (.failed .alreadyInTransaction, a.left files t) ∧
        (a.left files t).connection = t.connection ∧ (a.left files t).scope = .open) ∧
    ∀ (body : Body (Engine.Traced σ) ν α) (s : Catalog (Engine.Traced σ) ν),
      (∀ rest t, body.Reaches e.traced files (opened e.traced s) rest t → t.scope = .open) ∧
      (body.Unaware e.traced files (opened e.traced s) (opened e.traced s) →
        let whole := transaction e.traced (body.run e.traced files) s
        let bare := transaction e.traced (body.without.run e.traced files) s
        whole.1 = bare.1 ∧ whole.2.connection = bare.2.connection ∧
          whole.2.rest.captured = bare.2.rest.captured) := by
  refine ⟨fun β a t inside opens => ?_, fun body s => ⟨?_, fun unaware => ?_⟩⟩
  · obtain ⟨left, refused⟩ := take_open e.traced files a t inside
    obtain ⟨connection, scope⟩ := left_frame files a t
    exact ⟨Prod.ext (refused opens) left, connection, scope.trans inside⟩
  · exact fun rest t reaches => reaches_open reaches rfl
  · have inside : (opened e.traced s).scope = .open := rfl
    obtain ⟨same, ahead⟩ := body_alike e.traced body (ahead_refl files inside) unaware
    exact transaction_alike e.traced s same ahead.connection ahead.captured

def accepting : Scripted.Behaviour := { failingCommits with commitError := none }

def patient : Body (Engine.Traced Scripted.State) Unit Output :=
  .ignoring (.call "clear" (.single .empty)) <|
    .ignoring (.transaction (pure ())) <|
      .move (.isCompiled "fill") fun _ =>
        .ignoring (.withConnection (Scripted.engine.traced.execute "DROP TABLE t" [])) <|
          .move (.callInside "clear" (.single .empty)) .finish

theorem nested_scopes_refused_patient :
    let e := Scripted.engine.traced
    let s := waitingCatalog accepting
    let call : Attempt (Engine.Traced Scripted.State) Unit Output := .call "clear" (.single .empty)
    call.take e .empty (opened e s) =
      (.failed .alreadyInTransaction, call.left .empty (opened e s)) ∧
    (transaction e (patient.run e .empty) s).2.connection.calls =
      [.begin, .execute "DELETE FROM t" [], .commit] := by
  intro e s call
  have known := operation_opened e (clear_found accepting)
  have begins : ¬ Refused e s := fun refused => by cases refused.2
  obtain ⟨refused, bodies⟩ := nested_scopes_refused Scripted.engine .empty
  obtain ⟨-, alike⟩ := bodies patient s
  have unaware : patient.Unaware e .empty (opened e s) (opened e s) := by
    have left := (take_open e .empty call (opened e s) rfl).1
    rw [Attempt.left, known] at left
    rw [patient, Body.Unaware, left]
    exact ⟨rfl, trivial, trivial⟩
  obtain ⟨-, connection, -⟩ := alike unaware
  refine ⟨(refused Output call (opened e s) rfl ⟨⟨clear, _, known⟩, by simp⟩).1, ?_⟩
  have ran : patient.without.run e .empty (opened e s) =
      callInside e .empty "clear" (.single .empty) (opened e s) := rfl
  rw [connection, Catalog.transaction, transaction_opened e _ s rfl begins, ran,
    call_inside_found e _ known]
  rfl

def curious : Body (Engine.Traced Scripted.State) Unit Unit :=
  .ignoring (.call "clear" (.single .empty)) <|
    .move (.isCompiled "clear") fun
      | .done true => .finish (.failed (.driver "compiled"))
      | _ => .finish (.done ())

theorem refused_call_is_noticed :
    let e := Scripted.engine.traced
    let s := waitingCatalog accepting
    let whole := transaction e (curious.run e .empty) s
    let bare := transaction e (curious.without.run e .empty) s
    (whole.1 = .failed (.driver "compiled") ∧ whole.2.connection.calls = [.begin, .rollback]) ∧
    bare.1 = .done () ∧ bare.2.connection.calls = [.begin, .commit] := by
  intro e s whole bare
  have known := operation_opened e (clear_found accepting)
  have begins : ¬ Refused e s := fun refused => by cases refused.2
  let call : Attempt (Engine.Traced Scripted.State) Unit Output := .call "clear" (.single .empty)
  have left := (take_open e .empty call (opened e s) rfl).1
  rw [Attempt.left, known] at left
  have told : curious.run e .empty (opened e s) =
      (.failed (.driver "compiled"), (call.take e .empty (opened e s)).2) := by
    rw [curious, Body.run]
    dsimp only
    rw [left]
    rfl
  have ended : whole = _ := transaction_opened e (curious.run e .empty) s rfl begins
  rw [ended, told, left]
  exact ⟨⟨rfl, rfl⟩, rfl, rfl⟩

end Catalog
end SqlCatalog
