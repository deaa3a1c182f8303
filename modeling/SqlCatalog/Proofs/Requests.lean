import Mathlib.Data.List.Induction
import SqlCatalog.Inventory
/-!
Requests to an inventory, one after the other. Its answers follow from the sources that were added
last under each name, whether they are compiled when they are added or when they are first asked for
(`history_answers`).
-/
namespace SqlCatalog.Inventory

inductive Request where
  | add (name : String) (source : SqlSource) (lazy : Bool)
  | get (name : String)
  | category (name : String)
  | isCompiled (name : String)
  | contains (name : String)
  | names
  | size
  | remove (name : String)

inductive Answer where
  | added
  | operation (op : Operation)
  | category (category : Category)
  | told (holds : Bool)
  | names (names : List String)
  | size (count : Nat)
  | failed (failure : Failure)

structure Reply where
  answer : Answer
  after : Inventory
  warning : Option Warning

variable {α : Type}

def Answer.ofResult (answer : α → Answer) : Except Failure α → Answer
  | .ok a => answer a
  | .error failure => .failed failure

def replyWith (inv : Inventory) (answer : α → Answer) :
    Except Failure (α × Inventory × Option Warning) → Reply
  | .ok (a, after, warning) => ⟨answer a, after, warning⟩
  | .error failure => ⟨.failed failure, inv, none⟩

def serve (inv : Inventory) (files : FileView) : Request → Reply
  | .add name source lazy =>
    inv.replyWith (fun _ => .added) ((inv.add files name source lazy).map fun made => ((), made))
  | .get name => inv.replyWith .operation (inv.get files name)
  | .category name => inv.replyWith (fun op => .category op.category) (inv.get files name)
  | .isCompiled name => ⟨.told (inv.isCompiled name), inv, none⟩
  | .contains name => ⟨.told (inv.contains name), inv, none⟩
  | .names => ⟨.names inv.names, inv, none⟩
  | .size => ⟨.size inv.size, inv, none⟩
  | .remove name => ⟨.told (inv.remove name).1, (inv.remove name).2, none⟩

/-! ### What one request does -/

theorem put_frame (inv : Inventory) (name : String) (entry : Entry) :
    (inv.put name entry).1.entries = inv.entries.insert name entry ∧
      (inv.put name entry).1.compiler = inv.compiler ∧
      (inv.put name entry).1.capacity = inv.capacity := by
  unfold put countUp countDown
  split
  · cases inv.capacity with
    | none => exact ⟨rfl, rfl, rfl⟩
    | some capacity =>
      dsimp only
      split <;> exact ⟨rfl, rfl, rfl⟩
  · cases inv.capacity <;> exact ⟨rfl, rfl, rfl⟩
  · exact ⟨rfl, rfl, rfl⟩

theorem remove_frame (inv : Inventory) (name : String) :
    (inv.remove name).2.entries = inv.entries.erase name ∧
      (inv.remove name).2.compiler = inv.compiler ∧
      (inv.remove name).2.capacity = inv.capacity := by
  unfold remove countDown
  dsimp only
  split
  · cases inv.capacity <;> exact ⟨rfl, rfl, rfl⟩
  · exact ⟨rfl, rfl, rfl⟩

inductive Change (inv : Inventory) : Inventory → Option Warning → Prop where
  | nothing : Change inv inv none
  | put (name : String) (entry : Entry) :
      Change inv (inv.put name entry).1 (inv.put name entry).2
  | remove (name : String) : Change inv (inv.remove name).2 none

theorem add_cases (inv : Inventory) (files : FileView) (name : String) (source : SqlSource)
    (lazy : Bool) :
    (∃ failure, lazy = false ∧ inv.compiler.compile files name source = .error failure ∧
      inv.serve files (.add name source lazy) = ⟨.failed failure, inv, none⟩) ∨
    ∃ entry, inv.serve files (.add name source lazy) =
        ⟨.added, (inv.put name entry).1, (inv.put name entry).2⟩ ∧
      (lazy = true ∧ entry = .waiting source ∨
        lazy = false ∧ ∃ op, inv.compiler.compile files name source = .ok op ∧
          entry = .compiled op) := by
  cases lazy with
  | true => exact .inr ⟨.waiting source, rfl, .inl ⟨rfl, rfl⟩⟩
  | false =>
    cases compiles : inv.compiler.compile files name source with
    | ok op =>
      refine .inr ⟨.compiled op, ?_, .inr ⟨rfl, op, rfl, rfl⟩⟩
      simp only [serve, add, compiles, Bool.false_eq_true, if_false]
      rfl
    | error failure =>
      refine .inl ⟨failure, rfl, rfl, ?_⟩
      simp only [serve, add, compiles, Bool.false_eq_true, if_false]
      rfl

theorem get_cases (inv : Inventory) (files : FileView) (name : String) :
    (inv.entries.get? name = none ∧ inv.get files name = .error (.unknownOperation name)) ∨
    (∃ op, inv.entries.get? name = some (.compiled op) ∧
      inv.get files name = .ok (op, inv, none)) ∨
    (∃ source failure, inv.entries.get? name = some (.waiting source) ∧
      inv.compiler.compile files name source = .error failure ∧
      inv.get files name = .error failure) ∨
    ∃ source op, inv.entries.get? name = some (.waiting source) ∧
      inv.compiler.compile files name source = .ok op ∧
      inv.get files name =
        .ok (op, (inv.put name (.compiled op)).1, (inv.put name (.compiled op)).2) := by
  unfold get
  cases held : inv.entries.get? name with
  | none => exact .inl ⟨rfl, rfl⟩
  | some entry =>
    cases entry with
    | compiled op => exact .inr (.inl ⟨op, rfl, rfl⟩)
    | waiting source =>
      cases compiles : inv.compiler.compile files name source with
      | error failure =>
        exact .inr (.inr (.inl ⟨source, failure, rfl, compiles, by simp only [compiles]⟩))
      | ok op => exact .inr (.inr (.inr ⟨source, op, rfl, compiles, by simp only [compiles]⟩))

theorem reply_with_change (inv : Inventory) (files : FileView) (name : String)
    (answer : Operation → Answer) :
    Change inv (inv.replyWith answer (inv.get files name)).after
      (inv.replyWith answer (inv.get files name)).warning := by
  rcases inv.get_cases files name with
    ⟨-, got⟩ | ⟨op, -, got⟩ | ⟨source, failure, -, -, got⟩ | ⟨source, op, -, -, got⟩
  · rw [got]
    exact .nothing
  · rw [got]
    exact .nothing
  · rw [got]
    exact .nothing
  · rw [got]
    exact .put name (.compiled op)

theorem serve_change (inv : Inventory) (files : FileView) (request : Request) :
    Change inv (inv.serve files request).after (inv.serve files request).warning := by
  cases request with
  | add name source lazy =>
    rcases inv.add_cases files name source lazy with ⟨failure, -, -, served⟩ | ⟨entry, served, -⟩
    · rw [served]
      exact .nothing
    · rw [served]
      exact .put name entry
  | get name => exact reply_with_change inv files name _
  | category name => exact reply_with_change inv files name _
  | isCompiled name => exact .nothing
  | contains name => exact .nothing
  | names => exact .nothing
  | size => exact .nothing
  | remove name => exact .remove name

/-! ### Histories -/

structure Event where
  request : Request
  answer : Answer
  warning : Option Warning

def event (inv : Inventory) (files : FileView) (request : Request) : Event :=
  ⟨request, (inv.serve files request).answer, (inv.serve files request).warning⟩

def after (inv : Inventory) (history : List (FileView × Request)) : Inventory :=
  history.foldl (fun inv step => (inv.serve step.1 step.2).after) inv

def events (inv : Inventory) : List (FileView × Request) → List Event
  | [] => []
  | (files, request) :: rest =>
    inv.event files request :: (inv.serve files request).after.events rest

theorem after_concat (inv : Inventory) (history : List (FileView × Request))
    (files : FileView) (request : Request) :
    inv.after (history ++ [(files, request)]) =
      ((inv.after history).serve files request).after := by
  rw [after, List.foldl_append]
  rfl

theorem events_concat (inv : Inventory) (history : List (FileView × Request))
    (files : FileView) (request : Request) :
    inv.events (history ++ [(files, request)]) =
      inv.events history ++ [(inv.after history).event files request] := by
  induction history generalizing inv with
  | nil => rfl
  | cons step rest ih =>
    obtain ⟨found, first⟩ := step
    rw [List.cons_append, events, events, ih, List.cons_append]
    rfl

theorem serve_frame (inv : Inventory) (files : FileView) (request : Request) :
    (inv.serve files request).after.compiler = inv.compiler ∧
      (inv.serve files request).after.capacity = inv.capacity := by
  have change := inv.serve_change files request
  generalize (inv.serve files request).after = next at change
  generalize (inv.serve files request).warning = warning at change
  cases change with
  | nothing => exact ⟨rfl, rfl⟩
  | put name entry => exact (inv.put_frame name entry).2
  | remove name => exact (inv.remove_frame name).2

theorem after_frame (inv : Inventory) (history : List (FileView × Request)) :
    (inv.after history).compiler = inv.compiler ∧
      (inv.after history).capacity = inv.capacity := by
  induction history using List.reverseRecOn with
  | nil => exact ⟨rfl, rfl⟩
  | append_singleton history step ih =>
    obtain ⟨files, request⟩ := step
    rw [after_concat]
    have kept := (inv.after history).serve_frame files request
    exact ⟨kept.1.trans ih.1, kept.2.trans ih.2⟩

/-! ### What was added last -/

def Event.Adds (e : Event) (name : String) (source : SqlSource) (lazy : Bool) : Prop :=
  e.request = .add name source lazy ∧ e.answer = .added

def Event.Replaces (e : Event) (name : String) : Prop :=
  e.request = .remove name ∨ ∃ source lazy, e.Adds name source lazy

def Event.Obtains (e : Event) (name : String) : Prop :=
  (e.request = .get name ∧ ∃ op, e.answer = .operation op) ∨
    (e.request = .category name ∧ ∃ category, e.answer = .category category)

-- The source that was added last under a name and is not removed, and what has happened since.
structure LastAdded (log : List Event) (name : String) (source : SqlSource) (lazy : Bool)
    (since : List Event) : Prop where
  added : ∃ earlier e, log = earlier ++ e :: since ∧ e.Adds name source lazy
  kept : ∀ e ∈ since, ¬ e.Replaces name

def Known (log : List Event) (name : String) : Prop :=
  ∃ source lazy since, LastAdded log name source lazy since

theorem last_added_nil (name : String) (source : SqlSource) (lazy : Bool) (since : List Event) :
    ¬ LastAdded [] name source lazy since := by
  intro last
  obtain ⟨earlier, e, split, -⟩ := last.added
  simp at split

theorem last_added_concat (log : List Event) (e : Event) (name : String) (source : SqlSource)
    (lazy : Bool) (since : List Event) :
    LastAdded (log ++ [e]) name source lazy since ↔
      since = [] ∧ e.Adds name source lazy ∨
        ∃ before, since = before ++ [e] ∧ ¬ e.Replaces name ∧
          LastAdded log name source lazy before := by
  constructor
  · rintro ⟨⟨earlier, first, split, adds⟩, kept⟩
    induction since using List.reverseRecOn with
    | nil =>
      obtain ⟨-, same⟩ := List.append_inj' split rfl
      cases same
      exact .inl ⟨rfl, adds⟩
    | append_singleton before last _ =>
      rw [← List.cons_append, ← List.append_assoc] at split
      obtain ⟨same, ends⟩ := List.append_inj' split rfl
      cases ends
      refine .inr ⟨before, rfl, kept e (by simp), ⟨earlier, first, same, adds⟩, ?_⟩
      intro other member
      exact kept other (by simp [member])
  · rintro (⟨rfl, adds⟩ | ⟨before, rfl, keeps, ⟨earlier, first, rfl, adds⟩, kept⟩)
    · exact ⟨⟨log, e, rfl, adds⟩, by simp⟩
    · refine ⟨⟨earlier, first, by simp, adds⟩, fun other member => ?_⟩
      rcases List.mem_append.mp member with old | new
      · exact kept other old
      · rw [List.mem_singleton.mp new]
        exact keeps

theorem known_concat (log : List Event) (e : Event) (name : String) :
    Known (log ++ [e]) name ↔
      (∃ source lazy, e.Adds name source lazy) ∨ ¬ e.Replaces name ∧ Known log name := by
  constructor
  · rintro ⟨source, lazy, since, last⟩
    rcases (last_added_concat log e name source lazy since).mp last with
      ⟨-, adds⟩ | ⟨before, -, keeps, last⟩
    · exact .inl ⟨source, lazy, adds⟩
    · exact .inr ⟨keeps, source, lazy, before, last⟩
  · rintro (⟨source, lazy, adds⟩ | ⟨keeps, source, lazy, since, last⟩)
    · exact ⟨source, lazy, [], (last_added_concat ..).mpr (.inl ⟨rfl, adds⟩)⟩
    · exact ⟨source, lazy, since ++ [e], (last_added_concat ..).mpr (.inr ⟨since, rfl, keeps, last⟩)⟩

-- A source is compiled when it is added or when its operation is first obtained.
def Made (name : String) (lazy : Bool) (since : List Event) : Prop :=
  lazy = false ∨ ∃ e ∈ since, e.Obtains name

theorem made_concat (name : String) (lazy : Bool) (since : List Event) (e : Event) :
    Made name lazy (since ++ [e]) ↔ Made name lazy since ∨ e.Obtains name := by
  simp only [Made, List.mem_append, List.mem_singleton, or_and_right, exists_or, exists_eq_left,
    or_assoc]

structure Mirrors (files : FileView) (log : List Event) (inv : Inventory) (name : String) :
    Prop where
  waiting : ∀ source lazy since, LastAdded log name source lazy since → ¬ Made name lazy since →
    inv.entries.get? name = some (.waiting source)
  compiled : ∀ source lazy since, LastAdded log name source lazy since → Made name lazy since →
    ∃ op, inv.entries.get? name = some (.compiled op) ∧
      inv.compiler.compile files name source = .ok op
  unknown : ¬ Known log name → inv.entries.get? name = none

variable {files : FileView} {log : List Event} {inv next : Inventory} {e : Event} {name : String}

theorem mirrors_kept (mirrors : Mirrors files log inv name) (keeps : ¬ e.Replaces name)
    (leaves : ¬ e.Obtains name) (same : next.entries.get? name = inv.entries.get? name)
    (compiler : next.compiler = inv.compiler) : Mirrors files (log ++ [e]) next name := by
  have older {source : SqlSource} {lazy : Bool} {since : List Event}
      (last : LastAdded (log ++ [e]) name source lazy since) :
      ∃ before, LastAdded log name source lazy before ∧
        (Made name lazy since ↔ Made name lazy before) := by
    rcases (last_added_concat log e name source lazy since).mp last with
      ⟨-, adds⟩ | ⟨before, rfl, -, last⟩
    · exact absurd (.inr ⟨source, lazy, adds⟩) keeps
    · exact ⟨before, last, (made_concat ..).trans (or_iff_left leaves)⟩
  constructor
  · intro source lazy since last unmade
    obtain ⟨before, last, made⟩ := older last
    rw [same]
    exact mirrors.waiting source lazy before last (mt made.mpr unmade)
  · intro source lazy since last made
    obtain ⟨before, last, was⟩ := older last
    rw [same, compiler]
    exact mirrors.compiled source lazy before last (was.mp made)
  · intro unknown
    rw [same]
    apply mirrors.unknown
    intro known
    exact unknown ((known_concat ..).mpr (.inr ⟨keeps, known⟩))

theorem mirrors_added {source : SqlSource} {lazy : Bool} (adds : e.Adds name source lazy)
    (held : lazy = true ∧ next.entries.get? name = some (.waiting source) ∨
      lazy = false ∧ ∃ op, next.entries.get? name = some (.compiled op) ∧
        next.compiler.compile files name source = .ok op) :
    Mirrors files (log ++ [e]) next name := by
  have newest {other : SqlSource} {late : Bool} {since : List Event}
      (last : LastAdded (log ++ [e]) name other late since) :
      source = other ∧ lazy = late ∧ since = [] := by
    rcases (last_added_concat log e name other late since).mp last with
      ⟨none, again⟩ | ⟨before, -, keeps, -⟩
    · have same := adds.1.symm.trans again.1
      cases same
      exact ⟨rfl, rfl, none⟩
    · exact absurd (.inr ⟨source, lazy, adds⟩) keeps
  constructor
  · intro other late since last unmade
    obtain ⟨rfl, rfl, rfl⟩ := newest last
    rcases held with ⟨-, waits⟩ | ⟨eager, -⟩
    · exact waits
    · exact absurd (.inl eager) unmade
  · intro other late since last made
    obtain ⟨rfl, rfl, rfl⟩ := newest last
    rcases held with ⟨rfl, -⟩ | ⟨-, held⟩
    · simp [Made] at made
    · exact held
  · intro unknown
    exact absurd ((known_concat ..).mpr (.inl ⟨source, lazy, adds⟩)) unknown

theorem mirrors_removed (removes : e.request = .remove name)
    (gone : next.entries.get? name = none) : Mirrors files (log ++ [e]) next name := by
  have unknown (source : SqlSource) (lazy : Bool) (since : List Event) :
      ¬ LastAdded (log ++ [e]) name source lazy since := by
    intro last
    rcases (last_added_concat log e name source lazy since).mp last with
      ⟨-, adds⟩ | ⟨before, -, keeps, -⟩
    · cases removes.symm.trans adds.1
    · exact keeps (.inl removes)
  exact ⟨fun source lazy since last => absurd last (unknown source lazy since),
    fun source lazy since last => absurd last (unknown source lazy since), fun _ => gone⟩

theorem obtains_keeps (obtains : e.Obtains name) (other : String) : ¬ e.Replaces other := by
  rintro (removes | ⟨source, lazy, adds, -⟩) <;>
    rcases obtains with ⟨asks, -⟩ | ⟨asks, -⟩ <;> simp_all

theorem mirrors_obtained (mirrors : Mirrors files log inv name) (obtains : e.Obtains name)
    (present : inv.entries.get? name ≠ none)
    (held : ∀ source, (inv.entries.get? name = some (.waiting source) ∨
        ∃ op, inv.entries.get? name = some (.compiled op) ∧
          inv.compiler.compile files name source = .ok op) →
      ∃ op, next.entries.get? name = some (.compiled op) ∧
        next.compiler.compile files name source = .ok op) :
    Mirrors files (log ++ [e]) next name := by
  have keeps := obtains_keeps obtains name
  have here {source : SqlSource} {lazy : Bool} {since : List Event}
      (last : LastAdded (log ++ [e]) name source lazy since) :
      Made name lazy since ∧ ∃ op, next.entries.get? name = some (.compiled op) ∧
        next.compiler.compile files name source = .ok op := by
    rcases (last_added_concat log e name source lazy since).mp last with
      ⟨-, adds⟩ | ⟨before, rfl, -, last⟩
    · exact absurd (.inr ⟨source, lazy, adds⟩) keeps
    · refine ⟨(made_concat ..).mpr (.inr obtains), held source ?_⟩
      by_cases made : Made name lazy before
      · exact .inr (mirrors.compiled source lazy before last made)
      · exact .inl (mirrors.waiting source lazy before last made)
  constructor
  · intro source lazy since last unmade
    exact absurd (here last).1 unmade
  · intro source lazy since last made
    exact (here last).2
  · intro unknown
    refine absurd (mirrors.unknown fun known => unknown ?_) present
    exact (known_concat ..).mpr (.inr ⟨keeps, known⟩)

/-! ### What each request does to what is held -/

def Request.Asks (request : Request) (name : String) : Prop :=
  request = .get name ∨ request = .category name

def Request.Concerns (request : Request) (name : String) : Prop :=
  request.Asks name ∨ request = .remove name ∨ ∃ source lazy, request = .add name source lazy

theorem replaces_concerns {request : Request}
    (replaces : (inv.event files request).Replaces name) : request.Concerns name := by
  rcases replaces with removes | ⟨source, lazy, adds, -⟩
  · exact .inr (.inl removes)
  · exact .inr (.inr ⟨source, lazy, adds⟩)

theorem obtains_asks {request : Request} (obtains : (inv.event files request).Obtains name) :
    request.Asks name := by
  rcases obtains with ⟨gets, -⟩ | ⟨categorizes, -⟩
  · exact .inl gets
  · exact .inr categorizes

theorem ask_cases (inv : Inventory) (files : FileView) {request : Request}
    (asks : request.Asks name) :
    (∃ failure, inv.serve files request = ⟨.failed failure, inv, none⟩ ∧
      (inv.entries.get? name = none ∧ failure = .unknownOperation name ∨
        ∃ source, inv.entries.get? name = some (.waiting source) ∧
          inv.compiler.compile files name source = .error failure)) ∨
    (inv.event files request).Obtains name ∧ ∃ op,
      (inv.entries.get? name = some (.compiled op) ∧ (inv.serve files request).after = inv ∨
        ∃ source, inv.entries.get? name = some (.waiting source) ∧
          inv.compiler.compile files name source = .ok op ∧
          (inv.serve files request).after = (inv.put name (.compiled op)).1) := by
  have obtained {op : Operation} {after : Inventory} {warning : Option Warning}
      (got : inv.get files name = .ok (op, after, warning)) :
      (inv.event files request).Obtains name ∧ (inv.serve files request).after = after := by
    rcases asks with rfl | rfl
    · exact ⟨.inl ⟨rfl, op, by simp only [event, serve, got, replyWith]⟩,
        by simp only [serve, got, replyWith]⟩
    · exact ⟨.inr ⟨rfl, op.category, by simp only [event, serve, got, replyWith]⟩,
        by simp only [serve, got, replyWith]⟩
  have refused {failure : Failure} (got : inv.get files name = .error failure) :
      inv.serve files request = ⟨.failed failure, inv, none⟩ := by
    rcases asks with rfl | rfl <;> simp only [serve, got, replyWith]
  rcases inv.get_cases files name with
    ⟨absent, got⟩ | ⟨op, held, got⟩ | ⟨source, failure, held, fails, got⟩ |
      ⟨source, op, held, compiles, got⟩
  · exact .inl ⟨_, refused got, .inl ⟨absent, rfl⟩⟩
  · exact .inr ⟨(obtained got).1, op, .inl ⟨held, (obtained got).2⟩⟩
  · exact .inl ⟨failure, refused got, .inr ⟨source, held, fails⟩⟩
  · exact .inr ⟨(obtained got).1, op, .inr ⟨source, held, compiles, (obtained got).2⟩⟩

theorem elsewhere_held {request : Request} (elsewhere : ¬ request.Concerns name) :
    (inv.serve files request).after.entries.get? name = inv.entries.get? name := by
  have put (other : String) (entry : Entry) (differs : name ≠ other) :
      (inv.put other entry).1.entries.get? name = inv.entries.get? name := by
    rw [(inv.put_frame other entry).1, NameMap.get?_insert, if_neg differs]
  have asked (other : String) (asks : request.Asks other) :
      (inv.serve files request).after.entries.get? name = inv.entries.get? name := by
    have differs : name ≠ other := by
      rintro rfl
      exact elsewhere (.inl asks)
    rcases inv.ask_cases files asks with
      ⟨failure, served, -⟩ | ⟨-, op, ⟨-, same⟩ | ⟨source, -, -, same⟩⟩
    · rw [served]
    · rw [same]
    · rw [same, put other _ differs]
  cases request with
  | add other source lazy =>
    have differs : name ≠ other := by
      rintro rfl
      exact elsewhere (.inr (.inr ⟨source, lazy, rfl⟩))
    rcases inv.add_cases files other source lazy with
      ⟨failure, -, -, served⟩ | ⟨entry, served, -⟩
    · rw [served]
    · rw [served, put other entry differs]
  | get other => exact asked other (.inl rfl)
  | category other => exact asked other (.inr rfl)
  | isCompiled other => rfl
  | contains other => rfl
  | names => rfl
  | size => rfl
  | remove other =>
    have differs : name ≠ other := by
      rintro rfl
      exact elsewhere (.inr (.inl rfl))
    rw [serve, (inv.remove_frame other).1, NameMap.get?_erase, if_neg differs]

theorem ask_mirrors {request : Request} (asks : request.Asks name)
    (mirrors : Mirrors files log inv name) :
    Mirrors files (log ++ [inv.event files request]) (inv.serve files request).after name := by
  rcases inv.ask_cases files asks with
    ⟨failure, served, -⟩ | ⟨obtains, op, ⟨held, same⟩ | ⟨source, held, compiles, same⟩⟩
  · apply mirrors_kept mirrors
    · rintro (removes | ⟨source, lazy, -, added⟩)
      · rcases asks with rfl | rfl <;> cases removes
      · simp [event, served] at added
    · rintro (⟨-, op, got⟩ | ⟨-, category, got⟩) <;> simp [event, served] at got
    · rw [served]
    · rw [served]
  · apply mirrors_obtained mirrors obtains
    · simp [held]
    · intro source either
      rw [same]
      rcases either with waits | compiled
      · rw [held] at waits
        cases waits
      · exact compiled
  · have put := inv.put_frame name (.compiled op)
    apply mirrors_obtained mirrors obtains
    · simp [held]
    · intro other either
      rcases either with waits | ⟨made, compiled, -⟩
      · rw [held] at waits
        cases waits
        refine ⟨op, ?_, ?_⟩
        · rw [same, put.1, NameMap.get?_insert, if_pos rfl]
        · rw [same, put.2.1, compiles]
      · rw [held] at compiled
        cases compiled

theorem serve_mirrors (request : Request) (mirrors : Mirrors files log inv name) :
    Mirrors files (log ++ [inv.event files request]) (inv.serve files request).after name := by
  by_cases concerns : request.Concerns name
  · rcases concerns with asks | rfl | ⟨source, lazy, rfl⟩
    · exact ask_mirrors asks mirrors
    · apply mirrors_removed rfl
      rw [serve, (inv.remove_frame name).1, NameMap.get?_erase, if_pos rfl]
    · rcases inv.add_cases files name source lazy with
        ⟨failure, -, -, served⟩ | ⟨entry, served, made⟩
      · apply mirrors_kept mirrors
        · rintro (removes | ⟨other, late, -, added⟩)
          · cases removes
          · simp [event, served] at added
        · rintro (⟨asked, -⟩ | ⟨asked, -⟩) <;> cases asked
        · rw [served]
        · rw [served]
      · have put := inv.put_frame name entry
        have adds : (inv.event files (.add name source lazy)).Adds name source lazy :=
          ⟨rfl, by simp only [event, served]⟩
        apply mirrors_added adds
        simp only [served, put.1, put.2.1, NameMap.get?_insert]
        rcases made with ⟨waits, rfl⟩ | ⟨eager, op, compiles, rfl⟩
        · exact .inl ⟨waits, rfl⟩
        · exact .inr ⟨eager, op, rfl, compiles⟩
  · apply mirrors_kept mirrors
    · exact fun replaces => concerns (replaces_concerns replaces)
    · exact fun obtains => concerns (.inl (obtains_asks obtains))
    · exact elsewhere_held concerns
    · exact (inv.serve_frame files request).1

theorem history_mirrors (compiler : Compiler) (capacity : Option Nat) (files : FileView)
    (requests : List Request) (name : String) :
    let history := requests.map fun request => (files, request)
    Mirrors files ((empty compiler capacity).events history) ((empty compiler capacity).after history)
      name := by
  induction requests using List.reverseRecOn with
  | nil =>
    refine ⟨fun source lazy since last => ?_, fun source lazy since last => ?_, fun _ => rfl⟩
    · exact absurd last (last_added_nil name source lazy since)
    · exact absurd last (last_added_nil name source lazy since)
  | append_singleton requests request ih =>
    simp only [List.map_append, List.map_cons, List.map_nil, after_concat, events_concat]
    exact serve_mirrors request ih

/-! ### Answers -/

theorem ask_answers (name : String) {result : Except Failure Operation}
    (got : (inv.get files name).map Prod.fst = result) :
    (inv.serve files (.get name)).answer = .ofResult .operation result ∧
      (inv.serve files (.category name)).answer =
        .ofResult (fun op => .category op.category) result := by
  rw [serve, serve, ← got]
  cases inv.get files name <;> exact ⟨rfl, rfl⟩

theorem mirrors_get {source : SqlSource} {lazy : Bool} {since : List Event}
    (mirrors : Mirrors files log inv name) (last : LastAdded log name source lazy since) :
    (inv.get files name).map Prod.fst = inv.compiler.compile files name source := by
  by_cases made : Made name lazy since
  · obtain ⟨op, held, compiles⟩ := mirrors.compiled source lazy since last made
    rw [get, held, compiles]
    rfl
  · rw [get, mirrors.waiting source lazy since last made]
    dsimp only
    cases inv.compiler.compile files name source <;> rfl

theorem mirrors_contains (mirrors : Mirrors files log inv name) :
    inv.contains name = true ↔ Known log name := by
  rw [contains, NameMap.contains]
  constructor
  · intro present
    by_contra unknown
    rw [mirrors.unknown unknown] at present
    cases present
  · rintro ⟨source, lazy, since, last⟩
    by_cases made : Made name lazy since
    · obtain ⟨op, held, -⟩ := mirrors.compiled source lazy since last made
      rw [held]
      rfl
    · rw [mirrors.waiting source lazy since last made]
      rfl

theorem mirrors_is_compiled {source : SqlSource} {lazy : Bool} {since : List Event}
    (mirrors : Mirrors files log inv name) (last : LastAdded log name source lazy since) :
    inv.isCompiled name = true ↔ Made name lazy since := by
  by_cases made : Made name lazy since
  · obtain ⟨op, held, -⟩ := mirrors.compiled source lazy since last made
    simp [isCompiled, held, made, Entry.isCompiled]
  · simp [isCompiled, mirrors.waiting source lazy since last made, made, Entry.isCompiled]

structure AnswersFrom (files : FileView) (log : List Event) (inv : Inventory) : Prop where
  known : ∀ name source lazy since, LastAdded log name source lazy since →
    let result := inv.compiler.compile files name source
    (inv.serve files (.get name)).answer = .ofResult .operation result ∧
    (inv.serve files (.category name)).answer =
      .ofResult (fun op => .category op.category) result ∧
    (inv.serve files (.contains name)).answer = .told true ∧
    (inv.serve files (.remove name)).answer = .told true ∧
    ∃ made, (inv.serve files (.isCompiled name)).answer = .told made ∧
      (made = true ↔ lazy = false ∨ ∃ e ∈ since, e.Obtains name)
  unknown : ∀ name, ¬ Known log name →
    (inv.serve files (.get name)).answer = .failed (.unknownOperation name) ∧
    (inv.serve files (.category name)).answer = .failed (.unknownOperation name) ∧
    (inv.serve files (.contains name)).answer = .told false ∧
    (inv.serve files (.remove name)).answer = .told false ∧
    (inv.serve files (.isCompiled name)).answer = .told false
  -- A source that does not compile stays as it was added, and fails in the same way again.
  failing : ∀ name source since failure, LastAdded log name source true since →
    inv.compiler.compile files name source = .error failure →
    inv.serve files (.get name) = ⟨.failed failure, inv, none⟩ ∧
    inv.serve files (.category name) = ⟨.failed failure, inv, none⟩ ∧
    (inv.serve files (.isCompiled name)).answer = .told false
  names : ∃ names, (inv.serve files .names).answer = .names names ∧ names.Pairwise (· < ·) ∧
    (∀ name, name ∈ names ↔ Known log name) ∧ (inv.serve files .size).answer = .size names.length
  lazily : ∀ name source, (inv.serve files (.add name source true)).answer = .added
  eagerly : ∀ name source, (inv.serve files (.add name source false)).answer =
    .ofResult (fun _ => .added) (inv.compiler.compile files name source)
  refused : ∀ name source lazy failure later,
    (inv.serve files (.add name source lazy)).answer = .failed failure →
    (inv.serve files (.add name source lazy)).warning = none ∧
    (inv.serve files (.add name source lazy)).after.events later = inv.events later

theorem mirrors_failing {source : SqlSource} {since : List Event} {failure : Failure}
    (mirrors : Mirrors files log inv name) (last : LastAdded log name source true since)
    (fails : inv.compiler.compile files name source = .error failure) :
    inv.entries.get? name = some (.waiting source) := by
  apply mirrors.waiting source true since last
  intro made
  obtain ⟨op, -, compiles⟩ := mirrors.compiled source true since last made
  rw [fails] at compiles
  cases compiles

theorem answers_of_mirrors (mirrors : ∀ name, Mirrors files log inv name) :
    AnswersFrom files log inv where
  known name source lazy since last := by
    have asked := ask_answers name (mirrors_get (mirrors name) last)
    have present := (mirrors_contains (mirrors name)).mpr ⟨source, lazy, since, last⟩
    refine ⟨asked.1, asked.2, congrArg Answer.told present, congrArg Answer.told present, ?_⟩
    exact ⟨inv.isCompiled name, rfl, mirrors_is_compiled (mirrors name) last⟩
  unknown name unknown := by
    have absent := (mirrors name).unknown unknown
    have got : (inv.get files name).map Prod.fst = .error (.unknownOperation name) := by
      rw [get, absent]
      rfl
    have asked := ask_answers name got
    have away : inv.contains name = false := by rw [contains, NameMap.contains, absent]; rfl
    refine ⟨asked.1, asked.2, congrArg Answer.told away, congrArg Answer.told away, ?_⟩
    simp [serve, isCompiled, absent]
  failing name source since failure last fails := by
    have held := mirrors_failing (mirrors name) last fails
    have got : inv.get files name = .error failure := by simp only [get, held, fails]
    refine ⟨?_, ?_, ?_⟩
    · simp only [serve, got, replyWith]
    · simp only [serve, got, replyWith]
    · simp [serve, isCompiled, held, Entry.isCompiled]
  names := by
    refine ⟨inv.names, rfl, inv.entries.names_increasing, fun name => ?_, ?_⟩
    · rw [← mirrors_contains (mirrors name), names, NameMap.mem_names_iff, contains, NameMap.contains]
    · simp [serve, size, names, NameMap.size, NameMap.names]
  lazily name source := rfl
  eagerly name source := by
    simp only [serve, add, Bool.false_eq_true, if_false]
    cases inv.compiler.compile files name source <;> rfl
  refused name source lazy failure later fails := by
    rcases inv.add_cases files name source lazy with ⟨other, -, -, served⟩ | ⟨entry, served, -⟩
    · rw [served]
      exact ⟨rfl, rfl⟩
    · rw [served] at fails
      cases fails

-- Whatever has been asked of an inventory, it answers from the sources added last.
theorem history_answers (compiler : Compiler) (capacity : Option Nat) (files : FileView)
    (requests : List Request) :
    let history := requests.map fun request => (files, request)
    let inv := (empty compiler capacity).after history
    inv.compiler = compiler ∧ AnswersFrom files ((empty compiler capacity).events history) inv := by
  intro history inv
  exact ⟨((empty compiler capacity).after_frame history).1,
    answers_of_mirrors fun name => history_mirrors compiler capacity files requests name⟩

end SqlCatalog.Inventory
