/-
The integrity of the heap. A client works with an engine of its own: it asks for one operation after another,
with values that it was given and has not given back. Main result: at any time every property leads to a cell of
the heap, and every reference that is held is to one; from one time to a later one the heap evolves; and in the
middle of each call and each program that the client may ask for, at every moment of the run, the heap is closed
and the slots in hand are cells of it.

One step is the balance of one operation together with its evolution, the rest is induction on the steps; what
happens inside of a run is its course.
-/
import ScriptHost.Proofs.Engine.Balance
import ScriptHost.Proofs.Engine.Watch

namespace ScriptHost

namespace Engine

/-! ## Operations -/

/-- What a client may ask of an engine. -/
inductive Operation where
  | compileFunction (name params : String) (source : Bytes)
  | loadRecord (blob : Bytes) (index : UInt32)
  | runBlob (blob : Bytes)
  | applyFunction (function : Ref) (args : List Ref)
  | newUndefined
  | newObject
  | newBool (value : Bool)
  | newNumber (value : Float)
  | newError (message : String)
  | newModuleLookup (modules : Table Float)
  | newModule (id : String)
  | readProperty (object : Ref) (name : String)
  | writeProperty (object : Ref) (name : String) (value : Ref)
  | textOf (value : Ref)
  | messageOf (error : Ref)
  | acquire (value : Ref)
  | release (value : Ref)

namespace Operation

/-- The references that are passed. -/
def handles : Operation → List Ref
  | .applyFunction function args => function :: args
  | .readProperty object _ => [object]
  | .writeProperty object _ value => [object, value]
  | .textOf value => [value]
  | .messageOf error => [error]
  | .acquire value => [value]
  | .release value => [value]
  | _ => []

/-- The references in an answer that may be an error value. -/
def failure : Except Ref Unit → List Ref
  | .ok () => []
  | .error ref => [ref]

/-- Performs the operation, with the references in its answer. Looking at a value does nothing to the engine. -/
def perform : Operation → EngineM (List Ref)
  | .compileFunction name params source => (fun r => [refOf r]) <$> Engine.compileFunction name params source
  | .loadRecord blob index => (fun r => [refOf r]) <$> Engine.loadRecord blob index
  | .runBlob blob => (fun r => [refOf r]) <$> Engine.runBlob blob
  | .applyFunction function args => (fun r => [refOf r]) <$> Engine.applyFunction function args
  | .newUndefined => (fun ref => [ref]) <$> Engine.newUndefined
  | .newObject => (fun ref => [ref]) <$> Engine.newObject
  | .newBool value => (fun ref => [ref]) <$> Engine.newBool value
  | .newNumber value => (fun ref => [ref]) <$> Engine.newNumber value
  | .newError message => (fun ref => [ref]) <$> Engine.newError message
  | .newModuleLookup modules => (fun ref => [ref]) <$> Engine.newModuleLookup modules
  | .newModule id => (fun ref => [ref]) <$> Engine.newModule id
  | .readProperty object name => (fun r => [refOf r]) <$> Engine.readProperty object name
  | .writeProperty object name value => failure <$> Engine.writeProperty object name value
  | .textOf _ => return []
  | .messageOf _ => return []
  | .acquire value => (fun ref => [ref]) <$> Engine.acquire value
  | .release value => (fun _ => []) <$> Engine.release value

/-- What is still held after the operation of what was held before it. -/
def keeps (op : Operation) (held : List Ref) : List Ref :=
  match op with
  | .release value => held.erase value
  | _ => held

end Operation

/-! ## Steps of a client -/

theorem evolves_create (p : Payload) : Stays Evolves (create p) := evolves_of_quiet (quiet_create p)

theorem newModule_eq (id : String) (e : Engine) : newModule id e =
    create (.object (.ofList [("id", e.heap.size), ("exports", (e.heap.push (.text id)).size)]))
      { e with heap := (e.heap.push (.text id)).push .emptyObject } := rfl

theorem evolves_newModule (id : String) : Stays Evolves (newModule id) := by
  intro e ref e' hr
  rw [newModule_eq] at hr
  have hpush : e.heap.Extends ((e.heap.push (.text id)).push .emptyObject) := (Heap.Extends.push ..).trans (.push ..)
  exact (Heap.Evolves.of_extends hpush).trans (evolves_create _ _ _ _ hr)

theorem Operation.evolves : ∀ op : Operation, Stays Evolves op.perform
  | .compileFunction name params source => stays_map (evolves_of_extends (extends_compileFunction name params source))
  | .loadRecord blob index => stays_map (evolves_of_quiet (quiet_loadRecord blob index))
  | .runBlob blob => stays_map (evolves_of_quiet (quiet_runBlob blob))
  | .applyFunction function args => stays_map (evolves_applyFunction function args)
  | .newUndefined | .newObject | .newBool _ | .newNumber _ | .newError _ | .newModuleLookup _ =>
    stays_map (evolves_create _)
  | .newModule id => stays_map (evolves_newModule id)
  | .readProperty object name => stays_map (evolves_of_quiet (quiet_readProperty object name))
  | .writeProperty object name value => stays_map (evolves_writeProperty object name value)
  | .textOf _ | .messageOf _ => fun e _ e' hr => by cases hr; exact .refl e.heap
  | .acquire value => stays_map (evolves_of_quiet (quiet_acquire value))
  | .release value => stays_map (evolves_of_quiet (quiet_release value))

/-- The object of a module is the third of three new cells, and its properties are the first two. -/
theorem triple_newModule {lo : Nat} {counts : Counts} (id : String) :
    Triple (Balanced lo counts) (newModule id) fun ref e => e.Balanced lo (counts + one ref.slot) := by
  intro e hb
  rw [newModule_eq]
  have hparts : ((e.heap.push (.text id)).push .emptyObject).Balanced lo counts := (hb.push rfl).push rfl
  refine create_balanced hparts fun name next hn => ?_
  have hrow := Table.mem_of_mem_ofList ((Table.get?_eq_some_iff ..).1 hn)
  simp only [List.mem_cons, Prod.mk.injEq, List.not_mem_nil, or_false] at hrow
  rcases hrow with ⟨-, rfl⟩ | ⟨-, rfl⟩
  · exact lt_trans (Heap.size_lt_push ..) (Heap.size_lt_push ..)
  · exact Heap.size_lt_push ..

theorem tally_failure (r : Except Ref Unit) (held : List Ref) :
    tally (Operation.failure r ++ held) = tally held + errorOf r := by
  cases r with
  | ok _ => exact (add_zero _).symm
  | error ref => rfl

theorem Operation.balances {held : List Ref} : ∀ {op : Operation}, (∀ ref ∈ op.handles, ref ∈ held) →
    Triple (Balanced 0 (tally held)) op.perform fun refs => Balanced 0 (tally (refs ++ op.keeps held)) := by
  -- what is passed is held, so it is a cell of the heap
  have known : ∀ {ref : Ref}, ref ∈ held → Known 0 (tally held) ref.slot := fun href => .inr (tally_pos href)
  intro op hh
  cases op with
  | compileFunction name params source => exact triple_map (triple_compileFunction name params source)
  | loadRecord blob index => exact triple_map (triple_loadRecord blob index)
  | runBlob blob => exact triple_map (triple_runBlob blob)
  | applyFunction function args =>
    exact triple_map (triple_applyFunction fun ref href => known (hh ref (List.mem_cons_of_mem _ href)))
  | newUndefined => exact triple_map (triple_create rfl)
  | newObject => exact triple_map (triple_create rfl)
  | newBool value => exact triple_map (triple_create rfl)
  | newNumber value => exact triple_map (triple_create rfl)
  | newError message => exact triple_map (triple_create rfl)
  | newModuleLookup modules => exact triple_map (triple_create rfl)
  | newModule id => exact triple_map (triple_newModule id)
  | readProperty object name => exact triple_map (triple_readProperty (known (hh object List.mem_cons_self)) name)
  | writeProperty object name value =>
    have hvalue := known (hh value (List.mem_cons_of_mem _ List.mem_cons_self))
    refine triple_map ?_
    simp only [tally_failure, keeps]
    exact triple_writeProperty (known (hh object List.mem_cons_self)) hvalue name
  | textOf value => exact triple_pure fun _ hb => hb
  | messageOf error => exact triple_pure fun _ hb => hb
  | acquire value => exact triple_map (triple_acquire (known (hh value List.mem_cons_self)))
  | release value =>
    have hperm := List.perm_cons_erase (hh value List.mem_cons_self)
    refine triple_map (triple_of_ok fun e hb => ⟨(), ?_⟩)
    rw [tally_perm hperm, tally_cons] at hb
    exact release_ok hb

end Engine

/-! ## Runs that are watched -/

namespace Watch

/-- What `Engine.blobProgram` runs, with notes. -/
def blobProgram (depth : Nat) (blob : Bytes) : Watch Slot :=
  match Snapshot.records? blob with
  | none => fail .badSnapshotHeader
  | some records => do
    let body ← act [] (Engine.compileBody "" (records.headD []))
    program depth body

theorem tracks_blobProgram (depth n : Nat) (blob : Bytes) :
    Tracks n (blobProgram depth blob) (Engine.blobProgram depth blob) := by
  unfold blobProgram Engine.blobProgram
  cases Snapshot.records? blob with
  | none => exact tracks_fail _
  | some records =>
    refine tracks_bind (tracks_act (fun _ hs => by cases hs) fun h => Engine.confines_compileBody _ h.size _ _)
      (Engine.confines_compileBody _ n _ _) fun m body _ _ => ?_
    exact tracks_program depth m body

/-- Watched from this heap, the run does what it does, and what is noted is its course. -/
def Shows {α : Type} (h : Heap) (w : Watch α) (r : Run α) : Prop :=
  ∃ seen, w.run (h, []) = ((r.run h).1, ((r.run h).2, seen)) ∧ Course h seen (r.run h).2

theorem Tracks.shows {α : Type} {h : Heap} {w : Watch α} {r : Run α} (ht : Tracks h.size w r) (hc : h.Closed) :
    Shows h w r := by
  obtain ⟨seen, hrun, hcourse⟩ := ht h [] hc (le_refl _)
  exact ⟨seen, hrun, hcourse⟩

end Watch

/-! ## Clients -/

/-- A client of an engine, with the references that it was given and has not given back. -/
structure Client where
  engine : Engine
  held : List Ref

namespace Client

/-- A client of a new engine. -/
def new (depth : Nat) : Client := ⟨.new depth, []⟩

/-- The client after one operation. -/
def step (c : Client) (op : Engine.Operation) : Except Halt Client :=
  (op.perform c.engine).map fun r => ⟨r.2, r.1 ++ op.keeps c.held⟩

/-- What a client may come to, passing only references that it holds. -/
inductive Reaches (start : Client) : Client → Prop where
  | start : Reaches start start
  | step {c c' : Client} {op : Engine.Operation} : Reaches start c → (∀ ref ∈ op.handles, ref ∈ c.held) →
      c.step op = .ok c' → Reaches start c'

/-- The heap is closed, and it counts just the references that the client holds. -/
def Sound (c : Client) : Prop := c.engine.Balanced 0 (tally c.held)

theorem sound_new (depth : Nat) : (new depth).Sound where
  closed := fun slot name next hn => by cases hn
  grown := le_refl _
  refs := fun _ => rfl

variable {c c' : Client}

theorem Sound.step {op : Engine.Operation} (hs : c.Sound) (hh : ∀ ref ∈ op.handles, ref ∈ c.held)
    (h : c.step op = .ok c') : c'.Sound ∧ c.engine.heap.Evolves c'.engine.heap := by
  obtain ⟨⟨answer, e⟩, hop, rfl⟩ := exists_of_map_ok h
  constructor
  · have hb := Engine.Operation.balances hh c.engine hs
    rw [hop] at hb
    exact hb
  · exact op.evolves c.engine answer e hop

theorem Sound.reaches (hs : c.Sound) (h : c.Reaches c') : c'.Sound ∧ c.engine.heap.Evolves c'.engine.heap := by
  induction h with
  | start => exact ⟨hs, .refl _⟩
  | step _ hh hstep ih =>
    obtain ⟨hmid, hevolves⟩ := ih
    obtain ⟨hlast, hmore⟩ := hmid.step hh hstep
    exact ⟨hlast, hevolves.trans hmore⟩

theorem Sound.lt_size (hs : c.Sound) {ref : Ref} (href : ref ∈ c.held) : ref.slot < c.engine.heap.size :=
  Heap.Balanced.lt_size hs (.inr (tally_pos href))

/-- Whatever a client of a new engine has asked for, each property leads to a cell of the heap, and so does each
reference that the client holds; whatever it asks for then, the heap evolves. And of what it may have run next,
a call of a function with arguments or the program of a blob, each moment is sound, and of any two moments the
heap of the later has evolved from that of the earlier. -/
theorem heap_integrity {depth : Nat} (h : (new depth).Reaches c) (h' : c.Reaches c') :
    c.engine.heap.Closed ∧ (∀ ref ∈ c.held, ref.slot < c.engine.heap.size) ∧
    c.engine.heap.Evolves c'.engine.heap ∧
    (∀ function ∈ c.held, ∀ args : List Ref, (∀ ref ∈ args, ref ∈ c.held) →
      Watch.Shows c.engine.heap (Watch.callWithin c.engine.depth function.slot (args.map (·.slot)))
        (Run.callWithin c.engine.depth function.slot (args.map (·.slot)))) ∧
    ∀ blob : Bytes, Watch.Shows c.engine.heap (Watch.blobProgram c.engine.depth blob)
      (Engine.blobProgram c.engine.depth blob) := by
  have hs : c.Sound := ((sound_new depth).reaches h).1
  have hclosed : c.engine.heap.Closed := hs.closed
  refine ⟨hclosed, fun ref => hs.lt_size, (hs.reaches h').2, fun function hf args ha => ?_, fun blob => ?_⟩
  · refine (Watch.follows_callWithin _ _ _ _ (hs.lt_size hf) fun slot hslot => ?_).shows hclosed
    obtain ⟨ref, href, rfl⟩ := List.mem_map.1 hslot
    exact hs.lt_size (ha ref href)
  · exact (Watch.tracks_blobProgram _ _ blob).shows hclosed

/-- An object is made, and a function that puts a new object into its argument; then the one is called with the
other, which is given back. -/
theorem heap_integrity_call : ∃ c c', (new 1).Reaches c ∧ c.Reaches c' ∧ c.held = [⟨1, 2⟩, ⟨0, 1⟩] ∧
    c'.held = [⟨2, 3⟩, ⟨1, 2⟩] ∧ c.engine.heap.Closed ∧ c.engine.heap.Evolves c'.engine.heap ∧
    Watch.Shows c.engine.heap (Watch.callWithin c.engine.depth 1 [0]) (Run.callWithin c.engine.depth 1 [0]) := by
  have hview : (((new 1).step .newObject).bind fun c₁ =>
      (c₁.step (.compileFunction "f" "o" "o.x = \x7b\x7d\nreturn o.x".toUTF8.toList)).bind fun c₂ =>
      (c₂.step (.applyFunction ⟨1, 2⟩ [⟨0, 1⟩])).bind fun c₃ =>
      (c₃.step (.release ⟨0, 1⟩)).map fun c₄ => (c₂.held, c₃.held, c₄.held)) =
      .ok ([⟨1, 2⟩, ⟨0, 1⟩], [⟨2, 3⟩, ⟨1, 2⟩, ⟨0, 1⟩], [⟨2, 3⟩, ⟨1, 2⟩]) := by
    decide +kernel
  obtain ⟨c₁, h₁, hview⟩ := exists_of_bind_ok hview
  obtain ⟨c₂, h₂, hview⟩ := exists_of_bind_ok hview
  obtain ⟨c₃, h₃, hview⟩ := exists_of_bind_ok hview
  obtain ⟨c₄, h₄, hview⟩ := exists_of_map_ok hview
  simp only [Prod.mk.injEq] at hview
  obtain ⟨hheld₂, hheld₃, hheld₄⟩ := hview
  have hfirst : (new 1).Reaches c₁ := Reaches.start.step (fun _ href => by cases href) h₁
  have hreach : (new 1).Reaches c₂ := hfirst.step (fun _ href => by cases href) h₂
  have hmore : c₂.Reaches c₄ := by
    refine (Reaches.start.step ?_ h₃).step ?_ h₄
    · rw [hheld₂]
      decide
    · rw [hheld₃]
      decide
  obtain ⟨hclosed, -, hevolves, hcalls, -⟩ := heap_integrity hreach hmore
  refine ⟨c₂, c₄, hreach, hmore, hheld₂, hheld₄, hclosed, hevolves, ?_⟩
  exact hcalls ⟨1, 2⟩ (by rw [hheld₂]; decide) [⟨0, 1⟩] (by rw [hheld₂]; decide)

end Client

end ScriptHost
