/-
Hosts whose values are tame: what the values reach is on the heap, and none of it is a function of a script.
Every call of the engine ends on such a host, a call of a function too, and leaves the values tame, with
its answer among them; only what is compiled is not tame, and nothing that was there leads to it.

An operation ends unless it nests calls too deeply. That it gives back no reference twice is another matter,
which its balance tells.
-/
import ScriptHost.Proofs.Engine.Scriptless
import ScriptHost.Proofs.Engine.Triple
import ScriptHost.Proofs.Host.Quiet

namespace ScriptHost

open Engine (refOf)

/-! ## Operations that end -/

section Ends

variable {σ α β : Type} {P : σ → Prop}

/-- An end with something good, or with a reference that is given back and not held. -/
def Finishes (good : α → Prop) : Except Halt α → Prop
  | .ok a => good a
  | .error .tooDeep => False
  | .error (.overReleased _) => True

/-- From a state with `P` the computation does not nest calls too deeply, and a value and a state that it ends
with are as in `Q`. -/
def Leads (P : σ → Prop) (op : StateT σ (Except Halt) α) (Q : α → σ → Prop) : Prop :=
  ∀ s, P s → Finishes (fun r => Q r.1 r.2) (op s)

theorem Finishes.bind {good : α → Prop} {good' : β → Prop} {x : Except Halt α} {f : α → Except Halt β}
    (hx : Finishes good x) (hf : ∀ a, x = .ok a → good a → Finishes good' (f a)) : Finishes good' (x.bind f) := by
  rcases x with (_ | _) | a
  · exact hx
  · trivial
  · exact hf a rfl hx

theorem Finishes.mono {good good' : α → Prop} {x : Except Halt α} (hx : Finishes good x)
    (h : ∀ a, good a → good' a) : Finishes good' x := by
  rcases x with (_ | _) | a
  · exact hx
  · trivial
  · exact h a hx

/-- A computation that ends and that is also known not to give back too much comes to something. -/
theorem Finishes.exists_ok {good good' : α → Prop} {x : Except Halt α} (hx : Finishes good x)
    (hw : EndsWell good' x) : ∃ a, x = .ok a := by
  rcases x with (_ | _) | a
  · exact hx.elim
  · exact hw.elim
  · exact ⟨a, rfl⟩

theorem leads_pure {a : α} {Q : α → σ → Prop} (h : ∀ s, P s → Q a s) : Leads P (pure a) Q := h

theorem leads_bind {x : StateT σ (Except Halt) α} {f : α → StateT σ (Except Halt) β} {R : α → σ → Prop}
    {Q : β → σ → Prop} (hx : Leads P x R) (hf : ∀ a, Leads (R a) (f a) Q) : Leads P (x >>= f) Q :=
  fun s hs => (hx s hs).bind fun r _ hr => hf r.1 r.2 hr

theorem leads_map {x : StateT σ (Except Halt) α} {f : α → β} {Q : β → σ → Prop}
    (hx : Leads P x fun a => Q (f a)) : Leads P (f <$> x) Q :=
  fun s hs => (hx s hs).bind fun _ _ hr => hr

theorem leads_mono {op : StateT σ (Except Halt) α} {Q Q' : α → σ → Prop} (h : Leads P op Q)
    (hq : ∀ a s, Q a s → Q' a s) : Leads P op Q' :=
  fun s hs => (h s hs).mono fun r hr => hq r.1 r.2 hr

end Ends

/-! ## Tame heaps -/

namespace Heap

variable {h h' : Heap} {roots roots' : List Slot}

theorem Reaches.mono (hsub : roots ⊆ roots') {slot : Slot} (hr : h.Reaches roots slot) : h.Reaches roots' slot := by
  induction hr with
  | root hs => exact .root (hsub hs)
  | step _ hn ih => exact ih.step hn

theorem Reaches.append {slot : Slot} (hr : h.Reaches (roots ++ roots') slot) :
    h.Reaches roots slot ∨ h.Reaches roots' slot := by
  induction hr with
  | root hs => exact (List.mem_append.1 hs).imp .root .root
  | step _ hn ih => exact ih.imp (fun hr => hr.step hn) fun hr => hr.step hn

/-- What some values reach is on the heap, and none of it is a function of a script. -/
structure Tame (h : Heap) (roots : List Slot) : Prop where
  inside : ∀ slot, h.Reaches roots slot → slot < h.size
  scriptless : h.ReachesOnly .scriptless roots

namespace Tame

theorem sub (ht : h.Tame roots) (hsub : roots' ⊆ roots) : h.Tame roots' :=
  ⟨fun slot hr => ht.inside slot (hr.mono hsub), fun slot hr => ht.scriptless slot (hr.mono hsub)⟩

theorem append (ht : h.Tame roots) (ht' : h.Tame roots') : h.Tame (roots ++ roots') :=
  ⟨fun slot hr => hr.append.elim (ht.inside slot) (ht'.inside slot),
    fun slot hr => hr.append.elim (ht.scriptless slot) (ht'.scriptless slot)⟩

/-- On a closed heap values of the heap reach values of the heap. -/
theorem of_closed (hc : h.Closed) (hroots : ∀ slot ∈ roots, slot < h.size) (hs : h.ReachesOnly .scriptless roots) :
    h.Tame roots := by
  refine ⟨fun slot hr => ?_, hs⟩
  cases hr with
  | root hr => exact hroots slot hr
  | step _ hn => exact hc _ _ _ hn

/-- A heap that has only grown leads from the values to what it led to. -/
theorem reaches_of_extends (ht : h.Tame roots) (he : h.Extends h') {slot : Slot} (hr : h'.Reaches roots slot) :
    h.Reaches roots slot := by
  induction hr with
  | root hs => exact .root hs
  | @step slot next name _ hn ih =>
    have hprop : (h.properties slot).get? name = some next := by
      rw [properties_eq, ← he.payload slot (ht.inside slot ih), ← properties_eq]
      exact hn
    exact ih.step hprop

theorem grow (ht : h.Tame roots) (he : h.Extends h') : h'.Tame roots := by
  refine ⟨fun slot hr => ?_, fun slot hr => ?_⟩
  · exact lt_of_lt_of_le (ht.inside slot (ht.reaches_of_extends he hr)) he.grown
  · have hold := ht.reaches_of_extends he hr
    rw [he.payload slot (ht.inside slot hold)]
    exact ht.scriptless slot hold

/-- A run that was given tame values leaves tame whatever it may reach. -/
theorem of_spared (ht : h.Tame roots) (hs : h.SparedOf .scriptless roots h')
    (hroots : ∀ slot ∈ roots', h.Within roots h'.size slot) : h'.Tame roots' := by
  -- what a run leaves leads nowhere but to what it was given and to what it made
  have hwithin : ∀ slot, h'.Reaches roots' slot → h.Within roots h'.size slot := by
    intro slot hr
    induction hr with
    | root hr => exact hroots _ hr
    | step _ hn ih => exact hs.closed _ _ _ ih hn
  refine ⟨fun slot hr => ?_, fun slot hr => hs.kind slot (hwithin slot hr)⟩
  rcases hwithin slot hr with ⟨-, hlt⟩ | hold
  · exact hlt
  · exact lt_of_lt_of_le (ht.inside slot hold) hs.grown

end Tame

end Heap

/-! ## Operations of the engine -/

namespace Engine

variable {roots : List Slot}

/-- Bodies may be run, and what some values reach is none. -/
structure Tame (roots : List Slot) (e : Engine) : Prop where
  depth : 0 < e.depth
  heap : e.heap.Tame roots

theorem Tame.sub {roots' : List Slot} {e : Engine} (ht : e.Tame roots) (hsub : roots' ⊆ roots) : e.Tame roots' :=
  ⟨ht.depth, ht.heap.sub hsub⟩

/-- Values may be named more than once. -/
theorem Tame.again {more : List Slot} {e : Engine} (ht : e.Tame roots) (hsub : more ⊆ roots) : e.Tame (more ++ roots) :=
  ht.sub (List.append_subset.2 ⟨hsub, List.Subset.refl _⟩)

/-- Values in the middle may be left out. -/
theorem Tame.forget {gain more : List Slot} {e : Engine} (ht : e.Tame (gain ++ (more ++ roots))) :
    e.Tame (gain ++ roots) :=
  ht.sub (List.append_subset.2 ⟨List.subset_append_left .., fun _ hs =>
    List.mem_append_right _ (List.mem_append_right _ hs)⟩)

/-- A run that stays among the values, handed out. -/
theorem Tame.handOut {e : Engine} {now : Heap} {slot : Slot} (ht : e.Tame roots)
    (hs : e.heap.SparedOf .scriptless roots now) (hw : e.heap.Within roots now.size slot) :
    (e.handOut now slot).Tame (slot :: roots) := by
  refine ⟨ht.depth, (ht.heap.of_spared hs ?_).grow (.setRefs now slot _)⟩
  intro other ho
  rcases List.mem_cons.1 ho with rfl | ho
  · exact hw
  · exact .inr (.root ho)

theorem Tame.runOut {r : Run Slot} {e e' : Engine} {result : Except Ref Ref} (ht : e.Tame roots)
    (hr : (e.heap.regionOf .scriptless roots).Confines e.heap.size r (e.heap.Within roots))
    (h : Engine.runOut r e = .ok (result, e')) : e'.Tame ((refOf result).slot :: roots) := by
  obtain ⟨out, heap, hout, hslot, rfl⟩ := runOut_ok h
  obtain ⟨hs, -, hends⟩ := hr e.heap (.refl ht.heap.scriptless) (le_refl _) out heap hout
  refine ht.handOut hs ?_
  rcases hslot with rfl | rfl <;> exact hends

theorem leads_applyFunction {function : Ref} {args : List Ref} (ha : args.map (·.slot) ⊆ roots) :
    Leads (Tame roots) (applyFunction function args) fun result => Tame ((refOf result).slot :: roots) := by
  intro e ht
  obtain ⟨result, e', hrun⟩ := exists_applyFunction function ht.depth (ht.heap.sub ha).scriptless
  rw [hrun]
  rw [applyFunction_eq] at hrun
  refine Tame.runOut (e := { e with calls := e.calls + 1 }) ⟨ht.depth, ht.heap⟩ ?_ hrun
  exact Region.admits_callWithin _ e.depth _ _ _ fun slot hs => .inr (.root (ha hs))

theorem leads_runBlob (blob : Bytes) :
    Leads (Tame roots) (runBlob blob) fun result => Tame ((refOf result).slot :: roots) := by
  intro e ht
  obtain ⟨result, e', hrun⟩ := exists_runBlob blob e
  rw [hrun]
  exact ht.runOut (confines_blobProgram _ _ e.depth blob) (by rw [← runBlob_eq]; exact hrun)

theorem leads_readProperty {object : Ref} (ho : object.slot ∈ roots) (name : String) :
    Leads (Tame roots) (readProperty object name) fun result => Tame ((refOf result).slot :: roots) := by
  intro e ht
  obtain ⟨result, e', hrun⟩ := runOut_of_shallow (Run.shallow_readProperty object.slot name) e
  show Finishes _ (runOut (Run.readProperty object.slot name) e)
  rw [hrun]
  exact ht.runOut (Region.confines_readProperty name (.inr (.root ho))) hrun

theorem leads_writeProperty {object value : Ref} (ho : object.slot ∈ roots) (hv : value.slot ∈ roots) (name : String) :
    Leads (Tame roots) (writeProperty object name value) fun _ => Tame roots := by
  intro e ht
  have hc := Region.confines_writeProperty (R := e.heap.regionOf .scriptless roots) (n := e.heap.size) name
    (.inr (.root ho)) (.inr (.root hv))
  have hend := Run.shallow_writeProperty object.slot name value.slot e.heap
  rw [writeProperty_eq]
  rcases hrun : (Run.writeProperty object.slot name value.slot).run e.heap with ⟨(slot | _) | _, heap⟩
  · obtain ⟨hs, -, hw⟩ := hc e.heap (.refl ht.heap.scriptless) (le_refl _) _ _ hrun
    exact (ht.handOut hs hw).sub fun _ => List.mem_cons_of_mem _
  · rw [hrun] at hend
    exact hend rfl
  · obtain ⟨hs, -, -⟩ := hc e.heap (.refl ht.heap.scriptless) (le_refl _) _ _ hrun
    exact ⟨ht.depth, ht.heap.of_spared hs fun slot hslot => .inr (.root hslot)⟩

theorem leads_create {p : Payload} (hp : p.Plain) :
    Leads (Tame roots) (create p) fun ref => Tame (ref.slot :: roots) := by
  intro e ht
  have hs : e.heap.SparedOf .scriptless roots e.heap := .refl ht.heap.scriptless
  have hpush : e.heap.SparedOf .scriptless roots (e.heap.push p) := (e.heap.regionOf .scriptless roots).alloc hs hp
  refine ht.handOut hpush ?_
  rw [Heap.size_push]
  exact (e.heap.regionOf .scriptless roots).fresh hs

theorem leads_acquire (ref : Ref) :
    Leads (Tame roots) (acquire ref) fun copy e => copy.slot = ref.slot ∧ e.Tame roots :=
  fun _ ht => ⟨rfl, ht.depth, ht.heap.grow (.setRefs ..)⟩

theorem leads_release (ref : Ref) : Leads (Tame roots) (release ref) fun _ => Tame roots := by
  intro e ht
  cases hn : e.heap.refs ref.slot with
  | zero =>
    rw [release_of_zero hn]
    trivial
  | succ n =>
    rw [release_of_succ hn]
    exact ⟨ht.depth, ht.heap.grow (.setRefs ..)⟩

/-- What is compiled is new, and nothing leads to it. -/
theorem leads_runOut_append {r : Run Slot} (hr : r.Appends) (hend : r.Shallow) :
    Leads (Tame roots) (runOut r) fun _ => Tame roots := by
  intro e ht
  obtain ⟨result, e', hrun⟩ := runOut_of_shallow hend e
  rw [hrun]
  obtain ⟨out, heap, hout, -, rfl⟩ := runOut_ok hrun
  exact ⟨ht.depth, (ht.heap.grow (hr _ _ _ hout)).grow (.setRefs ..)⟩

theorem shallow_allocFunction (params : String) (source : Bytes) : (allocFunction params source).Shallow :=
  Run.shallow_bind (shallow_compileBody params source) fun _ => Run.shallow_alloc _

theorem leads_compileFunction (name params : String) (source : Bytes) :
    Leads (Tame roots) (compileFunction name params source) fun _ => Tame roots := by
  intro e ht
  exact leads_runOut_append (appends_allocFunction params source) (shallow_allocFunction params source)
    { e with parses := e.parses.push ⟨name, params⟩ } ⟨ht.depth, ht.heap⟩

theorem leads_loadRecord (blob : Bytes) (index : UInt32) :
    Leads (Tame roots) (loadRecord blob index) fun _ => Tame roots := by
  unfold loadRecord
  split
  · exact leads_runOut_append (Run.appends_fail _) (Run.shallow_fail _)
  · split
    · exact leads_runOut_append (Run.appends_fail _) (Run.shallow_fail _)
    · exact leads_runOut_append (appends_allocFunction _ _) (shallow_allocFunction _ _)

end Engine

/-! ## Calls of the host -/

namespace Host

variable {α : Type} {roots : List Slot}

/-- The values are tame on the engine of the host. -/
abbrev Tame (roots : List Slot) (h : Host) : Prop := h.engine.Tame roots

theorem leads_call {op : EngineM α} {entry : α → EngineCall} {P : Engine → Prop} {Q : α → Engine → Prop}
    (h : Leads P op Q) : Leads (fun host => P host.engine) (call op entry) fun a host => Q a host.engine := by
  intro host hp
  rw [call_eq]
  have hop := h host.engine hp
  generalize op host.engine = ended at hop ⊢
  rcases ended with (_ | _) | r
  · exact hop
  · trivial
  · exact hop

theorem leads_emit (event : Event) : Leads (Tame roots) (emit event) fun _ => Tame roots := fun _ ht => ht

theorem leads_textOf (value : Ref) : Leads (Tame roots) (textOf value) fun _ => Tame roots :=
  leads_call (Q := fun _ => Engine.Tame roots) fun _ ht => ht

theorem leads_messageOf (error : Ref) : Leads (Tame roots) (messageOf error) fun _ => Tame roots :=
  leads_call (Q := fun _ => Engine.Tame roots) fun _ ht => ht

theorem leads_newUndefined : Leads (Tame roots) newUndefined fun ref => Tame (ref.slot :: roots) :=
  leads_call (Engine.leads_create trivial)

theorem leads_newObject : Leads (Tame roots) newObject fun ref => Tame (ref.slot :: roots) :=
  leads_call (Engine.leads_create (p := .emptyObject) rfl)

theorem leads_runBlob (blob : Bytes) :
    Leads (Tame roots) (runBlob blob) fun result => Tame ((refOf result).slot :: roots) :=
  leads_call (Engine.leads_runBlob blob)

theorem leads_acquire (value : Ref) :
    Leads (Tame roots) (acquire value) fun copy h => copy.slot = value.slot ∧ h.Tame roots :=
  leads_call (Q := fun (copy : Ref) e => copy.slot = value.slot ∧ e.Tame roots) (Engine.leads_acquire value)

theorem leads_release (value : Ref) : Leads (Tame roots) (release value) fun _ => Tame roots :=
  leads_call (Engine.leads_release value)

theorem leads_compileFunction (name params : String) (source : Bytes) :
    Leads (Tame roots) (compileFunction name params source) fun _ => Tame roots :=
  leads_call (Engine.leads_compileFunction name params source)

theorem leads_loadRecord (blob : Bytes) (index : UInt32) :
    Leads (Tame roots) (loadRecord blob index) fun _ => Tame roots :=
  leads_call (Engine.leads_loadRecord blob index)

theorem leads_applyFunction {function this : Ref} {args : List Ref} (ha : args.map (·.slot) ⊆ roots) :
    Leads (Tame roots) (applyFunction function this args) fun result => Tame ((refOf result).slot :: roots) :=
  leads_call (Engine.leads_applyFunction ha)

theorem leads_readProperty {object : Ref} (ho : object.slot ∈ roots) (name : String) :
    Leads (Tame roots) (readProperty object name) fun result => Tame ((refOf result).slot :: roots) := by
  intro h ht
  refine leads_call (P := Engine.Tame roots) (Q := fun result => Engine.Tame ((refOf result).slot :: roots)) ?_ h ht
  split
  · exact leads_map (Engine.leads_create trivial)
  · exact Engine.leads_readProperty ho name

theorem leads_writeProperty {object value : Ref} (ho : object.slot ∈ roots) (hv : value.slot ∈ roots) (name : String) :
    Leads (Tame roots) (writeProperty object name value) fun _ => Tame roots := by
  intro h ht
  refine leads_call (P := Engine.Tame roots) (Q := fun _ => Engine.Tame roots) ?_ h ht
  split
  · exact leads_map (leads_mono (Engine.leads_create trivial) fun _ _ ht => ht.sub fun _ => List.mem_cons_of_mem _)
  · exact Engine.leads_writeProperty ho hv name

end Host

/-! ## Attempts -/

/-- The values in what an attempt comes to; a failed one has none. -/
def gained {α : Type} (gain : α → List Slot) : Except HostError α → List Slot
  | .ok a => gain a
  | .error _ => []

namespace Attempt

variable {α β : Type} {roots : List Slot} {gain : α → List Slot} {gain' : β → List Slot}

/-- Where the values are tame, the attempt ends, and they are tame after it with those that are gained. -/
def Tames (roots : List Slot) (op : Attempt α) (gain : α → List Slot) : Prop :=
  Leads (Host.Tame roots) op.run fun r => Host.Tame (gained gain r ++ roots)

theorem tames_pure {a : α} (h : gain a ⊆ roots) : Tames roots (pure a) gain :=
  fun _ ht => ht.again h

theorem tames_throw {e : HostError} : Tames roots (throw e : Attempt α) gain := fun _ ht => ht

theorem tames_outcome {outcome : Except HostError α} (h : gained gain outcome ⊆ roots) :
    Tames roots (ExceptT.mk (pure outcome)) gain :=
  fun _ ht => ht.again h

theorem tames_lift {op : HostM α} (h : Leads (Host.Tame roots) op fun a => Host.Tame (gain a ++ roots)) :
    Tames roots (liftM op) gain :=
  leads_map h

theorem tames_bind {op : Attempt α} {next : α → Attempt β} (h : Tames roots op gain)
    (hn : ∀ a, Tames (gain a ++ roots) (next a) gain') : Tames roots (op >>= next) gain' := by
  refine leads_bind h fun r => ?_
  cases r with
  | ok a =>
    exact leads_mono (hn a) fun r' h ht => ht.forget
  | error e => exact fun _ ht => ht

/-- A call that adds no value. -/
theorem tames_lift_bind {op : HostM α} {next : α → Attempt β} (h : Leads (Host.Tame roots) op fun _ => Host.Tame roots)
    (hn : ∀ a, Tames roots (next a) gain') : Tames roots (liftM op >>= next) gain' := by
  have hlift : Tames roots (liftM op) fun _ => [] := tames_lift h
  exact tames_bind hlift hn

theorem tames_newUndefined : Tames roots (liftM Host.newUndefined) fun ref : Ref => [ref.slot] :=
  tames_lift Host.leads_newUndefined

/-- A call that answers with a value or an error value. -/
theorem tames_result {op : HostM (Except Ref Ref)}
    (h : Leads (Host.Tame roots) op fun result => Host.Tame ((refOf result).slot :: roots)) :
    Tames roots (liftM op) fun result => [(refOf result).slot] :=
  tames_lift h

theorem tames_holding {ref : Ref} {work : Attempt α} (h : Tames roots work gain) :
    Tames roots (holding ref work) gain :=
  leads_bind h fun _ => leads_bind (Host.leads_release ref) fun _ => leads_pure fun _ ht => ht

end Attempt

/-! ## Factories -/

namespace Factory

open Attempt

variable {roots : List Slot}

theorem tames_compile (name : String) (source : Bytes) : Tames roots (compile name source) fun _ => [] := by
  refine tames_lift_bind (Host.leads_emit _) fun _ => ?_
  refine tames_lift_bind (Host.leads_compileFunction name signature source) fun result => ?_
  cases result with
  | ok function => exact tames_pure (List.nil_subset _)
  | error error =>
    refine tames_holding ?_
    refine tames_lift_bind (Host.leads_messageOf error) fun message => ?_
    exact tames_lift_bind (Host.leads_emit _) fun _ => tames_throw

theorem tames_orCorrupt (result : Except Ref Ref) : Tames roots (orCorrupt result) fun _ => [] := by
  cases result with
  | ok value => exact tames_pure (List.nil_subset _)
  | error error => exact tames_holding (tames_lift_bind (Host.leads_messageOf error) fun _ => tames_throw)

theorem tames_ofRecord (name : String) (blob : Bytes) (index : UInt32) :
    Tames roots (ofRecord name blob index) fun _ => [] := by
  unfold ofRecord
  split
  · exact tames_throw
  · refine tames_lift_bind (Host.leads_emit _) fun _ => ?_
    refine tames_lift_bind (Host.leads_loadRecord blob index) fun result => ?_
    exact tames_bind (tames_orCorrupt result) fun _ => tames_pure (List.nil_subset _)

/-- A call on tame values ends, whatever the factory does. -/
theorem tames_call (compiled : Except HostError Factory) {args : Args}
    (ha : args.toList.map (·.slot) ⊆ roots) : Tames roots (call compiled args) fun ref => [ref.slot] := by
  have hcompiled : Tames roots (ExceptT.mk (pure compiled)) fun _ => [] := by
    refine tames_outcome ?_
    cases compiled <;> exact List.nil_subset _
  refine tames_bind hcompiled fun factory => ?_
  refine tames_bind tames_newUndefined fun this => tames_holding (tames_lift_bind (Host.leads_emit _) fun _ => ?_)
  refine tames_bind (tames_result (Host.leads_applyFunction fun _ hs => List.mem_cons_of_mem _ (ha hs)))
    fun completion => ?_
  refine tames_lift_bind (Host.leads_release factory.function) fun _ => ?_
  cases completion with
  | ok value => exact tames_pure (List.subset_append_left ..)
  | error error =>
    refine tames_holding (tames_lift_bind (Host.leads_messageOf error) fun message => ?_)
    exact tames_lift_bind (Host.leads_emit _) fun _ => tames_throw

end Factory

end ScriptHost
