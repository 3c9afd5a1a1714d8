/-
Operations that only add to the heap. What was on the heap keeps its payload, and no function is called;
a quiet operation compiles nothing either. Reading, creating, counting references and running a program
that is given no values are quiet, compiling is not, and a write is where it fails.
-/
import ScriptHost.Proofs.Engine.Confinement

namespace ScriptHost

section Stays

variable {σ α β : Type} {R : σ → σ → Prop}

/-- Whenever the computation ends, the state after it is related to the one before it. -/
def Stays (R : σ → σ → Prop) (op : StateT σ (Except Halt) α) : Prop :=
  ∀ s a s', op s = .ok (a, s') → R s s'

theorem stays_mono {R' : σ → σ → Prop} {op : StateT σ (Except Halt) α} (h : Stays R op)
    (hr : ∀ s s', R s s' → R' s s') : Stays R' op :=
  fun s a s' hop => hr s s' (h s a s' hop)

theorem stays_pure [Std.Refl R] {a : α} : Stays R (pure a : StateT σ (Except Halt) α) := by
  intro s _ _ hr
  cases hr
  exact refl_of R s

theorem stays_bind [IsTrans σ R] {x : StateT σ (Except Halt) α} {f : α → StateT σ (Except Halt) β}
    (hx : Stays R x) (hf : ∀ a, Stays R (f a)) : Stays R (x >>= f) := by
  intro s b s' hr
  obtain ⟨⟨a, s₁⟩, hxs, hfs⟩ := exists_of_bind_ok hr
  exact trans_of R (hx s a s₁ hxs) (hf a s₁ b s' hfs)

theorem stays_map {x : StateT σ (Except Halt) α} {f : α → β} (hx : Stays R x) : Stays R (f <$> x) := by
  intro s b s' hr
  obtain ⟨⟨a, s₁⟩, hxs, hfs⟩ := exists_of_bind_ok hr
  cases hfs
  exact hx s a s' hxs

end Stays

/-! ## Heaps and runs -/

/-- The heap has grown, and what was there holds what it held. -/
structure Heap.Extends (h h' : Heap) : Prop where
  grown : h.size ≤ h'.size
  payload : ∀ slot < h.size, h'.payload slot = h.payload slot

namespace Heap.Extends

variable {h h' h'' : Heap}

theorem refl (h : Heap) : h.Extends h := ⟨le_refl _, fun _ _ => rfl⟩

theorem trans (h₁ : h.Extends h') (h₂ : h'.Extends h'') : h.Extends h'' :=
  ⟨le_trans h₁.grown h₂.grown, fun slot hs =>
    (h₂.payload slot (lt_of_lt_of_le hs h₁.grown)).trans (h₁.payload slot hs)⟩

theorem push (h : Heap) (p : Payload) : h.Extends (h.push p) :=
  ⟨by rw [size_push]; exact Nat.le_succ _, fun _ hs => payload_push_of_lt hs p⟩

theorem setRefs (h : Heap) (slot : Slot) (n : Nat) : h.Extends (h.setRefs slot n) :=
  ⟨by rw [size_setRefs], fun _ _ => payload_setRefs ..⟩

end Heap.Extends

namespace Run

/-- Whatever the heap, the run only adds to it. -/
def Appends {α : Type} (r : Run α) : Prop := ∀ h out h', r.run h = (out, h') → h.Extends h'

variable {α β : Type}

theorem appends_pure {a : α} : Appends (pure a : Run α) := by
  intro h out h' hr
  cases hr
  exact .refl h

theorem appends_bind {x : Run α} {f : α → Run β} (hx : Appends x) (hf : ∀ a, Appends (f a)) :
    Appends (x >>= f) := by
  intro h out h' hr
  rw [Region.run_bind] at hr
  rcases hxr : x.run h with ⟨stop | a, h₁⟩
  · rw [hxr] at hr
    cases hr
    exact hx _ _ _ hxr
  · rw [hxr] at hr
    exact (hx _ _ _ hxr).trans (hf a _ _ _ hr)

theorem appends_alloc (p : Payload) : Appends (alloc p) := by
  intro h out h' hr
  cases hr
  exact .push h p

theorem appends_throw {slot : Slot} : Appends (throw (.thrown slot) : Run α) := by
  intro h out h' hr
  cases hr
  exact .refl h

theorem appends_fail (error : RuntimeError) : Appends (fail error : Run α) :=
  appends_bind (appends_alloc _) fun _ => appends_throw

theorem appends_readProperty (object : Slot) (name : String) : Appends (readProperty object name) := by
  intro h out h' hr
  rw [readProperty, Region.run_get] at hr
  split at hr
  · split at hr
    · exact appends_pure _ _ _ hr
    · exact appends_alloc _ _ _ _ hr
  · exact appends_fail _ _ _ _ hr
  · exact appends_alloc _ _ _ _ hr

/-- A property that is read was there, and nothing is changed then, or it is `undefined`. -/
theorem readProperty_ok {object slot : Slot} {name : String} {h h' : Heap}
    (hr : (readProperty object name).run h = (.ok slot, h')) :
    ((h.properties object).get? name = some slot ∧ h' = h) ∨ h'.payload slot = .undefined := by
  -- a property that is missing is a fresh `undefined`
  have hfresh : (alloc .undefined).run h = (.ok slot, h') → h'.payload slot = .undefined := by
    intro ha
    cases ha
    rw [Heap.payload_push, if_pos rfl]
  rw [readProperty, Region.run_get] at hr
  split at hr
  · rename_i properties ho
    rw [Heap.properties_of_object ho]
    split at hr
    · rename_i next hnext
      cases hr
      exact .inl ⟨hnext, rfl⟩
    · exact .inr (hfresh hr)
  · cases hr
  · exact .inr (hfresh hr)

/-- A write that throws has not written. -/
theorem writeProperty_cases {object value : Slot} {name : String} {h h' : Heap} {out : Except Stop Unit}
    (hr : (writeProperty object name value).run h = (out, h')) :
    (∃ properties, h.payload object = .object properties ∧ out = .ok () ∧
      h' = h.setPayload object (.object (properties.insert name value))) ∨
    ∃ slot, out = .error (.thrown slot) ∧ h.Extends h' := by
  rw [writeProperty, Region.run_get] at hr
  split at hr
  · rename_i properties ho
    cases hr
    exact .inl ⟨properties, ho, rfl, rfl⟩
  · refine .inr ?_
    cases hr
    exact ⟨_, rfl, .push h _⟩

end Run

/-! ## Operations of the engine -/

namespace Engine

/-- The heap has only grown and nothing was called. -/
structure Extends (e e' : Engine) : Prop where
  heap : e.heap.Extends e'.heap
  calls : e'.calls = e.calls

/-- Nor was anything compiled. -/
structure Quiet (e e' : Engine) : Prop extends Extends e e' where
  parses : e'.parses = e.parses

instance : Std.Refl Extends := ⟨fun e => ⟨.refl e.heap, rfl⟩⟩

instance : IsTrans Engine Extends :=
  ⟨fun _ _ _ h h' => ⟨h.heap.trans h'.heap, h'.calls.trans h.calls⟩⟩

instance : Std.Refl Quiet := ⟨fun e => ⟨refl_of Extends e, rfl⟩⟩

instance : IsTrans Engine Quiet :=
  ⟨fun _ _ _ h h' => ⟨trans_of Extends h.toExtends h'.toExtends, h'.parses.trans h.parses⟩⟩

theorem quiet_handOut {e : Engine} {h : Heap} (hh : e.heap.Extends h) (slot : Slot) : e.Quiet (e.handOut h slot) :=
  ⟨⟨hh.trans (.setRefs h slot _), rfl⟩, rfl⟩

theorem quiet_runOut {r : Run Slot} (h : r.Appends) : Stays Quiet (runOut r) := by
  intro e result e' hr
  obtain ⟨out, heap, hrun, -, rfl⟩ := runOut_ok hr
  exact quiet_handOut (h _ _ _ hrun) _

theorem quiet_create (p : Payload) : Stays Quiet (create p) := by
  intro e ref e' hr
  cases hr
  exact quiet_handOut (h := e.heap.push p) (.push e.heap p) e.heap.size

theorem quiet_acquire (ref : Ref) : Stays Quiet (acquire ref) := by
  intro e copy e' hr
  cases hr
  exact quiet_handOut (.refl e.heap) ref.slot

theorem quiet_release (ref : Ref) : Stays Quiet (release ref) := by
  intro e _ e' hr
  rcases hn : e.heap.refs ref.slot with _ | n
  · rw [release_of_zero hn] at hr; cases hr
  · rw [release_of_succ hn] at hr
    cases hr
    exact ⟨⟨.setRefs .., rfl⟩, rfl⟩

theorem quiet_readProperty (object : Ref) (name : String) : Stays Quiet (readProperty object name) :=
  quiet_runOut (Run.appends_readProperty object.slot name)

theorem readProperty_ok {object value : Ref} {name : String} {e e' : Engine}
    (hr : readProperty object name e = .ok (.ok value, e')) :
    ((e.heap.properties object.slot).get? name = some value.slot ∧
      e'.heap.payload value.slot = e.heap.payload value.slot) ∨ e'.heap.payload value.slot = .undefined := by
  change runOut (Run.readProperty object.slot name) e = _ at hr
  rw [runOut_eq] at hr
  rcases hrun : (Run.readProperty object.slot name).run e.heap with ⟨(slot | _) | slot, heap⟩
  · rw [hrun] at hr; cases hr
  · rw [hrun] at hr; cases hr
  · rw [hrun] at hr
    cases hr
    rw [payload_handOut]
    exact (Run.readProperty_ok hrun).imp (fun h => ⟨h.1, by rw [h.2]⟩) id

/-- A program is given no values, so it reaches nothing that was there before. -/
theorem quiet_runBlob (blob : Bytes) : Stays Quiet (runBlob blob) := by
  intro e result e' hr
  have hc := runBlob_confined hr
  rw [runBlob_eq] at hr
  obtain ⟨out, heap, hrun, -, rfl⟩ := runOut_ok hr
  exact ⟨⟨⟨hc.grown, fun slot hs => hc.payload slot hs (e.heap.not_reaches_nil slot)⟩, rfl⟩, rfl⟩

theorem writeProperty_of_object {object : Ref} (value : Ref) {name : String} {e : Engine} {properties : Table Slot}
    (ho : e.heap.payload object.slot = .object properties) : writeProperty object name value e =
      .ok (.ok (), { e with heap := e.heap.setPayload object.slot (.object (properties.insert name value.slot)) }) := by
  rw [writeProperty_eq, Run.writeProperty, Region.run_get]
  simp only [ho]
  rfl

/-- A property that cannot be written is not. -/
theorem writeProperty_ok {object value : Ref} {name : String} {e e' : Engine} {result : Except Ref Unit}
    (hr : writeProperty object name value e = .ok (result, e')) :
    (∃ properties, e.heap.payload object.slot = .object properties ∧ result = .ok () ∧
      e' = { e with heap := e.heap.setPayload object.slot (.object (properties.insert name value.slot)) }) ∨
    ∃ error, result = .error error ∧ e.Quiet e' := by
  rw [writeProperty_eq] at hr
  rcases hrun : (Run.writeProperty object.slot name value.slot).run e.heap with ⟨out, heap⟩
  rw [hrun] at hr
  rcases Run.writeProperty_cases hrun with ⟨properties, ho, rfl, rfl⟩ | ⟨slot, rfl, hext⟩
  · cases hr
    exact .inl ⟨properties, ho, rfl, rfl⟩
  · cases hr
    exact .inr ⟨_, rfl, quiet_handOut hext slot⟩

theorem appends_compileBody (params : String) (source : Bytes) : (compileBody params source).Appends := by
  unfold compileBody
  split
  · exact Run.appends_pure
  · exact Run.appends_bind (Run.appends_alloc _) fun _ => Run.appends_throw

theorem appends_allocFunction (params : String) (source : Bytes) : (allocFunction params source).Appends :=
  Run.appends_bind (appends_compileBody params source) fun _ => Run.appends_alloc _

theorem quiet_loadRecord (blob : Bytes) (index : UInt32) : Stays Quiet (loadRecord blob index) := by
  refine quiet_runOut ?_
  split
  · exact Run.appends_fail _
  · split
    · exact Run.appends_fail _
    · exact appends_allocFunction _ _

/-- Compiling is remembered, and adds to the heap alone. -/
theorem extends_compileFunction (name params : String) (source : Bytes) :
    Stays Extends (compileFunction name params source) := by
  intro e result e' hr
  have := quiet_runOut (appends_allocFunction params source) { e with parses := e.parses.push ⟨name, params⟩ } _ _ hr
  exact ⟨this.heap, this.calls⟩

end Engine

end ScriptHost
