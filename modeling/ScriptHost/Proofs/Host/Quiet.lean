/-
Calls of the host that only add to the heap, and attempts that do so wherever they fail. The one call that
may change what was there and come to an error all the same is the call of a factory, whose error says so.
-/
import ScriptHost.Host.Factory
import ScriptHost.Proofs.Engine.Quiet
import ScriptHost.Proofs.Host.Basic
import ScriptHost.Proofs.Host.Outcome

namespace ScriptHost

open Engine (Extends Quiet)

variable {α β : Type} {R : Engine → Engine → Prop}

namespace Host

/-- The engines of two hosts are related. -/
def Via (R : Engine → Engine → Prop) (h h' : Host) : Prop := R h.engine h'.engine

instance [Std.Refl R] : Std.Refl (Via R) := ⟨fun h => refl_of R h.engine⟩

instance [IsTrans Engine R] : IsTrans Host (Via R) := ⟨fun _ _ _ => trans_of R⟩

theorem stays_call {op : EngineM α} {entry : α → EngineCall} (h : Stays R op) : Stays (Via R) (call op entry) :=
  fun host a host' hr => h host.engine a host'.engine (engine_of_call hr)

theorem stays_emit [Std.Refl R] (event : Event) : Stays (Via R) (emit event) := by
  intro h _ h' hr
  show R h.engine h'.engine
  rw [engine_of_emit hr]
  exact refl_of R _

theorem quiet_newUndefined : Stays (Via Quiet) newUndefined := stays_call (Engine.quiet_create _)

theorem quiet_newObject : Stays (Via Quiet) newObject := stays_call (Engine.quiet_create _)

theorem quiet_runBlob (blob : Bytes) : Stays (Via Quiet) (runBlob blob) := stays_call (Engine.quiet_runBlob blob)

theorem quiet_loadRecord (blob : Bytes) (index : UInt32) : Stays (Via Quiet) (loadRecord blob index) :=
  stays_call (Engine.quiet_loadRecord blob index)

theorem quiet_acquire (value : Ref) : Stays (Via Quiet) (acquire value) := stays_call (Engine.quiet_acquire value)

theorem quiet_release (value : Ref) : Stays (Via Quiet) (release value) := stays_call (Engine.quiet_release value)

theorem quiet_textOf (value : Ref) : Stays (Via Quiet) (textOf value) := by
  refine stays_call fun e _ e' hr => ?_
  cases hr
  exact refl_of Quiet e

theorem quiet_messageOf (error : Ref) : Stays (Via Quiet) (messageOf error) := by
  refine stays_call fun e _ e' hr => ?_
  cases hr
  exact refl_of Quiet e

theorem quiet_readProperty (object : Ref) (name : String) : Stays (Via Quiet) (readProperty object name) := by
  intro h result h' hr
  change call (if name ∈ h.guards.reads then _ else _) _ h = _ at hr
  refine stays_call (R := Quiet) ?_ h result h' hr
  split
  · exact stays_map (Engine.quiet_create _)
  · exact Engine.quiet_readProperty object name

theorem readProperty_ok {object value : Ref} {name : String} {h h' : Host}
    (hr : readProperty object name h = .ok (.ok value, h')) :
    ((h.engine.heap.properties object.slot).get? name = some value.slot ∧
      h'.engine.heap.payload value.slot = h.engine.heap.payload value.slot) ∨
    h'.engine.heap.payload value.slot = .undefined := by
  change call (if name ∈ h.guards.reads then _ else _) _ h = _ at hr
  have hop := engine_of_call hr
  split at hop
  · obtain ⟨error, -, he⟩ := exists_of_run_map hop
    cases he
  · exact Engine.readProperty_ok hop

theorem extends_compileFunction (name params : String) (source : Bytes) :
    Stays (Via Extends) (compileFunction name params source) :=
  stays_call (Engine.extends_compileFunction name params source)

/-- What is written, where writing does not fail. -/
theorem writeProperty_ok {object value : Ref} {name : String} {h h' : Host} {result : Except Ref Unit}
    (hr : writeProperty object name value h = .ok (result, h')) :
    (∃ properties, h.engine.heap.payload object.slot = .object properties ∧ result = .ok () ∧
      h'.engine = { h.engine with
        heap := h.engine.heap.setPayload object.slot (.object (properties.insert name value.slot)) }) ∨
    ∃ error, result = .error error ∧ h.engine.Quiet h'.engine := by
  change call (if name ∈ h.guards.writes then _ else _) _ h = _ at hr
  have hop := engine_of_call hr
  split at hop
  · -- a guarded property is refused before anything is written
    obtain ⟨error, hnew, rfl⟩ := exists_of_run_map hop
    exact .inr ⟨error, rfl, Engine.quiet_create _ _ _ _ hnew⟩
  · exact Engine.writeProperty_ok hop

end Host

/-! ## Attempts -/

/-- No factory was called when this went wrong, or it was not the factory that did. -/
def HostError.BeforeCall (e : HostError) : Prop := ∀ id message, e ≠ .execution id message

namespace Attempt

/-- The attempt only adds to the heap, whatever it comes to. -/
def Stays (R : Engine → Engine → Prop) (op : Attempt α) : Prop := ScriptHost.Stays (Host.Via R) op.run

/-- Where the attempt fails before a factory is called, it has only added to the heap. -/
def Whole (op : Attempt α) : Prop :=
  ∀ h e h', op.run h = .ok (.error e, h') → e.BeforeCall → h.engine.Extends h'.engine

theorem stays_pure [Std.Refl R] {a : α} : Stays R (pure a : Attempt α) :=
  ScriptHost.stays_pure (R := Host.Via R)

theorem stays_throw [Std.Refl R] {e : HostError} : Stays R (throw e : Attempt α) :=
  ScriptHost.stays_pure (R := Host.Via R)

theorem stays_lift {op : HostM α} (h : ScriptHost.Stays (Host.Via R) op) : Stays R (liftM op : Attempt α) :=
  stays_map h

theorem stays_bind [Std.Refl R] [IsTrans Engine R] {op : Attempt α} {next : α → Attempt β} (h : Stays R op)
    (hn : ∀ a, Stays R (next a)) : Stays R (op >>= next) := by
  refine ScriptHost.stays_bind h fun r => ?_
  cases r with
  | ok a => exact hn a
  | error e => exact ScriptHost.stays_pure

theorem stays_call [Std.Refl R] [IsTrans Engine R] {op : HostM α} {next : α → Attempt β}
    (h : ScriptHost.Stays (Host.Via R) op) (hn : ∀ a, Stays R (next a)) : Stays R (liftM op >>= next) :=
  stays_bind (stays_lift h) hn

/-- An attempt that can only fail in a factory. -/
theorem whole_of_gives {op : Attempt α} (h : Gives (fun _ => True) (fun e => ¬ e.BeforeCall) op) : Whole op :=
  fun host _ host' hr he => absurd he (h host _ host' hr)

/-- What comes first may only add to the heap. -/
theorem whole_call {op : HostM α} {next : α → Attempt β} (h : ScriptHost.Stays (Host.Via Extends) op)
    (hn : ∀ a, Whole (next a)) : Whole (liftM op >>= next) := by
  intro host e host' hr he
  obtain ⟨a, host₁, hop, hr⟩ := exists_of_lift_bind hr
  exact trans_of Extends (h host a host₁ hop) (hn a host₁ e host' hr he)

end Attempt

/-- A quiet computation only adds to the heap. -/
theorem Host.extends_of_quiet {op : HostM α} (h : Stays (Host.Via Quiet) op) : Stays (Host.Via Extends) op :=
  stays_mono h fun _ _ => Engine.Quiet.toExtends

theorem Attempt.extends_of_quiet {op : Attempt α} (h : Attempt.Stays Quiet op) : Attempt.Stays Extends op :=
  stays_mono h fun _ _ => Engine.Quiet.toExtends

theorem Attempt.quiet_holding [Std.Refl R] [IsTrans Engine R] (hq : ∀ e e', Quiet e e' → R e e') {ref : Ref}
    {work : Attempt α} (h : Attempt.Stays R work) : Attempt.Stays R (holding ref work) :=
  ScriptHost.stays_bind h fun _ =>
    ScriptHost.stays_bind (stays_mono (Host.quiet_release ref) fun _ _ => hq _ _) fun _ => ScriptHost.stays_pure

/-! ## Factories -/

namespace Factory

open Attempt

theorem extends_compile (name : String) (source : Bytes) : Attempt.Stays Extends (compile name source) := by
  refine stays_call (Host.stays_emit _) fun _ => ?_
  refine stays_call (Host.extends_compileFunction _ _ _) fun result => ?_
  cases result with
  | ok function => exact Attempt.stays_pure
  | error error =>
    refine quiet_holding (fun _ _ => Engine.Quiet.toExtends) ?_
    refine stays_call (Host.extends_of_quiet (Host.quiet_messageOf error)) fun message => ?_
    exact stays_call (Host.stays_emit _) fun _ => stays_throw

theorem quiet_orCorrupt (result : Except Ref Ref) : Attempt.Stays Quiet (orCorrupt result) := by
  cases result with
  | ok value => exact Attempt.stays_pure
  | error error => exact quiet_holding (fun _ _ h => h) (stays_call (Host.quiet_messageOf error) fun _ => stays_throw)

theorem quiet_ofRecord (name : String) (blob : Bytes) (index : UInt32) :
    Attempt.Stays Quiet (ofRecord name blob index) := by
  unfold ofRecord
  split
  · exact stays_throw
  · refine stays_call (Host.stays_emit _) fun _ => stays_call (Host.quiet_loadRecord blob index) fun result => ?_
    exact Attempt.stays_bind (quiet_orCorrupt result) fun _ => Attempt.stays_pure

/-- Only a factory that is called can change what was there, and its error is told from all others. -/
theorem whole_call (compiled : Except HostError Factory) (args : Args) : Whole (call compiled args) := by
  cases compiled with
  | error _ =>
    intro h e h' hr _
    cases hr
    exact refl_of Extends _
  | ok factory =>
    refine whole_of_gives (gives_bind (V := fun _ => True) (gives_outcome trivial) fun factory _ => ?_)
    refine gives_call fun this => gives_holding ?_
    refine gives_call fun _ => gives_call fun completion => gives_call fun _ => ?_
    cases completion with
    | ok value => exact gives_pure trivial
    | error error =>
      refine gives_holding (gives_call fun message => gives_call fun _ => gives_throw fun he => ?_)
      exact he _ _ rfl

end Factory

end ScriptHost
