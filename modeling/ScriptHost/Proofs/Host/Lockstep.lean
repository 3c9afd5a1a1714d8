/-
Two hosts in lockstep. Their engines differ only in the factories that one of them has compiled, and
what they report may differ. A factory that is compiled on one host is loaded on the other; where its
source is no body, the one blames the module and the other refuses the blob, with the same message.
All else comes to the same on both.
-/
import ScriptHost.Host.Factory
import ScriptHost.Proofs.Engine.Lockstep

namespace ScriptHost

variable {α β γ δ : Type} {compiles : ParseRequest → Prop} {a b : Array ParseRequest}

namespace Host

/-- Two hosts whose engines differ in what they remember, and in this only so. -/
def Alike (compiles : ParseRequest → Prop) (a b : Array ParseRequest) (h k : Host) : Prop :=
  Engine.Alike compiles a b h.engine k.engine ∧ k.guards = h.guards

/-! ## Calls of the engine -/

theorem lockstep_onEngine {x y : EngineM α} (h : Lockstep (Engine.Alike compiles a b) Eq x y) :
    Lockstep (Alike compiles a b) Eq (onEngine x) (onEngine y) := by
  intro s t hs
  have hb := h s.engine t.engine hs.1
  unfold onEngine
  rcases hx : x s.engine with _ | ⟨v, e⟩ <;> rcases hy : y t.engine with _ | ⟨w, f⟩ <;> rw [hx, hy] at hb
  · exact hb
  · exact False.elim hb
  · exact False.elim hb
  · exact ⟨hb.1, hb.2, hs.2⟩

theorem lockstep_call {x y : EngineM α} {entry entry' : α → EngineCall}
    (h : Lockstep (Engine.Alike compiles a b) Eq x y) :
    Lockstep (Alike compiles a b) Eq (call x entry) (call y entry') :=
  lockstep_bind_same (lockstep_onEngine h) fun _ _ _ hs => ⟨rfl, hs⟩

theorem lockstep_emit (event event' : Event) : Lockstep (Alike compiles a b) Eq (emit event) (emit event') :=
  fun _ _ h => ⟨rfl, h⟩

theorem lockstep_newUndefined : Lockstep (Alike compiles a b) Eq newUndefined newUndefined :=
  lockstep_call (Engine.lockstep_create _)

theorem lockstep_newObject : Lockstep (Alike compiles a b) Eq newObject newObject :=
  lockstep_call (Engine.lockstep_create _)

theorem lockstep_runBlob (blob : Bytes) : Lockstep (Alike compiles a b) Eq (runBlob blob) (runBlob blob) :=
  lockstep_call (Engine.lockstep_runBlob blob)

theorem lockstep_acquire (value : Ref) : Lockstep (Alike compiles a b) Eq (acquire value) (acquire value) :=
  lockstep_call (Engine.lockstep_issue _)

theorem lockstep_release (value : Ref) : Lockstep (Alike compiles a b) Eq (release value) (release value) :=
  lockstep_call (Engine.lockstep_release value)

theorem lockstep_textOf (value : Ref) : Lockstep (Alike compiles a b) Eq (textOf value) (textOf value) :=
  lockstep_call (Engine.lockstep_read fun heap => heap.text? value.slot)

theorem lockstep_messageOf (error : Ref) : Lockstep (Alike compiles a b) Eq (messageOf error) (messageOf error) :=
  lockstep_call (Engine.lockstep_read fun heap => (heap.payload error.slot).message)

theorem lockstep_applyFunction (function this : Ref) (args : List Ref) :
    Lockstep (Alike compiles a b) Eq (applyFunction function this args) (applyFunction function this args) :=
  lockstep_call (Engine.lockstep_applyFunction function args)

/-- The same names are guarded on both hosts. -/
theorem lockstep_readProperty (object : Ref) (name : String) :
    Lockstep (Alike compiles a b) Eq (readProperty object name) (readProperty object name) := by
  intro h k hk
  show Both _ (call (if name ∈ h.guards.reads then _ else _) _ h) (call (if name ∈ k.guards.reads then _ else _) _ k)
  rw [hk.2]
  refine lockstep_call ?_ h k hk
  split
  · exact lockstep_map fun e f hf => (Engine.lockstep_create _ e f hf).mono fun _ _ hr => ⟨congrArg _ hr.1, hr.2⟩
  · exact Engine.lockstep_readProperty object name

theorem lockstep_writeProperty (object : Ref) (name : String) (value : Ref) :
    Lockstep (Alike compiles a b) Eq (writeProperty object name value) (writeProperty object name value) := by
  intro h k hk
  show Both _ (call (if name ∈ h.guards.writes then _ else _) _ h) (call (if name ∈ k.guards.writes then _ else _) _ k)
  rw [hk.2]
  refine lockstep_call ?_ h k hk
  split
  · exact lockstep_map fun e f hf => (Engine.lockstep_create _ e f hf).mono fun _ _ hr => ⟨congrArg _ hr.1, hr.2⟩
  · exact Engine.lockstep_writeProperty object name value

end Host

/-! ## Outcomes -/

/-- An error where factories are loaded from a blob: what the compiler says is held against the blob. -/
def HostError.ofBlob : HostError → HostError
  | .compile _ message => .corruptSnapshot message
  | e => e

/-- Related results, or the error of a host that compiles and that of one that loads. -/
def Outcomes (V : α → β → Prop) : Except HostError α → Except HostError β → Prop
  | .ok v, .ok w => V v w
  | .error e, .error f => f = e.ofBlob
  | _, _ => False

/-- The attempts come to outcomes that belong together. -/
def Attempt.InStep (compiles : ParseRequest → Prop) (a b : Array ParseRequest) (V : α → β → Prop)
    (x : Attempt α) (y : Attempt β) : Prop :=
  Lockstep (Host.Alike compiles a b) (Outcomes V) x.run y.run

namespace Attempt

variable {V : α → β → Prop} {W : γ → δ → Prop}

theorem inStep_pure {v : α} {w : β} (h : V v w) : InStep compiles a b V (pure v) (pure w) :=
  fun _ _ hs => ⟨h, hs⟩

theorem inStep_throw {e f : HostError} (h : f = e.ofBlob) :
    InStep compiles a b V (throw e : Attempt α) (throw f : Attempt β) :=
  fun _ _ hs => ⟨h, hs⟩

theorem inStep_outcome {x : Except HostError α} {y : Except HostError β} (h : Outcomes V x y) :
    InStep compiles a b V (ExceptT.mk (pure x)) (ExceptT.mk (pure y)) :=
  fun _ _ hs => ⟨h, hs⟩

theorem inStep_lift {x : HostM α} {y : HostM β} (h : Lockstep (Host.Alike compiles a b) V x y) :
    InStep compiles a b V (liftM x) (liftM y) :=
  lockstep_map h

theorem inStep_bind {x : Attempt α} {y : Attempt β} {f : α → Attempt γ} {g : β → Attempt δ}
    (h : InStep compiles a b V x y) (hf : ∀ v w, V v w → InStep compiles a b W (f v) (g w)) :
    InStep compiles a b W (x >>= f) (y >>= g) := by
  refine lockstep_bind h fun r u hr => ?_
  cases r <;> cases u
  · exact lockstep_pure hr
  · exact False.elim hr
  · exact False.elim hr
  · exact hf _ _ hr

/-- A call of the host that comes to the same on both sides. -/
theorem inStep_call {x y : HostM α} {f : α → Attempt γ} {g : α → Attempt δ}
    (h : Lockstep (Host.Alike compiles a b) Eq x y) (hf : ∀ v, InStep compiles a b W (f v) (g v)) :
    InStep compiles a b W (liftM x >>= f) (liftM y >>= g) :=
  inStep_bind (inStep_lift h) fun v w hvw => by subst hvw; exact hf v

/-- What only one host reports makes no difference. -/
theorem inStep_emit_left {event : Event} {x : Attempt α} {y : Attempt β} (h : InStep compiles a b V x y) :
    InStep compiles a b V (do Host.emit event; x) y :=
  fun s t hs => h { s with log := s.log.push event } t hs

theorem inStep_holding {ref : Ref} {x : Attempt α} {y : Attempt β} (h : InStep compiles a b V x y) :
    InStep compiles a b V (holding ref x) (holding ref y) :=
  lockstep_bind h fun _ _ hr => lockstep_bind_same (Host.lockstep_release ref) fun _ => lockstep_pure hr

end Attempt

/-! ## Factories -/

namespace Factory

open Attempt

/-- Compiling a source and loading the record that it is. -/
theorem inStep_compile (name : String) {source blob : Bytes} {index : UInt32} {records : List Bytes}
    (hb : Snapshot.records? blob = some records) (hi : records[index.toNat]? = some source) :
    InStep compiles a b Eq (compile name source) (ofRecord name blob index) := by
  have hne : ¬ blob.isEmpty = true := fun h => by rw [List.isEmpty_iff.1 h] at hb; cases hb
  unfold ofRecord
  rw [if_neg hne]
  refine inStep_call (Host.lockstep_emit _ _) fun _ => ?_
  refine inStep_call (Host.lockstep_call (Engine.lockstep_factory name hb hi)) fun result => ?_
  cases result with
  | ok function => exact inStep_pure rfl
  | error error =>
    show InStep compiles a b Eq (holding error _) _
    rw [← bind_pure (holding error _ : Attempt Factory)]
    refine inStep_bind (V := fun _ _ => False) (inStep_holding ?_) fun _ _ h => False.elim h
    refine inStep_call (Host.lockstep_messageOf error) fun message => ?_
    exact inStep_emit_left (inStep_throw rfl)

/-- A call of factories that were both compiled or loaded, or of none. -/
theorem inStep_call_factory {x y : Except HostError Factory} (h : Outcomes Eq x y) (args : Args) :
    InStep compiles a b Eq (call x args) (call y args) := by
  refine inStep_bind (inStep_outcome h) fun factory _ heq => ?_
  subst heq
  refine inStep_call Host.lockstep_newUndefined fun this => inStep_holding ?_
  refine inStep_call (Host.lockstep_emit _ _) fun _ => ?_
  refine inStep_call (Host.lockstep_applyFunction factory.function this args.toList) fun completion => ?_
  refine inStep_call (Host.lockstep_release _) fun _ => ?_
  cases completion with
  | ok value => exact inStep_pure rfl
  | error error =>
    refine inStep_holding ?_
    refine inStep_call (Host.lockstep_messageOf error) fun message => ?_
    exact inStep_call (Host.lockstep_emit _ _) fun _ => inStep_throw rfl

end Factory

end ScriptHost
