/-
The balance of the host: each call of the engine moves the references that the host holds by the ones
it gets or gives back, and the transcript and the log change nothing about them. An attempt settles
when the references are known that are held after it, be it that it came to something or that it
failed; the factories of modules leave no reference behind on either way.
-/
import ScriptHost.Host.Factory
import ScriptHost.Proofs.Engine.Balance

namespace ScriptHost

open Engine (refOf errorOf)

variable {α β : Type} {lo : Nat} {counts : Counts}

namespace Host

/-- The host holds just these references. -/
abbrev Balanced (lo : Nat) (counts : Counts) (h : Host) : Prop := h.engine.Balanced lo counts

/-! ## Calls of the engine -/

theorem triple_onEngine {op : EngineM α} {P : Engine → Prop} {Q : α → Engine → Prop} (h : Triple P op Q) :
    Triple (fun host => P host.engine) (onEngine op) fun a host => Q a host.engine := by
  intro host hp
  have hop := h host.engine hp
  unfold onEngine
  rcases hend : op host.engine with (_ | _) | ⟨a, engine⟩ <;> rw [hend] at hop
  · trivial
  · exact hop
  · exact hop

theorem triple_call {op : EngineM α} {entry : α → EngineCall} {P : Engine → Prop} {Q : α → Engine → Prop}
    (h : Triple P op Q) : Triple (fun host => P host.engine) (call op entry) fun a host => Q a host.engine := by
  refine triple_bind (triple_onEngine h) fun a => ?_
  refine triple_bind (triple_modify (Q := fun _ host => Q a host.engine) fun _ hq => hq) fun _ => ?_
  exact triple_pure fun _ hq => hq

theorem triple_emit (event : Event) : Triple (Balanced lo counts) (emit event) fun _ => Balanced lo counts :=
  triple_modify fun _ hb => hb

theorem triple_compileFunction (name params : String) (source : Bytes) :
    Triple (Balanced lo counts) (compileFunction name params source) fun result =>
      Balanced lo (counts + one (refOf result).slot) :=
  triple_call (Engine.triple_compileFunction name params source)

theorem triple_loadRecord (blob : Bytes) (index : UInt32) :
    Triple (Balanced lo counts) (loadRecord blob index) fun result =>
      Balanced lo (counts + one (refOf result).slot) :=
  triple_call (Engine.triple_loadRecord blob index)

theorem triple_runBlob (blob : Bytes) : Triple (Balanced lo counts) (runBlob blob) fun result =>
    Balanced lo (counts + one (refOf result).slot) :=
  triple_call (Engine.triple_runBlob blob)

theorem triple_applyFunction {function this : Ref} {args : List Ref}
    (ha : ∀ ref ∈ args, Known lo counts ref.slot) :
    Triple (Balanced lo counts) (applyFunction function this args) fun result =>
      Balanced lo (counts + one (refOf result).slot) :=
  triple_call (Engine.triple_applyFunction ha)

theorem triple_newUndefined : Triple (Balanced lo counts) newUndefined fun ref =>
    Balanced lo (counts + one ref.slot) :=
  triple_call (Engine.triple_create rfl)

theorem triple_newObject : Triple (Balanced lo counts) newObject fun ref =>
    Balanced lo (counts + one ref.slot) :=
  triple_call (Engine.triple_create rfl)

theorem triple_newBool (value : Bool) : Triple (Balanced lo counts) (newBool value) fun ref =>
    Balanced lo (counts + one ref.slot) :=
  triple_call (Engine.triple_create rfl)

/-- A guarded name changes what is answered, and not what is held. -/
theorem triple_readProperty {object : Ref} (ho : Known lo counts object.slot) (name : String) :
    Triple (Balanced lo counts) (readProperty object name) fun result =>
      Balanced lo (counts + one (refOf result).slot) := by
  refine triple_get fun host hb => ?_
  refine triple_call (P := Engine.Balanced lo counts)
    (Q := fun result => Engine.Balanced lo (counts + one (refOf result).slot)) ?_ host hb
  split
  · exact triple_map (Engine.triple_create rfl)
  · exact Engine.triple_readProperty ho name

theorem triple_writeProperty {object value : Ref} (ho : Known lo counts object.slot)
    (hv : Known lo counts value.slot) (name : String) :
    Triple (Balanced lo counts) (writeProperty object name value) fun result =>
      Balanced lo (counts + errorOf result) := by
  refine triple_get fun host hb => ?_
  refine triple_call (P := Engine.Balanced lo counts)
    (Q := fun result => Engine.Balanced lo (counts + errorOf result)) ?_ host hb
  split
  · exact triple_map (Engine.triple_create rfl)
  · exact Engine.triple_writeProperty ho hv name

theorem triple_textOf (value : Ref) : Triple (Balanced lo counts) (textOf value) fun _ => Balanced lo counts :=
  triple_call (Q := fun _ => Engine.Balanced lo counts) fun _ hb => hb

theorem triple_messageOf (error : Ref) :
    Triple (Balanced lo counts) (messageOf error) fun _ => Balanced lo counts :=
  triple_call (Q := fun _ => Engine.Balanced lo counts) fun _ hb => hb

theorem triple_acquire {value : Ref} (hv : Known lo counts value.slot) :
    Triple (Balanced lo counts) (acquire value) fun ref => Balanced lo (counts + one ref.slot) :=
  triple_call (Engine.triple_acquire hv)

theorem release_ok {ref : Ref} {h : Host} (hb : h.Balanced lo (counts + one ref.slot)) :
    ∃ h', release ref h = .ok ((), h') ∧ h'.Balanced lo counts := by
  obtain ⟨engine, he, hb'⟩ := Engine.release_ok hb
  refine ⟨{ h with engine := engine, transcript := h.transcript.push (.release ref) }, ?_, hb'⟩
  show (onEngine (Engine.release ref) h >>= fun r => _) = _
  unfold onEngine
  rw [he]
  rfl

theorem triple_release {ref : Ref} :
    Triple (Balanced lo (counts + one ref.slot)) (release ref) fun _ => Balanced lo counts :=
  triple_of_ok fun _ hb => ⟨(), release_ok hb⟩

/-- References that are held can be given back in order. -/
theorem releaseAll_ok : ∀ {refs : List Ref} {h : Host}, h.Balanced lo (counts + tally refs) →
    ∃ h', releaseAll refs h = .ok ((), h') ∧ h'.Balanced lo counts
  | [], h, hb => ⟨h, rfl, hb⟩
  | ref :: refs, h, hb => by
    rw [tally_cons, ← add_assoc] at hb
    obtain ⟨h₁, he₁, hb₁⟩ := release_ok hb
    obtain ⟨h', he, hb'⟩ := releaseAll_ok hb₁
    refine ⟨h', ?_, hb'⟩
    show (release ref h >>= fun r => releaseAll refs r.2) = _
    rw [he₁]
    exact he

end Host

/-! ## Attempts -/

/-- The counts after an attempt that may fail. -/
def settled (done : α → Counts) (failed : Counts) : Except HostError α → Counts
  | .ok a => done a
  | .error _ => failed

/-- From the counts `before` the attempt comes to the counts `done`, or fails with the counts `failed`. -/
def Attempt.Settles (lo : Nat) (before : Counts) (op : Attempt α) (done : α → Counts) (failed : Counts) : Prop :=
  Triple (Host.Balanced lo before) op.run fun r => Host.Balanced lo (settled done failed r)

namespace Attempt

variable {before failed : Counts} {done : α → Counts} {done' : β → Counts}

theorem settles_pure {a : α} (h : before = done a) : Settles lo before (pure a) done failed := by
  subst h
  exact triple_pure (Q := fun r => Host.Balanced lo (settled done failed r)) fun _ hb => hb

theorem settles_throw {e : HostError} : Settles lo failed (throw e : Attempt α) done failed :=
  triple_pure (Q := fun r => Host.Balanced lo (settled done failed r)) fun _ hb => hb

theorem settles_outcome {outcome : Except HostError α} :
    Settles lo (settled done failed outcome) (ExceptT.mk (pure outcome)) done failed :=
  triple_pure (Q := fun r => Host.Balanced lo (settled done failed r)) fun _ hb => hb

theorem settles_lift {op : HostM α} (h : Triple (Host.Balanced lo before) op fun a => Host.Balanced lo (done a)) :
    Settles lo before (liftM op) done failed :=
  triple_map h

theorem settles_bind {op : Attempt α} {next : α → Attempt β} (h : Settles lo before op done failed)
    (hn : ∀ a, Settles lo (done a) (next a) done' failed) : Settles lo before (op >>= next) done' failed := by
  refine triple_bind h fun r => ?_
  cases r with
  | ok a => exact hn a
  | error e => exact triple_pure fun _ hb => hb

/-- What is held during some work is held until it ends, and given back then. -/
theorem settles_holding {ref : Ref} {work : Attempt α}
    (h : Settles lo before work (fun a => done a + one ref.slot) (failed + one ref.slot)) :
    Settles lo before (holding ref work) done failed := by
  refine triple_bind h fun r => ?_
  refine triple_bind (R := fun _ => Host.Balanced lo (settled done failed r)) ?_ fun _ =>
    triple_pure fun _ hb => hb
  cases r with
  | ok a => exact Host.triple_release
  | error e => exact Host.triple_release

end Attempt

/-! ## Factories -/

namespace Factory

open Attempt

/-- A compiled factory is one reference; an error is given back. -/
theorem settles_compile (name : String) (source : Bytes) :
    Settles lo counts (compile name source) (fun f => counts + one f.function.slot) counts := by
  refine settles_bind (settles_lift (Host.triple_emit _)) fun _ => ?_
  refine settles_bind (settles_lift (Host.triple_compileFunction name signature source)) fun result => ?_
  cases result with
  | ok function => exact settles_pure rfl
  | error error =>
    refine settles_holding ?_
    refine settles_bind (settles_lift (Host.triple_messageOf error)) fun message => ?_
    exact settles_bind (settles_lift (Host.triple_emit _)) fun _ => settles_throw

theorem settles_orCorrupt (result : Except Ref Ref) :
    Settles lo (counts + one (refOf result).slot) (orCorrupt result) (fun ref => counts + one ref.slot) counts := by
  cases result with
  | ok value => exact settles_pure rfl
  | error error =>
    refine settles_holding ?_
    exact settles_bind (settles_lift (Host.triple_messageOf error)) fun message => settles_throw

theorem settles_ofRecord (name : String) (blob : Bytes) (index : UInt32) :
    Settles lo counts (ofRecord name blob index) (fun f => counts + one f.function.slot) counts := by
  unfold ofRecord
  split
  · exact settles_throw
  · refine settles_bind (settles_lift (Host.triple_emit _)) fun _ => ?_
    refine settles_bind (settles_lift (Host.triple_loadRecord blob index)) fun result => ?_
    exact settles_bind (settles_orCorrupt result) fun _ => settles_pure rfl

/-- Whether there is a factory or not, and whether it returns or throws: what comes back is held, and the
factory is not. -/
theorem settles_call (compiled : Except HostError Factory) {args : Args}
    (ha : ∀ ref ∈ args.toList, Known lo counts ref.slot) :
    Settles lo (settled (fun f => counts + one f.function.slot) counts compiled) (call compiled args)
      (fun ref => counts + one ref.slot) counts := by
  refine settles_bind settles_outcome fun factory => ?_
  refine settles_bind (settles_lift Host.triple_newUndefined) fun this => settles_holding ?_
  refine settles_bind (settles_lift (Host.triple_emit _)) fun _ => ?_
  refine settles_bind (settles_lift (Host.triple_applyFunction fun ref href => ((ha ref href).add _).add _))
    fun completion => ?_
  -- the factory is given back while what it came to is held
  have hswap : counts + one factory.function.slot + one this.slot + one (refOf completion).slot =
      counts + one (refOf completion).slot + one this.slot + one factory.function.slot := by
    ac_rfl
  rw [hswap]
  refine settles_bind (settles_lift Host.triple_release) fun _ => ?_
  cases completion with
  | ok value => exact settles_pure rfl
  | error error =>
    refine settles_holding ?_
    rw [add_right_comm]
    refine settles_bind (settles_lift (Host.triple_messageOf error)) fun message => ?_
    exact settles_bind (settles_lift (Host.triple_emit _)) fun _ => settles_throw

end Factory

end ScriptHost
