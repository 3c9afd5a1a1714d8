/-
What the engine is asked to do while the host works: how often for a factory, how often to call one, and which
requests it remembers. The transcript tells all three, and the engine's own books agree with it. Only three
kinds of calls are work; whatever is composed of the others is idle.

A factory is asked for once, and called once where there is one.
-/
import ScriptHost.Proofs.Host.Basic
import ScriptHost.Proofs.Host.Outcome
import Mathlib.Algebra.BigOperators.Group.List.Basic

namespace ScriptHost

variable {α β : Type}

/-! ## Work -/

/-- Requests for a factory, calls of functions, and what the engine remembers to have been asked to compile. -/
@[ext]
structure Work where
  requests : Nat
  calls : Nat
  recorded : List ParseRequest

namespace Work

instance : Zero Work := ⟨⟨0, 0, []⟩⟩

instance : Add Work := ⟨fun w v => ⟨w.requests + v.requests, w.calls + v.calls, w.recorded ++ v.recorded⟩⟩

@[simp, grind =] theorem requests_zero : (0 : Work).requests = 0 := rfl

@[simp, grind =] theorem calls_zero : (0 : Work).calls = 0 := rfl

@[simp, grind =] theorem recorded_zero : (0 : Work).recorded = [] := rfl

@[simp, grind =] theorem requests_add (w v : Work) : (w + v).requests = w.requests + v.requests := rfl

@[simp, grind =] theorem calls_add (w v : Work) : (w + v).calls = w.calls + v.calls := rfl

@[simp, grind =] theorem recorded_add (w v : Work) : (w + v).recorded = w.recorded ++ v.recorded := rfl

instance : AddMonoid Work where
  add_assoc w v u := Work.ext (Nat.add_assoc ..) (Nat.add_assoc ..) (List.append_assoc ..)
  zero_add w := Work.ext (Nat.zero_add _) (Nat.zero_add _) (List.nil_append _)
  add_zero w := Work.ext (Nat.add_zero _) (Nat.add_zero _) (List.append_nil _)
  nsmul := nsmulRec

end Work

/-- What a call asks the engine to do. -/
def EngineCall.work : EngineCall → Work
  | .compileFunction name params _ _ => ⟨1, 0, [⟨name, params⟩]⟩
  | .loadRecord .. => ⟨1, 0, []⟩
  | .applyFunction .. => ⟨0, 1, []⟩
  | _ => 0

/-- The engine has done such work by its own books; how deeply it nests calls stays as it is. -/
structure Engine.Does (w : Work) (e e' : Engine) : Prop where
  calls : e'.calls = e.calls + w.calls
  parses : e'.parses.toList = e.parses.toList ++ w.recorded
  depth : e'.depth = e.depth

/-- The host has had such work done, by its transcript and by the books of the engine. -/
structure Host.Does (w : Work) (h h' : Host) : Prop where
  transcript : ∃ entries, h'.transcript.toList = h.transcript.toList ++ entries ∧
    (entries.map EngineCall.work).sum = w
  engine : h.engine.Does w h'.engine
  guards : h'.guards = h.guards

namespace Engine.Does

variable {w v : Work} {e e₁ e' : Engine}

theorem idle (calls : e'.calls = e.calls) (parses : e'.parses = e.parses) (depth : e'.depth = e.depth) :
    e.Does 0 e' :=
  ⟨calls, by rw [parses, Work.recorded_zero, List.append_nil], depth⟩

theorem refl (e : Engine) : e.Does 0 e := idle rfl rfl rfl

theorem trans (h : e.Does w e₁) (h' : e₁.Does v e') : e.Does (w + v) e' where
  calls := by rw [h'.calls, h.calls, Work.calls_add, Nat.add_assoc]
  parses := by rw [h'.parses, h.parses, Work.recorded_add, List.append_assoc]
  depth := h'.depth.trans h.depth

end Engine.Does

namespace Host.Does

variable {w v : Work} {h h₁ h' : Host}

theorem refl (h : Host) : h.Does 0 h := ⟨⟨[], (List.append_nil _).symm, rfl⟩, .refl _, rfl⟩

theorem trans (hw : h.Does w h₁) (hv : h₁.Does v h') : h.Does (w + v) h' where
  transcript := by
    obtain ⟨entries, htranscript, rfl⟩ := hw.transcript
    obtain ⟨more, htranscript', rfl⟩ := hv.transcript
    exact ⟨entries ++ more, by rw [htranscript', htranscript, List.append_assoc],
      by rw [List.map_append, List.sum_append]⟩
  engine := hw.engine.trans hv.engine
  guards := hv.guards.trans hw.guards

/-- Idle time before work. -/
theorem before (hw : h.Does 0 h₁) (hv : h₁.Does v h') : h.Does v h' := zero_add v ▸ hw.trans hv

/-- Idle time after work. -/
theorem after (hw : h.Does w h₁) (hv : h₁.Does 0 h') : h.Does w h' := add_zero w ▸ hw.trans hv

end Host.Does

/-! ## Operations of the engine -/

namespace Engine

theorem does_runOut {r : Run Slot} {e e' : Engine} {result : Except Ref Ref} (hr : runOut r e = .ok (result, e')) :
    e.Does 0 e' := by
  obtain ⟨_, heap, -, -, rfl⟩ := runOut_ok hr
  exact .idle rfl rfl rfl

theorem does_compileFunction {name params : String} {source : Bytes} {e e' : Engine} {result : Except Ref Ref}
    (hr : compileFunction name params source e = .ok (result, e')) : e.Does ⟨1, 0, [⟨name, params⟩]⟩ e' := by
  change runOut _ { e with parses := e.parses.push ⟨name, params⟩ } = _ at hr
  obtain ⟨_, heap, -, -, rfl⟩ := runOut_ok hr
  exact ⟨rfl, Array.toList_push .., rfl⟩

theorem does_applyFunction {function : Ref} {args : List Ref} {e e' : Engine} {result : Except Ref Ref}
    (hr : applyFunction function args e = .ok (result, e')) : e.Does ⟨0, 1, []⟩ e' := by
  rw [applyFunction_eq] at hr
  obtain ⟨_, heap, -, -, rfl⟩ := runOut_ok hr
  exact ⟨rfl, (List.append_nil _).symm, rfl⟩

theorem does_create {p : Payload} {e e' : Engine} {ref : Ref} (hr : create p e = .ok (ref, e')) : e.Does 0 e' := by
  cases hr
  exact .idle rfl rfl rfl

theorem does_release {ref : Ref} {e e' : Engine} {u : Unit} (hr : release ref e = .ok (u, e')) : e.Does 0 e' := by
  rcases hn : e.heap.refs ref.slot with _ | n
  · rw [release_of_zero hn] at hr; cases hr
  · rw [release_of_succ hn] at hr
    cases hr
    exact .idle rfl rfl rfl

theorem does_writeProperty {object value : Ref} {name : String} {e e' : Engine} {result : Except Ref Unit}
    (hr : writeProperty object name value e = .ok (result, e')) : e.Does 0 e' := by
  rw [writeProperty_eq] at hr
  split at hr
  · cases hr; exact .idle rfl rfl rfl
  · cases hr; exact .idle rfl rfl rfl
  · cases hr

end Engine

/-! ## Computations -/

/-- Whenever the computation ends, its value and the work it took belong together. -/
def Takes (P : α → Work → Prop) (x : HostM α) : Prop :=
  ∀ h a h', x h = .ok (a, h') → ∃ w, h.Does w h' ∧ P a w

/-- The computation has no work done. -/
abbrev Idle (x : HostM α) : Prop := Takes (fun _ w => w = 0) x

section Takes

variable {P Q : α → Work → Prop} {Q' : β → Work → Prop}

theorem Idle.does {x : HostM α} (hx : Idle x) {h h' : Host} {a : α} (hr : x h = .ok (a, h')) : h.Does 0 h' := by
  obtain ⟨w, hw, rfl⟩ := hx h a h' hr
  exact hw

theorem takes_mono {x : HostM α} (hx : Takes P x) (hle : ∀ a w, P a w → Q a w) : Takes Q x := by
  intro h a h' hr
  obtain ⟨w, hw, hp⟩ := hx h a h' hr
  exact ⟨w, hw, hle a w hp⟩

theorem takes_pure {a : α} (ha : P a 0) : Takes P (pure a) := by
  intro h _ h' hr
  cases hr
  exact ⟨0, .refl h, ha⟩

theorem takes_bind {x : HostM α} {f : α → HostM β} (hx : Takes P x)
    (hf : ∀ a w, P a w → Takes (fun b v => Q' b (w + v)) (f a)) : Takes Q' (x >>= f) := by
  intro h b h' hr
  obtain ⟨a, h₁, hrun, hr⟩ := exists_of_run_bind hr
  obtain ⟨w, hw, hp⟩ := hx h a h₁ hrun
  obtain ⟨v, hv, hq⟩ := hf a w hp h₁ b h' hr
  exact ⟨w + v, hw.trans hv, hq⟩

/-- After something idle. -/
theorem takes_next {x : HostM α} {f : α → HostM β} (hx : Idle x) (hf : ∀ a, Takes Q' (f a)) : Takes Q' (x >>= f) := by
  refine takes_bind hx fun a w hw => ?_
  rw [hw]
  simpa only [zero_add] using hf a

theorem idle_map {x : HostM α} (f : α → β) (hx : Idle x) : Idle (f <$> x) := by
  intro h b h' hr
  obtain ⟨a, hx', -⟩ := exists_of_run_map hr
  exact ⟨0, hx.does hx', rfl⟩

end Takes

namespace Host

/-- A call is written down, and has the work done that it asks for. -/
theorem takes_call {op : EngineM α} (entry : α → EngineCall)
    (hop : ∀ e a e', op e = .ok (a, e') → e.Does (entry a).work e') :
    Takes (fun a w => w = (entry a).work) (call op entry) := by
  intro h a h' hr
  have hengine := engine_of_call hr
  rw [call_eq] at hr
  obtain ⟨⟨value, _⟩, -, he⟩ := exists_of_map_ok hr
  cases he
  refine ⟨(entry value).work, ⟨⟨[entry value], Array.toList_push .., ?_⟩, hop _ _ _ hengine, rfl⟩, rfl⟩
  rw [List.map_singleton, List.sum_singleton]

theorem idle_emit (event : Event) : Idle (emit event) := by
  intro h u h' hr
  cases hr
  exact ⟨0, ⟨⟨[], (List.append_nil _).symm, rfl⟩, .refl _, rfl⟩, rfl⟩

theorem takes_compileFunction (name params : String) (source : Bytes) :
    Takes (fun _ w => w = ⟨1, 0, [⟨name, params⟩]⟩) (compileFunction name params source) :=
  takes_call (.compileFunction name params source.length) fun _ _ _ => Engine.does_compileFunction

theorem takes_loadRecord (blob : Bytes) (index : UInt32) : Takes (fun _ w => w = ⟨1, 0, []⟩) (loadRecord blob index) :=
  takes_call (.loadRecord blob.length index) fun _ _ _ hr =>
    have hidle := Engine.does_runOut hr
    ⟨hidle.calls, hidle.parses, hidle.depth⟩

theorem takes_applyFunction (function this : Ref) (args : List Ref) :
    Takes (fun _ w => w = ⟨0, 1, []⟩) (applyFunction function this args) :=
  takes_call (.applyFunction function this args) fun _ _ _ => Engine.does_applyFunction

theorem idle_runBlob (blob : Bytes) : Idle (runBlob blob) :=
  takes_call (.runBlob blob.length) fun _ _ _ hr => Engine.does_runOut hr

theorem idle_newUndefined : Idle newUndefined := takes_call .newUndefined fun _ _ _ => Engine.does_create

theorem idle_newObject : Idle newObject := takes_call .newObject fun _ _ _ => Engine.does_create

theorem idle_acquire (value : Ref) : Idle (acquire value) := by
  refine takes_call (.acquire value) fun e _ e' hr => ?_
  cases hr
  exact .idle rfl rfl rfl

theorem idle_release (value : Ref) : Idle (release value) :=
  takes_call (fun _ => .release value) fun _ _ _ => Engine.does_release

theorem idle_textOf (value : Ref) : Idle (textOf value) := by
  refine takes_call (.textOf value) fun e _ e' hr => ?_
  cases hr
  exact .refl e

theorem idle_messageOf (error : Ref) : Idle (messageOf error) := by
  refine takes_call (.messageOf error) fun e _ e' hr => ?_
  cases hr
  exact .refl e

theorem idle_readProperty (object : Ref) (name : String) : Idle (readProperty object name) := by
  intro h result h' hr
  change call (if name ∈ h.guards.reads then _ else _) _ h = _ at hr
  refine takes_call (.readProperty object name) (fun e _ e' hop => ?_) h result h' hr
  split at hop
  · obtain ⟨_, hnew, -⟩ := exists_of_run_map hop
    exact Engine.does_create hnew
  · exact Engine.does_runOut hop

theorem idle_writeProperty (object : Ref) (name : String) (value : Ref) : Idle (writeProperty object name value) := by
  intro h result h' hr
  change call (if name ∈ h.guards.writes then _ else _) _ h = _ at hr
  refine takes_call (.writeProperty object name value) (fun e _ e' hop => ?_) h result h' hr
  split at hop
  · obtain ⟨_, hnew, -⟩ := exists_of_run_map hop
    exact Engine.does_create hnew
  · exact Engine.does_writeProperty hop

end Host

/-! ## Attempts -/

namespace Attempt

variable {P : Except HostError α → Work → Prop} {Q : Except HostError β → Work → Prop}

/-- Whenever the attempt ends, its outcome and the work it took belong together. -/
def Takes (P : Except HostError α → Work → Prop) (x : Attempt α) : Prop := ScriptHost.Takes P x.run

theorem takes_outcome {r : Except HostError α} (h : P r 0) : Takes P (ExceptT.mk (pure r)) := takes_pure h

theorem takes_ok {a : α} (h : P (.ok a) 0) : Takes P (pure a) := takes_outcome h

theorem takes_throw {e : HostError} (h : P (.error e) 0) : Takes P (throw e) := takes_outcome h

theorem takes_bind {x : Attempt α} {f : α → Attempt β} (hx : Takes P x)
    (hok : ∀ a w, P (.ok a) w → Takes (fun r v => Q r (w + v)) (f a))
    (herror : ∀ e w, P (.error e) w → Q (.error e) w) : Takes Q (x >>= f) := by
  refine ScriptHost.takes_bind hx fun r w hr => ?_
  cases r with
  | ok a => exact hok a w hr
  | error e => exact takes_pure ((add_zero w).symm ▸ herror e w hr)

theorem takes_lift_bind {R : α → Work → Prop} {x : HostM α} {f : α → Attempt β} (hx : ScriptHost.Takes R x)
    (hf : ∀ a w, R a w → Takes (fun r v => Q r (w + v)) (f a)) : Takes Q (liftM x >>= f) := by
  intro h r h' hr
  obtain ⟨a, h₁, hop, hr⟩ := exists_of_lift_bind hr
  obtain ⟨w, hw, hra⟩ := hx h a h₁ hop
  obtain ⟨v, hv, hq⟩ := hf a w hra h₁ r h' hr
  exact ⟨w + v, hw.trans hv, hq⟩

/-- After an idle call of the host. -/
theorem takes_call {x : HostM α} {f : α → Attempt β} (hx : Idle x) (hf : ∀ a, Takes Q (f a)) :
    Takes Q (liftM x >>= f) := by
  refine takes_lift_bind hx fun a w hw => ?_
  rw [hw]
  simpa only [zero_add] using hf a

theorem takes_holding {ref : Ref} {x : Attempt α} (hx : Takes P x) : Takes P (holding ref x) := by
  intro h r h' hr
  obtain ⟨h₁, hwork, hrelease⟩ := exists_of_holding hr
  obtain ⟨w, hw, hp⟩ := hx h r h₁ hwork
  exact ⟨w, hw.after ((Host.idle_release ref).does hrelease), hp⟩

end Attempt

/-! ## Factories -/

namespace Factory

open Attempt

theorem takes_compile (name : String) (source : Bytes) : Attempt.Takes (fun r w =>
    Good (·.name = name) (fun e => ∃ message, e = .compile name message) r ∧ w = ⟨1, 0, [⟨name, signature⟩]⟩)
    (compile name source) := by
  refine takes_call (Host.idle_emit _) fun _ => ?_
  refine takes_lift_bind (Host.takes_compileFunction name signature source) fun result w hw => ?_
  rw [hw]
  cases result with
  | ok function => exact takes_ok ⟨rfl, add_zero _⟩
  | error error =>
    refine takes_holding (takes_call (Host.idle_messageOf error) fun message => ?_)
    exact takes_call (Host.idle_emit _) fun _ => takes_throw ⟨⟨message, rfl⟩, add_zero _⟩

theorem takes_orCorrupt (result : Except Ref Ref) : Attempt.Takes (fun r w =>
    Good (fun _ => True) (fun e => ∃ message, e = .corruptSnapshot message) r ∧ w = 0) (orCorrupt result) := by
  cases result with
  | ok value => exact takes_ok ⟨trivial, rfl⟩
  | error error =>
    exact takes_holding (takes_call (Host.idle_messageOf error) fun message => takes_throw ⟨⟨message, rfl⟩, rfl⟩)

/-- An empty blob is refused without a request. -/
theorem takes_ofRecord (name : String) (blob : Bytes) (index : UInt32) : Attempt.Takes (fun r w =>
    Good (·.name = name) (fun e => ∃ message, e = .corruptSnapshot message) r ∧
      (w = ⟨1, 0, []⟩ ∨ w = 0 ∧ r.isOk = false)) (ofRecord name blob index) := by
  unfold ofRecord
  split
  · exact takes_throw ⟨⟨_, rfl⟩, .inr ⟨rfl, rfl⟩⟩
  · refine takes_call (Host.idle_emit _) fun _ => ?_
    refine takes_lift_bind (Host.takes_loadRecord blob index) fun result w hw => ?_
    rw [hw]
    refine Attempt.takes_bind (takes_orCorrupt result) (fun function v hv => ?_) fun e v hv => ?_
    · rw [hv.2]
      exact takes_ok ⟨rfl, .inl rfl⟩
    · rw [hv.2, add_zero]
      exact ⟨hv.1, .inl rfl⟩

/-- A factory is called once, and an error that it throws is reported under its name. -/
theorem takes_call (factory : Factory) (args : Args) : Attempt.Takes (fun r w =>
    Good (fun _ => True) (fun e => ∃ message, e = .execution factory.name message) r ∧ w = ⟨0, 1, []⟩)
    (call (.ok factory) args) := by
  refine Attempt.takes_bind (P := fun r w => r = .ok factory ∧ w = 0) (takes_outcome ⟨rfl, rfl⟩)
    (fun given w hgiven => ?_) fun e w hgiven => by cases hgiven.1
  obtain ⟨hgiven, rfl⟩ := hgiven
  cases hgiven
  simp only [zero_add]
  refine Attempt.takes_call Host.idle_newUndefined fun this => takes_holding ?_
  refine Attempt.takes_call (Host.idle_emit _) fun _ => ?_
  -- the only work is this one call; what stands around it is idle
  refine takes_lift_bind (Host.takes_applyFunction factory.function this args.toList) fun completion w hw => ?_
  rw [hw]
  refine Attempt.takes_call (Host.idle_release _) fun _ => ?_
  cases completion with
  | ok value => exact takes_ok ⟨trivial, add_zero _⟩
  | error error =>
    refine takes_holding (Attempt.takes_call (Host.idle_messageOf error) fun message => ?_)
    exact Attempt.takes_call (Host.idle_emit _) fun _ => takes_throw ⟨⟨message, rfl⟩, add_zero _⟩

end Factory

end ScriptHost
