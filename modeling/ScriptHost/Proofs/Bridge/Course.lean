/-
How a load goes, by what there is: an id, a module of this id in one table or the other, a builder that fails,
code that compiles or does not. Nothing is asked of the engine before the code of a builtin module is at hand;
then it is asked for a factory once, and where there is one, to call it once.
-/
import ScriptHost.Proofs.Bridge.Counterpart
import ScriptHost.Proofs.Bridge.Identity

namespace ScriptHost

open Engine (Quiet)

namespace Bridge

/-! ## Resolving -/

section Resolving

variable {b b' : Bridge} {h h' : Host} {id : String}

/-- What an id stands for, and why for nothing. -/
inductive Stands (b : Bridge) (id : String) (h : Host) : Except HostError Resolved → Prop where
  | builtin {code : Code} : b.registry.builtins.get? id = some code → Stands b id h (.ok (.builtin code))
  | native {entry : NativeModule} {handle : Ref} : b.registry.builtins.get? id = none →
      b.natives.entries.get? id = some entry → ¬ b.natives.Fails id h → Stands b id h (.ok (.native handle))
  | unknown : b.registry.builtins.get? id = none → b.natives.entries.get? id = none →
      Stands b id h (.error (.moduleNotFound id))
  | failed {reason : String} : b.registry.builtins.get? id = none → b.natives.Fails id h →
      Stands b id h (.error (.nativeLoad id reason))

theorem resolve_stands {r : Except HostError Resolved} (hb : b.natives.Scripted)
    (hr : (resolve id).run b h = .ok ((r, b'), h')) :
    h.Does 0 h' ∧ Stands b id h r ∧ ((∃ code, r = .ok (.builtin code)) → b' = b) := by
  rw [resolve, run_get] at hr
  cases hcode : b.registry.builtins.get? id with
  | some code =>
    rw [hcode] at hr
    dsimp only at hr
    obtain ⟨_, h₁, hemit, hr⟩ := of_run_call hr
    cases hr
    exact ⟨(Host.idle_emit _).does hemit, .builtin hcode, fun _ => rfl⟩
  | none =>
    rw [hcode] at hr
    dsimp only at hr
    rw [run_bind] at hr
    obtain ⟨⟨⟨counterpart, b₁⟩, h₁⟩, hnative, hr⟩ := exists_of_bind_ok hr
    obtain ⟨hidle, hasked⟩ := native_asked hb hnative
    cases hasked with
    | failed hfails =>
      cases hr
      exact ⟨hidle, .failed hcode hfails, by rintro ⟨_, h⟩; cases h⟩
    | unknown hentry =>
      dsimp only at hr
      obtain ⟨_, h₂, hemit, hr⟩ := of_run_call hr
      cases hr
      exact ⟨hidle.after ((Host.idle_emit _).does hemit), .unknown hcode hentry, by rintro ⟨_, h⟩; cases h⟩
    | given hentry hfails =>
      dsimp only at hr
      obtain ⟨_, h₂, hemit, hr⟩ := of_run_call hr
      cases hr
      exact ⟨hidle.after ((Host.idle_emit _).does hemit), .native hcode hentry hfails, by rintro ⟨_, h⟩; cases h⟩

end Resolving

/-! ## Compiling and calling -/

end Bridge

/-- What the engine remembers of a request for the code of a module. -/
def Code.recorded (id : String) : Code → List ParseRequest
  | .source _ => [⟨id, Factory.signature⟩]
  | .snapshot _ => []

namespace Bridge

/-- What comes of the code of a module, and at what expense: it is refused in the one way or the other, by its
form, or it is called, and throws or completes. -/
inductive Ran (id : String) : Code → Except HostError Ref → Work → Prop where
  | refused {text : Bytes} {message : String} :
      Ran id (.source text) (.error (.compile id message)) ⟨1, 0, [⟨id, Factory.signature⟩]⟩
  | corrupt {index : UInt32} {message : String} {w : Work} : w = ⟨1, 0, []⟩ ∨ w = 0 →
      Ran id (.snapshot index) (.error (.corruptSnapshot message)) w
  | threw {code : Code} {message : String} : Ran id code (.error (.execution id message)) ⟨1, 1, code.recorded id⟩
  | completed {code : Code} {value : Ref} : Ran id code (.ok value) ⟨1, 1, code.recorded id⟩

theorem takes_compileBuiltin (id : String) (blob : Bytes) (code : Code) : Attempt.Takes (fun r w =>
    match r with
    | .ok factory => factory.name = id ∧ w = ⟨1, 0, code.recorded id⟩
    | .error e => Ran id code (.error e) w) (compileBuiltin id blob code) := by
  cases code with
  | source text =>
    refine takes_mono (Factory.takes_compile id text) fun r w hw => ?_
    obtain ⟨hgood, rfl⟩ := hw
    cases r with
    | ok factory => exact ⟨hgood, rfl⟩
    | error e =>
      obtain ⟨message, rfl⟩ := hgood
      exact .refused
  | snapshot index =>
    refine takes_mono (Factory.takes_ofRecord id blob index) fun r w hw => ?_
    obtain ⟨hgood, hwork⟩ := hw
    cases r with
    | ok factory => exact ⟨hgood, hwork.resolve_right fun h => by cases h.2⟩
    | error e =>
      obtain ⟨message, rfl⟩ := hgood
      exact .corrupt (hwork.imp_right And.left)

/-- The factory is called where there is one. -/
theorem takes_compileAndCall (id : String) (blob : Bytes) (code : Code) (args : Factory.Args) :
    Attempt.Takes (Ran id code) (do
      let compiled ← liftM (compileBuiltin id blob code).run
      Factory.call compiled args) := by
  refine Attempt.takes_lift_bind (takes_compileBuiltin id blob code) fun compiled w hcompiled => ?_
  cases compiled with
  | error e => exact takes_pure ((add_zero w).symm ▸ hcompiled)
  | ok factory =>
    obtain ⟨rfl, rfl⟩ := hcompiled
    refine takes_mono (Factory.takes_call factory args) fun r v hv => ?_
    obtain ⟨hgood, rfl⟩ := hv
    -- a request for the factory and the call of it make up the whole
    have hsum : (⟨1, 0, code.recorded factory.name⟩ : Work) + ⟨0, 1, []⟩ = ⟨1, 1, code.recorded factory.name⟩ :=
      Work.ext rfl rfl (List.append_nil _)
    rw [hsum]
    cases r with
    | ok value => exact .completed
    | error e =>
      obtain ⟨message, rfl⟩ := hgood
      exact .threw

/-! ## Loading -/

section Loading

variable {b b' : Bridge} {h h' : Host} {id : String} {module require : Ref}

theorem idle_reportLoad {succeeded : Bool} {r : Except HostError Unit}
    (hr : (reportLoad id succeeded).run b h = .ok ((r, b'), h')) : h.Does 0 h' := by
  change ((if b.config.loadstat then _ else _ : BridgeM Unit).run b h) = _ at hr
  split at hr
  · obtain ⟨_, -, hemit, -⟩ := of_run_lift hr
    exact (Host.idle_emit _).does hemit
  · cases hr
    exact .refl h

/-- The native counterpart of a module, or `undefined`. -/
theorem of_run_orUndefined {counterpart : Option Ref} {next : Ref → BridgeM Ref}
    {result : (Except HostError Ref × Bridge) × Host} (hr : (match counterpart with
      | some native => do next (← pure native)
      | none => do next (← liftM Host.newUndefined)).run b h = .ok result) :
    ∃ native h₁, h.Does 0 h₁ ∧ h.engine.Quiet h₁.engine ∧ (next native).run b h₁ = .ok result := by
  cases counterpart with
  | some native => exact ⟨native, h, .refl h, refl_of Quiet _, hr⟩
  | none =>
    obtain ⟨native, h₁, hnew, hr⟩ := of_run_call hr
    exact ⟨native, h₁, Host.idle_newUndefined.does hnew, Host.quiet_newUndefined _ _ _ hnew, hr⟩

/-- A builtin module is compiled and called, unless its native counterpart cannot be built. -/
theorem loadBuiltin_ran {code : Code} {r : Except HostError Ref} {properties : Table Slot} (hb : b.natives.Scripted)
    (ho : h.engine.heap.payload module.slot = .object properties) (hg : h.Unguarded)
    (hr : (loadBuiltin id code module require).run b h = .ok ((r, b'), h')) :
    (b.natives.Fails id h ∧ (∃ reason, r = .error (.nativeLoad id reason)) ∧ h.Does 0 h') ∨
      (¬ b.natives.Fails id h ∧ ∃ w, h.Does w h' ∧ Ran id code r w) := by
  have hlt : module.slot < h.engine.heap.size := Heap.lt_size_of_payload_ne (by rw [ho]; exact nofun)
  unfold loadBuiltin at hr
  rw [run_bind] at hr
  obtain ⟨⟨⟨counterpart, b₁⟩, h₁⟩, hnative, hrest⟩ := exists_of_bind_ok hr
  obtain ⟨hidle₁, hasked⟩ := native_asked hb hnative
  have hquiet₁ := (quiet_native id _ _ _ _ _ hb hnative).2
  cases counterpart with
  | error e =>
    cases hasked with
    | failed hfails =>
      cases hrest
      exact .inl ⟨hfails, ⟨_, rfl⟩, hidle₁⟩
  | ok counterpart =>
    have hfails : ¬ b.natives.Fails id h := by
      cases hasked with
      | unknown hnone => exact NativeTable.not_fails_of_unknown hnone
      | given _ hfails => exact hfails
    refine .inr ⟨hfails, ?_⟩
    obtain ⟨native, h₂, hidle₂, hquiet₂, hwork⟩ := of_run_orUndefined hrest
    obtain ⟨h₃, hwork, hrelease₃⟩ := of_run_holding hwork
    -- the module object is still an object, so its exports are read
    have hbefore : h.Does 0 h₂ := hidle₁.before hidle₂
    have hpayload : h₂.engine.heap.payload module.slot = .object properties :=
      ((trans_of Quiet hquiet₁ hquiet₂).heap.payload _ hlt).trans ho
    obtain ⟨read, h₄, hread, hheld⟩ := of_run_attempt_bind hwork
    obtain ⟨exports, rfl, -⟩ := readProperty_of_object hpayload (hg.after hbefore).exports hread
    obtain ⟨_, hidle₄, -, rfl⟩ := takes_readProperty module "exports" h₂ _ h₄ hread
    obtain ⟨h₅, hreported, hrelease₅⟩ := of_run_holding hheld
    rw [run_get] at hreported
    obtain ⟨h₆, hop, hreport⟩ := of_run_reported hreported
    obtain ⟨w, hw, hran⟩ := takes_compileAndCall id _ code _ h₄ r h₆ hop
    have hreleased : h₆.Does 0 h' :=
      (idle_reportLoad hreport).after
        (((Host.idle_release _).does hrelease₅).after ((Host.idle_release _).does hrelease₃))
    exact ⟨w, (hbefore.before (hidle₄.before hw)).after hreleased, hran⟩

/-- The exports of a native module are assigned, and the engine is asked for nothing. -/
theorem assign_ran {exports : Ref} {r : Except HostError Ref} {properties : Table Slot}
    (ho : h.engine.heap.payload module.slot = .object properties) (hg : "exports" ∉ h.guards.writes)
    (hr : (holding exports (do
      attempt (writeProperty module "exports" exports)
      liftM Host.newUndefined) : BridgeM Ref).run b h = .ok ((r, b'), h')) :
    (∃ value, r = .ok value) ∧ h.Does 0 h' := by
  obtain ⟨h₁, hwork, hrelease⟩ := of_run_holding hr
  obtain ⟨written, h₂, hwrite, hrest⟩ := of_run_attempt_bind hwork
  obtain rfl := writeProperty_of_object ho hg hwrite
  obtain ⟨_, hidle₂, -, rfl⟩ := takes_writeProperty module "exports" exports h _ h₂ hwrite
  obtain ⟨value, rfl, hnew, -⟩ := of_run_lift hrest
  exact ⟨⟨value, rfl⟩,
    (hidle₂.after (Host.idle_newUndefined.does hnew)).after ((Host.idle_release _).does hrelease)⟩

/-- What a load comes to, and at what expense, by what there is: an id, modules of this id, a builder that
fails. -/
inductive Course (b : Bridge) (h : Host) (module : Ref) : Except HostError Ref → Work → Prop where
  | nameless {text : String} : idAt? h.engine module = none → Course b h module (.error (.invalidModule text)) 0
  | unknown {id : String} : idAt? h.engine module = some id → b.registry.builtins.get? id = none →
      b.natives.entries.get? id = none → Course b h module (.error (.moduleNotFound id)) 0
  | failed {id reason : String} : idAt? h.engine module = some id → b.natives.Fails id h →
      Course b h module (.error (.nativeLoad id reason)) 0
  | assigned {id : String} {entry : NativeModule} {value : Ref} : idAt? h.engine module = some id →
      b.registry.builtins.get? id = none → b.natives.entries.get? id = some entry → ¬ b.natives.Fails id h →
      Course b h module (.ok value) 0
  | ran {id : String} {code : Code} {r : Except HostError Ref} {w : Work} : idAt? h.engine module = some id →
      b.registry.builtins.get? id = some code → ¬ b.natives.Fails id h → Ran id code r w → Course b h module r w

theorem loadModule_course {r : Except HostError Ref} (hb : b.natives.Scripted) (hg : h.Unguarded)
    (hr : (loadModule module require).run b h = .ok ((r, b'), h')) : ∃ w, h.Does w h' ∧ Course b h module r w := by
  unfold loadModule at hr
  obtain ⟨named, h₁, hid, hrest⟩ := of_run_attempt_bind hr
  obtain ⟨hidle₁, hnamed⟩ := idOf_iff hg.id hid
  have hquiet₁ : h.engine.Quiet h₁.engine := quiet_idOf module h _ h₁ hid
  cases hat : idAt? h.engine module with
  | none =>
    rw [hat] at hnamed
    obtain ⟨text, rfl⟩ := hnamed
    cases hrest
    exact ⟨0, hidle₁, .nameless hat⟩
  | some id =>
    rw [hat] at hnamed
    obtain rfl := hnamed
    obtain ⟨properties, _, ho, -, -⟩ := exists_of_idAt? hat
    have hlt := lt_size_of_idAt? hat
    have hsame : h₁.engine.depth = h.engine.depth := hidle₁.engine.depth
    dsimp only at hrest
    rw [run_bind] at hrest
    obtain ⟨⟨⟨resolved, b₂⟩, h₂⟩, hresolve, hload⟩ := exists_of_bind_ok hrest
    obtain ⟨hidle₂, hstands, hkept⟩ := resolve_stands hb hresolve
    have hquiet₂ : h₁.engine.Quiet h₂.engine := (quiet_resolve id _ _ _ _ _ hb hresolve).2
    have hbefore : h.Does 0 h₂ := hidle₁.before hidle₂
    -- neither step writes, so the module object is still the one whose id was read
    have hpayload : h₂.engine.heap.payload module.slot = .object properties :=
      ((trans_of Quiet hquiet₁ hquiet₂).heap.payload _ hlt).trans ho
    cases hstands with
    | unknown hcode hentry =>
      cases hload
      exact ⟨0, hbefore, .unknown hat hcode hentry⟩
    | failed hcode hfails =>
      cases hload
      exact ⟨0, hbefore, .failed hat (hb.fails hsame hfails)⟩
    | native hcode hentry hfails =>
      obtain ⟨⟨value, rfl⟩, hidle₃⟩ := assign_ran hpayload (hg.after hbefore).written hload
      exact ⟨0, hbefore.after hidle₃, .assigned hat hcode hentry fun hf => hfails (hb.fails hsame.symm hf)⟩
    | builtin hcode =>
      -- a builtin module resolves to its code and leaves the bridge alone
      obtain rfl := hkept ⟨_, rfl⟩
      have hdepth : h₂.engine.depth = h.engine.depth := hbefore.engine.depth
      rcases loadBuiltin_ran hb hpayload (hg.after hbefore) hload with
        ⟨hfails, ⟨reason, rfl⟩, hidle₃⟩ | ⟨hfails, w, hw, hran⟩
      · exact ⟨0, hbefore.after hidle₃, .failed hat (hb.fails hdepth hfails)⟩
      · exact ⟨w, hbefore.before hw, .ran hat hcode (fun hf => hfails (hb.fails hdepth.symm hf)) hran⟩

end Loading

end Bridge

end ScriptHost
