/-
What operations of the bridge may come to. Main result: where loading a module ends with a module that
does not compile, this module is the one whose id the module object has.
-/
import ScriptHost.Proofs.Bridge.Basic
import ScriptHost.Proofs.Host.Outcome

namespace ScriptHost.Bridge

variable {α β : Type} {V : α → Prop} {W : β → Prop} {P : HostError → Prop} {id : String}

/-- Whenever the operation ends, it ends with a result with `V` or an error with `P`. -/
def Gives (V : α → Prop) (P : HostError → Prop) (x : BridgeM α) : Prop :=
  ∀ b h r b' h', x.run b h = .ok ((r, b'), h') → Good V P r

theorem gives_outcome {r : Except HostError α} (h : Good V P r) : Gives V P (ExceptT.mk (pure r)) := by
  intro _ _ _ _ _ hr
  cases hr
  exact h

theorem gives_pure {v : α} (h : V v) : Gives V P (pure v) := gives_outcome (r := .ok v) h

theorem gives_throw {e : HostError} (h : P e) : Gives V P (throw e : BridgeM α) := gives_outcome (r := .error e) h

theorem gives_bind {x : BridgeM α} {f : α → BridgeM β} (h : Gives V P x) (hf : ∀ v, V v → Gives W P (f v)) :
    Gives W P (x >>= f) := by
  intro b host r b' host' hr
  rw [run_bind] at hr
  obtain ⟨⟨⟨r₁, b₁⟩, host₁⟩, hx, hr⟩ := exists_of_bind_ok hr
  have hgood := h _ _ _ _ _ hx
  cases r₁ with
  | ok v => exact hf v hgood _ _ _ _ _ hr
  | error e => cases hr; exact hgood

theorem gives_get {f : Bridge → BridgeM α} (hf : ∀ b, Gives V P (f b)) : Gives V P (get >>= f) :=
  fun b host r b' host' hr => hf b b host r b' host' hr

theorem gives_lift (x : HostM α) : Gives (fun _ => True) P (liftM x) := by
  intro b host r b' host' hr
  rw [run_lift] at hr
  obtain ⟨_, _, hr⟩ := exists_of_bind_ok hr
  cases hr
  trivial

theorem gives_call {x : HostM α} {f : α → BridgeM β} (hf : ∀ v, Gives W P (f v)) : Gives W P (liftM x >>= f) :=
  gives_bind (gives_lift x) fun v _ => hf v

theorem gives_attempt {x : Attempt α} (h : Attempt.Gives V P x) : Gives V P (attempt x) := by
  intro b host r b' host' hr
  rw [run_attempt] at hr
  obtain ⟨_, hx, hr⟩ := exists_of_bind_ok hr
  cases hr
  exact h _ _ _ hx

theorem gives_outcomeOf {x : BridgeM α} (h : Gives V P x) : Gives (Good V P) P (outcomeOf x) := by
  intro b host r b' host' hr
  rw [run_outcomeOf] at hr
  obtain ⟨⟨⟨_, _⟩, _⟩, hx, hr⟩ := exists_of_bind_ok hr
  cases hr
  exact h _ _ _ _ _ hx

theorem gives_holding {ref : Ref} {x : BridgeM α} (h : Gives V P x) : Gives V P (holding ref x) := by
  intro b host r b' host' hr
  rw [run_holding] at hr
  obtain ⟨⟨⟨_, _⟩, _⟩, hx, hr⟩ := exists_of_bind_ok hr
  obtain ⟨_, _, hr⟩ := exists_of_bind_ok hr
  cases hr
  exact h _ _ _ _ _ hx

/-! ## Loading -/

theorem gives_refuseProperty (name : String) (error : Ref) :
    Attempt.Gives V (·.Blames id) (refuseProperty name error) :=
  Attempt.gives_holding (Attempt.gives_call fun _ => Attempt.gives_throw trivial)

theorem gives_readProperty (object : Ref) (name : String) :
    Attempt.Gives (fun _ => True) (·.Blames id) (readProperty object name) := by
  refine Attempt.gives_call fun result => ?_
  cases result with
  | ok value => exact Attempt.gives_pure trivial
  | error error => exact gives_refuseProperty name error

theorem gives_writeProperty (object : Ref) (name : String) (value : Ref) :
    Attempt.Gives (fun _ => True) (·.Blames id) (writeProperty object name value) := by
  refine Attempt.gives_call fun result => ?_
  cases result with
  | ok _ => exact Attempt.gives_pure trivial
  | error error => exact gives_refuseProperty name error

theorem gives_idOf (module : Ref) : Attempt.Gives (fun _ => True) (·.Blames id) (idOf module) := by
  refine Attempt.gives_bind (gives_readProperty module "id") fun value _ => ?_
  refine Attempt.gives_holding (Attempt.gives_call fun text => ?_)
  cases text with
  | some text => exact Attempt.gives_pure trivial
  | none => exact Attempt.gives_throw trivial

/-- A native module is no factory: what fails in it is not blamed as one. -/
theorem yields_nativeGet (t : NativeTable) (name : String) :
    Yields (fun r => Good (fun _ => True) (·.Blames id) r.1) (t.get name) := by
  unfold NativeTable.get
  split
  · exact yields_pure trivial
  · split
    · exact yields_next fun handle => yields_pure trivial
    · refine yields_next fun result => ?_
      cases result with
      | ok exports => exact yields_next fun _ => yields_next fun handle => yields_pure trivial
      | error error => exact yields_next fun reason => yields_next fun _ => yields_next fun _ => yields_pure trivial

theorem gives_native (name : String) : Gives (fun _ => True) (·.Blames id) (native name) := by
  intro b host r b' host' hr
  rw [run_native] at hr
  obtain ⟨⟨⟨_, _⟩, _⟩, hx, hr⟩ := exists_of_bind_ok hr
  cases hr
  exact yields_nativeGet b.registry.natives name host _ _ hx

theorem gives_resolve (name : String) : Gives (fun _ => True) (·.Blames id) (resolve name) := by
  refine gives_get fun b => ?_
  split
  · exact gives_call fun _ => gives_pure trivial
  · refine gives_bind (gives_native name) fun exports _ => ?_
    cases exports with
    | some exports => exact gives_call fun _ => gives_pure trivial
    | none => exact gives_call fun _ => gives_throw trivial

theorem gives_orUndefined (counterpart : Option Ref) {f : Ref → BridgeM α} (h : ∀ native, Gives V P (f native)) :
    Gives V P (match counterpart with
      | some native => do f (← pure native)
      | none => do f (← liftM Host.newUndefined)) := by
  cases counterpart with
  | some native => exact h native
  | none => exact gives_call h

theorem gives_compileBuiltin (id : String) (blob : Bytes) (code : Code) :
    Attempt.Gives (fun _ => True) (·.Blames id) (compileBuiltin id blob code) := by
  cases code with
  | snapshot index => exact Factory.gives_ofRecord id blob index
  | source text => exact Factory.gives_compile id text

theorem gives_reportLoad (id : String) (succeeded : Bool) : Gives (fun _ => True) P (reportLoad id succeeded) := by
  refine gives_get fun b => ?_
  split
  · exact gives_lift _
  · exact gives_pure trivial

theorem gives_loadBuiltin (code : Code) (module require : Ref) :
    Gives (fun _ => True) (·.Blames id) (loadBuiltin id code module require) := by
  refine gives_bind (gives_native id) fun counterpart _ => gives_orUndefined counterpart fun native => ?_
  refine gives_holding (gives_bind (gives_attempt (gives_readProperty module "exports")) fun exports _ => ?_)
  refine gives_holding (gives_get fun b => ?_)
  refine gives_bind (gives_outcomeOf (gives_attempt (Attempt.gives_bind
    (Attempt.gives_lift (gives_compileBuiltin id b.registry.builtins.blob code)) fun compiled hc =>
      Factory.gives_call_factory _ hc))) fun result hresult => ?_
  exact gives_bind (gives_reportLoad id _) fun _ _ => gives_outcome hresult

theorem gives_loadResolved (resolved : Resolved) (module require : Ref) :
    Gives (fun _ => True) (·.Blames id) (match resolved with
      | .native exports =>
        holding exports do
          attempt (writeProperty module "exports" exports)
          liftM Host.newUndefined
      | .builtin code => loadBuiltin id code module require) := by
  cases resolved with
  | builtin code => exact gives_loadBuiltin code module require
  | native exports =>
    refine gives_holding (gives_bind (gives_attempt (gives_writeProperty module "exports" exports)) fun _ _ => ?_)
    exact gives_lift _

/-- A module that does not compile is the one whose id the module object has. -/
theorem loadModule_blames {b b' : Bridge} {h h' : Host} {module require : Ref} {name message : String}
    (hr : (loadModule module require).run b h = .ok ((.error (.compile name message), b'), h')) :
    ∃ h₁, (idOf module).run h = .ok (.ok name, h₁) := by
  unfold loadModule at hr
  rw [run_bind] at hr
  obtain ⟨⟨⟨r, b₁⟩, h₁⟩, hx, hr⟩ := exists_of_bind_ok hr
  rw [run_attempt] at hx
  obtain ⟨⟨r, h₁⟩, hid, hx⟩ := exists_of_bind_ok hx
  cases hx
  cases r with
  | ok id =>
    have hrest : Gives _ (·.Blames id) _ := gives_bind (gives_resolve id) fun resolved _ =>
      gives_loadResolved resolved module require
    cases (hrest _ _ _ _ _ hr : name = id)
    exact ⟨h₁, hid⟩
  | error e =>
    -- what fails before the id is known would blame every id
    cases hr
    have hblames : ∀ id, (HostError.compile name message).Blames id := fun id => gives_idOf module _ _ _ hid
    exact absurd ((hblames "a").symm.trans (hblames "b")) (by decide)

end ScriptHost.Bridge
