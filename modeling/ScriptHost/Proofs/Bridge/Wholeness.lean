/-
No module is loaded by half. Where loading fails before a factory is called, every value that was there
is what it was, though builders of native modules may have run on the same heap; and where a module is
loaded that has no code of its own, only its object is changed, in the one property that gets the exports
of the native module.

Builders run programs, which are given no values and so reach none (`Host.quiet_runBlob`); the one write of
a load comes last, and a write that fails is none.
-/
import ScriptHost.Proofs.Bridge.Balance
import ScriptHost.Proofs.Host.Quiet
import ScriptHost.Proofs.Registry.Requests

namespace ScriptHost

open Engine (Extends Quiet)

/-! ## Native modules -/

/-- The builder makes an empty object or runs a blob. -/
def ExportsBuilder.Scripted (init : ExportsBuilder) : Prop :=
  ∀ run, init run = .ok <$> Host.newObject ∨ ∃ blob, init run = Host.runBlob blob

theorem ExportsBuilder.scripted_ofPrograms (programs : List Bytes) :
    (ExportsBuilder.ofPrograms programs).Scripted := by
  intro run
  cases programs with
  | nil => exact .inl rfl
  | cons first rest => exact .inr ⟨_, rfl⟩

theorem ExportsBuilder.Scripted.quiet {init : ExportsBuilder} (h : init.Scripted) (run : Nat) :
    Stays (Host.Via Quiet) (init run) := by
  rcases h run with he | ⟨blob, he⟩
  · rw [he]; exact stays_map Host.quiet_newObject
  · rw [he]; exact Host.quiet_runBlob blob

namespace NativeTable

def Scripted (t : NativeTable) : Prop := ∀ row ∈ t.entries.rows, row.2.init.Scripted

/-- Asking for a native module only adds to the heap, and keeps the builders. -/
theorem quiet_got {t t' : NativeTable} {id : String} {h h' : Host} {result : Except HostError (Option Ref)}
    (ht : t.Scripted) (hg : t.Got id h result t' h') : t'.Scripted ∧ h.engine.Quiet h'.engine := by
  cases hg with
  | unknown => exact ⟨ht, refl_of Quiet _⟩
  | again _ _ hacquire => exact ⟨ht, Host.quiet_acquire _ _ _ _ hacquire⟩
  | built hentry _ hinit hacquire =>
    have hscripted := ht (id, _) ((Table.get?_eq_some_iff ..).1 hentry)
    exact ⟨builders_afterRun ht hentry _,
      trans_of Quiet (hscripted.quiet _ _ _ _ hinit) (Engine.quiet_acquire _ _ _ _ hacquire)⟩
  | failed hentry _ hinit hrelease =>
    have hscripted := ht (id, _) ((Table.get?_eq_some_iff ..).1 hentry)
    exact ⟨builders_afterRun ht hentry _,
      trans_of Quiet (hscripted.quiet _ _ _ _ hinit) (Engine.quiet_release _ _ _ _ hrelease)⟩

/-- A reference to exports is one to what the table keeps. -/
theorem Got.kept {t t' : NativeTable} {id : String} {h h' : Host} {handle : Ref}
    (hg : t.Got id h (.ok (some handle)) t' h') :
    ∃ exports, t'.kept id = some exports ∧ handle.slot = exports.slot := by
  unfold NativeTable.kept
  cases hg with
  | again hentry hexports hacquire =>
    exact ⟨_, by rw [hentry]; exact hexports, (Engine.refs_of_acquire (Host.engine_of_call hacquire)).1⟩
  | built hentry _ _ hacquire =>
    exact ⟨_, by rw [afterRun, Table.get?_insert_self]; rfl, (Engine.refs_of_acquire hacquire).1⟩

end NativeTable

namespace Bridge

variable {α β : Type} {R : Engine → Engine → Prop}

/-! ## Composing operations -/

/-- The operation only adds to the heap, whatever it comes to; builders stay programs. -/
def Stays (R : Engine → Engine → Prop) (op : BridgeM α) : Prop :=
  ∀ b h r b' h', b.natives.Scripted → op.run b h = .ok ((r, b'), h') → b'.natives.Scripted ∧ R h.engine h'.engine

/-- Where the operation fails before a factory is called, it has only added to the heap. -/
def Whole (op : BridgeM α) : Prop :=
  ∀ b h e b' h', b.natives.Scripted → op.run b h = .ok ((.error e, b'), h') → e.BeforeCall →
    h.engine.Extends h'.engine

theorem stays_outcome [Std.Refl R] {outcome : Except HostError α} : Stays R (ExceptT.mk (pure outcome)) := by
  intro b h r b' h' hb hr
  cases hr
  exact ⟨hb, refl_of R _⟩

theorem stays_lift {op : HostM α} (h : ScriptHost.Stays (Host.Via R) op) : Stays R (liftM op : BridgeM α) := by
  intro b host r b' host' hb hr
  obtain ⟨_, -, hop, rfl⟩ := of_run_lift hr
  exact ⟨hb, h _ _ _ hop⟩

theorem stays_attempt {op : Attempt α} (h : Attempt.Stays R op) : Stays R (attempt op) := by
  intro b host r b' host' hb hr
  obtain ⟨hop, rfl⟩ := of_run_attempt hr
  exact ⟨hb, h _ _ _ hop⟩

theorem stays_bind [IsTrans Engine R] {op : BridgeM α} {next : α → BridgeM β} (h : Stays R op)
    (hn : ∀ a, Stays R (next a)) : Stays R (op >>= next) := by
  intro b host r b' host' hb hr
  rw [run_bind] at hr
  obtain ⟨⟨⟨_ | a, b₁⟩, host₁⟩, hop, hr⟩ := exists_of_bind_ok hr
  · cases hr
    exact h _ _ _ _ _ hb hop
  · obtain ⟨hb₁, h₁⟩ := h _ _ _ _ _ hb hop
    obtain ⟨hb', h'⟩ := hn a _ _ _ _ _ hb₁ hr
    exact ⟨hb', trans_of R h₁ h'⟩

theorem stays_get {next : Bridge → BridgeM α} (h : ∀ b, Stays R (next b)) : Stays R (get >>= next) :=
  fun b host r b' host' hb hr => h b b host r b' host' hb hr

theorem extends_of_quiet {op : BridgeM α} (h : Stays Quiet op) : Stays Extends op :=
  fun b host r b' host' hb hr => (h b host r b' host' hb hr).imp id Engine.Quiet.toExtends

theorem whole_attempt {op : Attempt α} (h : Attempt.Whole op) : Whole (attempt op) := by
  intro b host e b' host' _ hr he
  exact h _ _ _ (of_run_attempt hr).1 he

/-- What comes first may only add to the heap. -/
theorem whole_bind {op : BridgeM α} {next : α → BridgeM β} (h : Stays Extends op) (hn : ∀ a, Whole (next a)) :
    Whole (op >>= next) := by
  intro b host e b' host' hb hr he
  rw [run_bind] at hr
  obtain ⟨⟨⟨_ | a, b₁⟩, host₁⟩, hop, hr⟩ := exists_of_bind_ok hr
  · cases hr
    exact (h _ _ _ _ _ hb hop).2
  · obtain ⟨hb₁, h₁⟩ := h _ _ _ _ _ hb hop
    exact trans_of Extends h₁ (hn a _ _ _ _ _ hb₁ hr he)

theorem whole_get {next : Bridge → BridgeM α} (h : ∀ b, Whole (next b)) : Whole (get >>= next) :=
  fun b host e b' host' hb hr he => h b b host e b' host' hb hr he

theorem whole_holding {ref : Ref} {work : BridgeM α} (h : Whole work) : Whole (holding ref work) := by
  intro b host e b' host' hb hr he
  obtain ⟨host₁, hwork, hrelease⟩ := of_run_holding hr
  exact trans_of Extends (h _ _ _ _ _ hb hwork he) (Host.quiet_release ref _ _ _ hrelease).toExtends

/-! ## Loading -/

theorem quiet_refuseProperty (name : String) (error : Ref) :
    Attempt.Stays Quiet (refuseProperty name error : Attempt α) :=
  Attempt.quiet_holding (fun _ _ h => h)
    (Attempt.stays_call (Host.quiet_messageOf error) fun _ => Attempt.stays_throw)

theorem quiet_readProperty (object : Ref) (name : String) : Attempt.Stays Quiet (readProperty object name) := by
  refine Attempt.stays_call (Host.quiet_readProperty object name) fun result => ?_
  cases result with
  | ok value => exact Attempt.stays_pure
  | error error => exact quiet_refuseProperty name error

theorem quiet_idOf (module : Ref) : Attempt.Stays Quiet (idOf module) := by
  refine Attempt.stays_bind (quiet_readProperty module "id") fun id => ?_
  refine Attempt.quiet_holding (fun _ _ h => h) (Attempt.stays_call (Host.quiet_textOf id) fun text => ?_)
  cases text with
  | some text => exact Attempt.stays_pure
  | none => exact Attempt.stays_throw

/-- A property that is refused was not written. -/
theorem whole_writeProperty (object : Ref) (name : String) (value : Ref) :
    Attempt.Whole (writeProperty object name value) := by
  intro h e h' hr _
  obtain ⟨result, h₁, hwrite, hr⟩ := Attempt.exists_of_lift_bind hr
  rcases Host.writeProperty_ok hwrite with ⟨_, -, rfl, -⟩ | ⟨error, rfl, hquiet⟩
  · cases hr
  · exact trans_of Extends hquiet.toExtends (quiet_refuseProperty name error _ _ _ hr).toExtends

theorem quiet_native (id : String) : Stays Quiet (native id) := by
  intro b host r b' host' hb hr
  rw [run_native] at hr
  obtain ⟨⟨⟨result, natives⟩, host₁⟩, hget, hr⟩ := exists_of_bind_ok hr
  cases hr
  exact NativeTable.quiet_got hb (NativeTable.got_of_get hget)

theorem quiet_resolve (id : String) : Stays Quiet (resolve id) := by
  refine stays_get fun b => ?_
  split
  · exact stays_bind (stays_lift (Host.stays_emit _)) fun _ => stays_outcome
  · refine stays_bind (quiet_native id) fun exports => ?_
    cases exports with
    | some exports => exact stays_bind (stays_lift (Host.stays_emit _)) fun _ => stays_outcome
    | none => exact stays_bind (stays_lift (Host.stays_emit _)) fun _ => stays_outcome

theorem extends_compileBuiltin (id : String) (blob : Bytes) (code : Code) :
    Attempt.Stays Extends (compileBuiltin id blob code) := by
  cases code with
  | snapshot index => exact Attempt.extends_of_quiet (Factory.quiet_ofRecord id blob index)
  | source text => exact Factory.extends_compile id text

theorem quiet_reportLoad (id : String) (succeeded : Bool) : Stays Quiet (reportLoad id succeeded) := by
  refine stays_get fun b => ?_
  split
  · exact stays_lift (Host.stays_emit _)
  · exact stays_outcome

/-- The outcome of an attempt is passed on after the load is reported. -/
theorem whole_reported {op : Attempt α} (id : String) (h : Attempt.Whole op) : Whole (do
    let result ← outcomeOf (attempt op)
    reportLoad id result.isOk
    ExceptT.mk (pure result)) := by
  intro b host e b' host' hb hr he
  obtain ⟨host₁, hop, hreport⟩ := of_run_reported hr
  exact trans_of Extends (h _ _ _ hop he) (quiet_reportLoad id _ _ _ _ _ _ hb hreport).2.toExtends

theorem whole_orUndefined (counterpart : Option Ref) {next : Ref → BridgeM α} (h : ∀ native, Whole (next native)) :
    Whole (match counterpart with
      | some native => do next (← pure native)
      | none => do next (← liftM Host.newUndefined)) := by
  cases counterpart with
  | some native => exact h native
  | none => exact whole_bind (stays_lift (Host.extends_of_quiet Host.quiet_newUndefined)) h

theorem whole_loadBuiltin (id : String) (code : Code) (module require : Ref) :
    Whole (loadBuiltin id code module require) := by
  refine whole_bind (extends_of_quiet (quiet_native id)) fun counterpart => ?_
  refine whole_orUndefined counterpart fun native => whole_holding ?_
  refine whole_bind (extends_of_quiet (stays_attempt (quiet_readProperty module "exports"))) fun exports => ?_
  refine whole_holding (whole_get fun b => whole_reported id ?_)
  exact Attempt.whole_call (extends_compileBuiltin id b.registry.builtins.blob code) fun compiled =>
    Factory.whole_call compiled _

/-- Where loading fails before a factory is called, nothing has changed that was there. -/
theorem whole_loadModule (module require : Ref) : Whole (loadModule module require) := by
  refine whole_bind (extends_of_quiet (stays_attempt (quiet_idOf module))) fun id => ?_
  refine whole_bind (extends_of_quiet (quiet_resolve id)) fun resolved => ?_
  cases resolved with
  | builtin code => exact whole_loadBuiltin id code module require
  | native exports =>
    -- here the write comes first, and only the write can fail
    refine whole_holding ?_
    intro b host e b' host' hb hr he
    rw [run_bind] at hr
    obtain ⟨⟨⟨r, b₁⟩, host₁⟩, hwrite, hr⟩ := exists_of_bind_ok hr
    cases r with
    | error _ =>
      cases hr
      exact whole_attempt (whole_writeProperty module "exports" exports) _ _ _ _ _ hb hwrite he
    | ok _ =>
      obtain ⟨_, he, -⟩ := of_run_lift hr
      cases he

/-! ## Modules without code of their own -/

/-- The id that a module object has, if it has one. -/
def idAt? (e : Engine) (module : Ref) : Option String :=
  ((e.heap.properties module.slot).get? "id").bind e.heap.text?

theorem refuseProperty_fails (name : String) (error : Ref) {value : α} {h h' : Host} :
    (refuseProperty name error : Attempt α).run h ≠ .ok (.ok value, h') := by
  intro hr
  obtain ⟨h₁, hwork, -⟩ := Attempt.exists_of_holding hr
  obtain ⟨_, _, -, he⟩ := Attempt.exists_of_lift_bind hwork
  cases he

/-- A property that was read was there, or is `undefined`. -/
theorem readProperty_ok {object value : Ref} {name : String} {h h' : Host}
    (hr : (readProperty object name).run h = .ok (.ok value, h')) :
    ((h.engine.heap.properties object.slot).get? name = some value.slot ∧
      h'.engine.heap.payload value.slot = h.engine.heap.payload value.slot) ∨
    h'.engine.heap.payload value.slot = .undefined := by
  obtain ⟨result, h₁, hread, hr⟩ := Attempt.exists_of_lift_bind hr
  cases result with
  | ok value =>
    cases hr
    exact Host.readProperty_ok hread
  | error error => exact absurd hr (refuseProperty_fails name error)

theorem idOf_ok {module : Ref} {id : String} {h h' : Host} (hr : (idOf module).run h = .ok (.ok id, h')) :
    idAt? h.engine module = some id := by
  obtain ⟨value, h₁, hread, hr⟩ := Attempt.exists_of_ok_bind hr
  obtain ⟨h₂, hr, -⟩ := Attempt.exists_of_holding hr
  obtain ⟨text, h₃, hcall, hr⟩ := Attempt.exists_of_lift_bind hr
  obtain ⟨htext, -⟩ := Prod.mk.inj (Except.ok.inj (Host.engine_of_call hcall))
  cases text with
  | none => cases hr
  | some text =>
    cases hr
    change h₁.engine.heap.text? value.slot = some id at htext
    unfold Heap.text? at htext
    rcases readProperty_ok hread with ⟨hprop, hpayload⟩ | hundefined
    · unfold idAt?
      rw [hprop, Option.bind_some, Heap.text?, ← hpayload]
      exact htext
    · rw [hundefined] at htext
      cases htext

/-- What loading a native module does: the module object gets the exports that the table keeps, and nothing
else that was there is changed, called or compiled. -/
structure AssignsExports (natives : NativeTable) (id : String) (module : Ref) (e e' : Engine) : Prop where
  calls : e'.calls = e.calls
  parses : e'.parses = e.parses
  exports : ∃ properties exports, e.heap.payload module.slot = .object properties ∧
    natives.kept id = some exports ∧ e'.heap.payload module.slot = .object (properties.insert "exports" exports.slot)
  others : ∀ slot < e.heap.size, slot ≠ module.slot → e'.heap.payload slot = e.heap.payload slot

/-- Without code of its own a name stands for the exports of a native module. -/
theorem resolve_ok {id : String} {b b' : Bridge} {h h' : Host} {resolved : Resolved}
    (hnone : b.registry.builtins.get? id = none)
    (hr : (resolve id).run b h = .ok ((.ok resolved, b'), h')) :
    ∃ handle exports, resolved = .native handle ∧ b'.natives.kept id = some exports ∧
      handle.slot = exports.slot := by
  rw [resolve, run_get, hnone] at hr
  obtain ⟨counterpart, b₁, h₁, hnative, hr⟩ := exists_of_ok_bind hr
  rw [run_native] at hnative
  obtain ⟨⟨⟨result, natives⟩, h₂⟩, hget, hnative⟩ := exists_of_bind_ok hnative
  cases hnative
  cases counterpart with
  | none =>
    obtain ⟨_, _, _, -, hr⟩ := exists_of_ok_bind hr
    cases hr
  | some handle =>
    obtain ⟨_, b₂, h₃, hemit, hr⟩ := exists_of_ok_bind hr
    cases hemit
    cases hr
    obtain ⟨exports, hkept, hslot⟩ := (NativeTable.got_of_get hget).kept
    exact ⟨handle, exports, rfl, hkept, hslot⟩

/-- A module object that has an id is an object of the heap. -/
theorem lt_size_of_idAt? {e : Engine} {module : Ref} {id : String} (h : idAt? e module = some id) :
    module.slot < e.heap.size := by
  by_contra hle
  unfold idAt? at h
  rw [Heap.properties_eq, Heap.payload_eq_undefined_of_le (Nat.not_lt.1 hle)] at h
  cases h

/-- The exports of a native module are assigned while they are held, and `undefined` is the result. -/
theorem assign_ok {module handle value : Ref} {b b' : Bridge} {h h' : Host}
    (hlt : module.slot < h.engine.heap.size)
    (hr : (holding handle (do
      attempt (writeProperty module "exports" handle)
      liftM Host.newUndefined) : BridgeM Ref).run b h = .ok ((.ok value, b'), h')) :
    b' = b ∧ ∃ properties, h.engine.heap.payload module.slot = .object properties ∧
      h'.engine.heap.payload module.slot = .object (properties.insert "exports" handle.slot) ∧
      (∀ slot < h.engine.heap.size, slot ≠ module.slot →
        h'.engine.heap.payload slot = h.engine.heap.payload slot) ∧
      h'.engine.calls = h.engine.calls ∧ h'.engine.parses = h.engine.parses := by
  obtain ⟨h₁, hwork, hrelease⟩ := of_run_holding hr
  obtain ⟨_, b₂, h₂, hfirst, hsecond⟩ := exists_of_ok_bind hwork
  obtain ⟨hwrite, rfl⟩ := of_run_attempt hfirst
  obtain ⟨_, -, hnew, rfl⟩ := of_run_lift hsecond
  refine ⟨rfl, ?_⟩
  -- after the write there is nothing but a new value and a reference less
  have hafter : h₂.engine.Quiet h'.engine :=
    trans_of Quiet (Host.quiet_newUndefined _ _ _ hnew) (Host.quiet_release handle _ _ _ hrelease)
  obtain ⟨result, h₃, hcall, he⟩ := Attempt.exists_of_lift_bind hwrite
  rcases Host.writeProperty_ok hcall with ⟨properties, ho, rfl, heng⟩ | ⟨error, rfl, -⟩
  · cases he
    have hsize : h₂.engine.heap.size = h.engine.heap.size := by rw [heng]; exact Heap.size_setPayload ..
    refine ⟨properties, ho, ?_, fun slot hs hne => ?_, ?_, ?_⟩
    · rw [hafter.heap.payload _ (hsize ▸ hlt), heng]
      exact (Heap.payload_setPayload ..).trans (if_pos ⟨rfl, hlt⟩)
    · rw [hafter.heap.payload _ (hsize ▸ hs), heng]
      exact (Heap.payload_setPayload ..).trans (if_neg fun hc => hne hc.1)
    · rw [hafter.calls, heng]
    · rw [hafter.parses, heng]
  · exact absurd he (refuseProperty_fails "exports" error)

theorem assigns_loadModule {module require value : Ref} {b b' : Bridge} {h h' : Host} (hb : b.natives.Scripted)
    (hr : (loadModule module require).run b h = .ok ((.ok value, b'), h')) : ∃ id, idAt? h.engine module = some id ∧
      (b.registry.builtins.get? id = none → AssignsExports b'.natives id module h.engine h'.engine) := by
  obtain ⟨id, b₁, h₁, hfirst, hrest⟩ := exists_of_ok_bind hr
  obtain ⟨hid, rfl⟩ := of_run_attempt hfirst
  have hat := idOf_ok hid
  refine ⟨id, hat, fun hnone => ?_⟩
  have hlt := lt_size_of_idAt? hat
  obtain ⟨resolved, b₂, h₂, hresolve, hassign⟩ := exists_of_ok_bind hrest
  have hbefore : h.engine.Quiet h₂.engine :=
    trans_of Quiet (quiet_idOf module _ _ _ hid) (quiet_resolve id _ _ _ _ _ hb hresolve).2
  obtain ⟨handle, exports, rfl, hkept, hslot⟩ := resolve_ok hnone hresolve
  obtain ⟨rfl, properties, ho, hwritten, hothers, hcalls, hparses⟩ :=
    assign_ok (lt_of_lt_of_le hlt hbefore.heap.grown) hassign
  rw [hbefore.heap.payload _ hlt] at ho
  rw [hslot] at hwritten
  refine ⟨hcalls.trans hbefore.calls, hparses.trans hbefore.parses, ⟨properties, exports, ho, hkept, hwritten⟩, ?_⟩
  exact fun slot hs hne =>
    (hothers slot (lt_of_lt_of_le hs hbefore.heap.grown) hne).trans (hbefore.heap.payload slot hs)

/-- A load that fails, unless in the factory of the module, leaves what was there as it was and calls nothing.
A load that succeeds has found an id, and where no builtin module has it, the exports of the native one are
assigned and nothing else happens. -/
theorem loadModule_whole {module require : Ref} {b b' : Bridge} {h h' : Host} {outcome : Except HostError Ref}
    (hb : b.natives.Scripted) (hr : (loadModule module require).run b h = .ok ((outcome, b'), h')) :
    match outcome with
    | .error e => e.BeforeCall → h.engine.Extends h'.engine
    | .ok _ => ∃ id, idAt? h.engine module = some id ∧
      (b.registry.builtins.get? id = none → AssignsExports b'.natives id module h.engine h'.engine) := by
  cases outcome with
  | error e => exact whole_loadModule module require b h e b' h' hb hr
  | ok value => exact assigns_loadModule hb hr

/-- Two native modules, one of which cannot be built. -/
def nativesOnly : Bridge where
  registry := {
    builtins := .empty
    natives := ⟨.ofList [("a", ⟨.ofPrograms ["\x7b\x7d".toUTF8.toList], 0, none⟩),
      ("b", ⟨.ofPrograms ["throw new Error('no')".toUTF8.toList], 0, none⟩)], none, .empty⟩ }
  config := ⟨none, true⟩
  gate := none
  files := .ofEntries .empty

/-- A host with the object of a module and its exports. -/
def moduleHost (id : String) : Host where
  engine := {
    heap := ⟨#[⟨.text id, 0⟩, ⟨.emptyObject, 0⟩, ⟨.object (.ofList [("exports", 1), ("id", 0)]), 1⟩]⟩
    parses := #[]
    calls := 0
    releases := 0
    issued := 1
    depth := 4 }
  guards := ⟨[], []⟩
  transcript := #[]
  log := #[]

theorem nativesOnly_scripted : nativesOnly.natives.Scripted := by
  intro row hrow
  have hrow := Table.mem_of_mem_ofList hrow
  simp only [List.mem_cons, List.not_mem_nil, or_false] at hrow
  rcases hrow with rfl | rfl
  · exact ExportsBuilder.scripted_ofPrograms ["\x7b\x7d".toUTF8.toList]
  · exact ExportsBuilder.scripted_ofPrograms ["throw new Error('no')".toUTF8.toList]

theorem nativesOnly_fails : ((loadModule ⟨2, 1⟩ ⟨2, 1⟩).run nativesOnly (moduleHost "b")).map
    (fun r => match r.1.1 with
      | .error (.nativeLoad id reason) => some (id, reason)
      | _ => none) = .ok (some ("b", "Error: no")) := by
  decide +kernel

/-- The first module is assigned, and the second one fails with its builder. -/
theorem loadModule_whole_nativesOnly :
    (∃ value b' h', (loadModule ⟨2, 1⟩ ⟨2, 1⟩).run nativesOnly (moduleHost "a") = .ok ((.ok value, b'), h') ∧
      AssignsExports b'.natives "a" ⟨2, 1⟩ (moduleHost "a").engine h'.engine) ∧
    ∃ b' h', (loadModule ⟨2, 1⟩ ⟨2, 1⟩).run nativesOnly (moduleHost "b") =
      .ok ((.error (.nativeLoad "b" "Error: no"), b'), h') ∧ (moduleHost "b").engine.Extends h'.engine := by
  constructor
  · have hview : ((loadModule ⟨2, 1⟩ ⟨2, 1⟩).run nativesOnly (moduleHost "a")).map
        (fun r => r.1.1.toOption.isSome) = .ok true := by
      decide +kernel
    obtain ⟨⟨⟨_ | value, b'⟩, h'⟩, hrun, hv⟩ := exists_of_map_ok hview
    · cases hv
    · obtain ⟨id, hid, hassigns⟩ := loadModule_whole nativesOnly_scripted hrun
      have ha : idAt? (moduleHost "a").engine ⟨2, 1⟩ = some "a" := by decide
      obtain rfl := Option.some.inj (ha.symm.trans hid)
      exact ⟨value, b', h', hrun, hassigns rfl⟩
  · obtain ⟨⟨⟨outcome, b'⟩, h'⟩, hrun, hv⟩ := exists_of_map_ok nativesOnly_fails
    dsimp only at hv
    split at hv
    · cases hv
      exact ⟨b', h', hrun, loadModule_whole nativesOnly_scripted hrun fun _ _ he => by cases he⟩
    · cases hv

end Bridge

end ScriptHost
