/-
The balance of the bridge. Between its operations a bridge holds one reference for each native module
whose exports are built; an operation may build some more, and moves the rest of the balance by the
references in its answer and by nothing else. A failed operation leaves no reference behind, wherever
it fails.

What is proved of an attempt for all counts is used here with the references of the native table beside
those that the operation is about.
-/
import ScriptHost.Proofs.Bridge.Basic
import ScriptHost.Proofs.Registry.Native

namespace ScriptHost

/-- The references in what an id stands for. -/
def Resolved.refs : Resolved → List Ref
  | .builtin _ => []
  | .native exports => [exports]

namespace Bridge

variable {α β : Type} {lo : Nat} {counts : Counts}

/-- The native modules of a bridge. -/
abbrev natives (b : Bridge) : NativeTable := b.registry.natives

/-- Some references are held, and those of the native modules besides. -/
def Balanced (lo : Nat) (counts : Counts) (b : Bridge) (h : Host) : Prop :=
  b.natives.Honest lo ∧ h.Balanced lo (counts + tally b.natives.cached)

/-- On this bridge the operation comes from the counts `before` to the counts `done`, or fails with the
counts `failed`. -/
def SettlesOn (lo : Nat) (b : Bridge) (before : Counts) (op : BridgeM α) (done : α → Counts)
    (failed : Counts) : Prop :=
  Triple (b.Balanced lo before) (op.run b) fun r => r.2.Balanced lo (settled done failed r.1)

/-- The same on every bridge. -/
def Settles (lo : Nat) (before : Counts) (op : BridgeM α) (done : α → Counts) (failed : Counts) : Prop :=
  ∀ b, SettlesOn lo b before op done failed

variable {before failed : Counts} {done : α → Counts} {done' : β → Counts}

/-! ## Composing operations -/

theorem settles_pure {a : α} (h : before = done a) : Settles lo before (pure a) done failed := by
  subst h
  exact fun _ _ hb => hb

theorem settles_throw {e : HostError} : Settles lo failed (throw e : BridgeM α) done failed :=
  fun _ _ hb => hb

theorem settlesOn_bind {b : Bridge} {op : BridgeM α} {next : α → BridgeM β}
    (h : SettlesOn lo b before op done failed) (hn : ∀ a, Settles lo (done a) (next a) done' failed) :
    SettlesOn lo b before (op >>= next) done' failed := by
  intro host hb
  rw [run_bind]
  refine (h host hb).bind fun r hr => ?_
  rcases r with ⟨⟨e | a, b'⟩, host'⟩
  · exact hr
  · exact hn a b' host' hr

theorem settles_bind {op : BridgeM α} {next : α → BridgeM β} (h : Settles lo before op done failed)
    (hn : ∀ a, Settles lo (done a) (next a) done' failed) : Settles lo before (op >>= next) done' failed :=
  fun b => settlesOn_bind (h b) hn

theorem settles_get {next : Bridge → BridgeM α} (h : ∀ b, SettlesOn lo b before (next b) done failed) :
    Settles lo before (get >>= next) done failed :=
  fun b host hb => h b host hb

/-- What changes besides the modules of a bridge does not matter. -/
theorem settlesOn_set {b b' : Bridge} {next : Unit → BridgeM α} (hr : b'.registry = b.registry)
    (h : SettlesOn lo b' before (next ()) done failed) : SettlesOn lo b before (set b' >>= next) done failed := by
  intro host hb
  refine h host ?_
  unfold Balanced natives
  rw [hr]
  exact hb

theorem settles_lift {op : HostM α} {gain : α → Counts}
    (h : ∀ held, Triple (Host.Balanced lo (before + held)) op fun a => Host.Balanced lo (before + held + gain a)) :
    Settles lo before (liftM op) (fun a => before + gain a) failed := by
  intro b host hb
  rw [run_lift]
  refine (h _ host hb.2).bind fun r hr => ⟨hb.1, ?_⟩
  change r.2.Balanced lo (before + tally b.natives.cached + gain r.1) at hr
  rw [add_right_comm] at hr
  exact hr

theorem settles_emit (event : Event) : Settles lo before (liftM (Host.emit event)) (fun _ => before) failed :=
  fun _ _ hb => hb

theorem settles_attempt {op : Attempt α} {gain : α → Counts}
    (h : ∀ held, Attempt.Settles lo (before + held) op (fun a => before + held + gain a) (before + held)) :
    Settles lo before (attempt op) (fun a => before + gain a) before := by
  intro b host hb
  rw [run_attempt]
  refine (h _ host hb.2).bind fun r hr => ⟨hb.1, ?_⟩
  rcases r with ⟨e | a, host'⟩
  · exact hr
  · rw [settled, add_right_comm] at hr
    exact hr

/-- An attempt that leaves nothing behind either way. -/
theorem settles_attempt_even {op : Attempt α}
    (h : ∀ held, Attempt.Settles lo (before + held) op (fun _ => before + held) (before + held)) :
    Settles lo before (attempt op) (fun _ => before) before := by
  intro b host hb
  rw [run_attempt]
  refine (h _ host hb.2).bind fun r hr => ⟨hb.1, ?_⟩
  rcases r with ⟨_ | _, _⟩ <;> exact hr

theorem settles_outcomeOf {op : BridgeM α} (h : Settles lo before op done failed) :
    Settles lo before (outcomeOf op) (settled done failed) failed := by
  intro b host hb
  rw [run_outcomeOf]
  exact (h b host hb).bind fun r hr => hr

theorem settles_holding {ref : Ref} {work : BridgeM α}
    (h : Settles lo before work (fun a => done a + one ref.slot) (failed + one ref.slot)) :
    Settles lo before (holding ref work) done failed := by
  intro b host hb
  rw [run_holding]
  refine (h b host hb).bind fun r hr => ?_
  have hheld : r.2.Balanced lo (settled done failed r.1.1 + tally r.1.2.natives.cached + one ref.slot) := by
    obtain ⟨-, hr⟩ := hr
    rcases r with ⟨⟨_ | _, _⟩, _⟩ <;> rw [settled, add_right_comm] at hr <;> exact hr
  obtain ⟨host', he, hb'⟩ := Host.release_ok hheld
  rw [he]
  exact ⟨hr.1, hb'⟩

/-! ## Modules -/

theorem settles_native (id : String) :
    Settles lo counts (native id) (fun exports => counts + tally exports.toList) counts := by
  intro b host hb
  rw [run_native]
  exact (NativeTable.triple_get hb.1 id host hb.2).bind fun r hr => hr

theorem settles_resolve (id : String) :
    Settles lo counts (resolve id) (fun r => counts + tally r.refs) counts := by
  refine settles_get fun b => ?_
  split
  · exact settles_bind (settles_emit _) (fun _ => settles_pure (by rw [Resolved.refs, tally_nil, add_zero])) b
  · refine settlesOn_bind (settles_native id b) fun exports => ?_
    cases exports with
    | some exports => exact settles_bind (settles_emit _) fun _ => settles_pure rfl
    | none =>
      rw [Option.toList_none, tally_nil, add_zero]
      exact settles_bind (settles_emit _) fun _ => settles_throw

theorem settles_refuseProperty (name : String) (error : Ref) :
    Attempt.Settles lo (counts + one error.slot) (refuseProperty name error : Attempt α) done counts := by
  refine Attempt.settles_holding ?_
  exact Attempt.settles_bind (Attempt.settles_lift (Host.triple_messageOf error)) fun _ => Attempt.settles_throw

theorem settles_readProperty {object : Ref} (ho : Known lo counts object.slot) (name : String) :
    Attempt.Settles lo counts (readProperty object name) (fun ref => counts + one ref.slot) counts := by
  refine Attempt.settles_bind (Attempt.settles_lift (Host.triple_readProperty ho name)) fun result => ?_
  cases result with
  | ok value => exact Attempt.settles_pure rfl
  | error error => exact settles_refuseProperty name error

theorem settles_writeProperty {object value : Ref} (ho : Known lo counts object.slot)
    (hv : Known lo counts value.slot) (name : String) :
    Attempt.Settles lo counts (writeProperty object name value) (fun _ => counts) counts := by
  refine Attempt.settles_bind (Attempt.settles_lift (Host.triple_writeProperty ho hv name)) fun result => ?_
  cases result with
  | ok _ => exact Attempt.settles_pure (add_zero _)
  | error error => exact settles_refuseProperty name error

theorem settles_idOf {module : Ref} (hm : Known lo counts module.slot) :
    Attempt.Settles lo counts (idOf module) (fun _ => counts) counts := by
  refine Attempt.settles_bind (settles_readProperty hm "id") fun id => Attempt.settles_holding ?_
  refine Attempt.settles_bind (Attempt.settles_lift (Host.triple_textOf id)) fun text => ?_
  cases text with
  | some text => exact Attempt.settles_pure rfl
  | none => exact Attempt.settles_throw

theorem settles_compileBuiltin (id : String) (blob : Bytes) (code : Code) :
    Attempt.Settles lo counts (compileBuiltin id blob code) (fun f => counts + one f.function.slot) counts := by
  cases code with
  | snapshot index => exact Factory.settles_ofRecord id blob index
  | source text => exact Factory.settles_compile id text

/-- Compiling a module and running it, whether it compiles or not. -/
theorem settles_compileAndCall (id : String) (blob : Bytes) (code : Code) {args : Factory.Args}
    (ha : ∀ ref ∈ args.toList, Known lo counts ref.slot) :
    Attempt.Settles lo counts (do
      let compiled ← liftM (compileBuiltin id blob code).run
      Factory.call compiled args) (fun ref => counts + one ref.slot) counts :=
  Attempt.settles_bind (Attempt.settles_lift (settles_compileBuiltin id blob code)) fun compiled =>
    Factory.settles_call compiled ha

theorem settles_reportLoad (id : String) (succeeded : Bool) :
    Settles lo counts (reportLoad id succeeded) (fun _ => counts) failed := by
  refine settles_get fun b => ?_
  split
  · exact settles_emit _ b
  · have hpure : Settles lo counts (pure ()) (fun _ => counts) failed := settles_pure rfl
    exact hpure b

/-- Either way one reference is held: to the native counterpart of a module, or to `undefined`. -/
theorem settles_orUndefined (counterpart : Option Ref) {next : Ref → BridgeM α}
    (h : ∀ native, Settles lo (counts + one native.slot) (next native) done counts) :
    Settles lo (counts + tally counterpart.toList) (match counterpart with
      | some native => do next (← pure native)
      | none => do next (← liftM Host.newUndefined)) done counts := by
  cases counterpart with
  | some native =>
    rw [Option.toList_some, tally_cons, tally_nil, zero_add]
    exact h native
  | none =>
    rw [Option.toList_none, tally_nil, add_zero]
    exact settles_bind (settles_lift fun _ => Host.triple_newUndefined) h

theorem settles_loadBuiltin (id : String) (code : Code) {module require : Ref}
    (hm : Known lo counts module.slot) (hr : Known lo counts require.slot) :
    Settles lo counts (loadBuiltin id code module require) (fun ref => counts + one ref.slot) counts := by
  refine settles_bind (settles_native id) fun counterpart => ?_
  refine settles_orUndefined counterpart fun native => settles_holding ?_
  refine settles_bind (settles_attempt fun held => settles_readProperty ((hm.add _).add held) "exports")
    fun exports => settles_holding ?_
  refine settles_get fun b => settlesOn_bind (settles_outcomeOf (settles_attempt fun held =>
    settles_compileAndCall id b.registry.builtins.blob code fun ref href => ?_) b) fun result => ?_
  · -- the module and its `require` come from outside, the other two are held here
    simp only [Factory.Args.toList, List.mem_cons, List.not_mem_nil, or_false] at href
    rcases href with rfl | rfl | rfl | rfl
    · exact known_one.add held
    · exact ((hr.add _).add _).add held
    · exact ((hm.add _).add _).add held
    · exact (known_one.add _).add held
  · refine settles_bind (settles_reportLoad id result.isOk) fun _ => ?_
    cases result with
    | ok value =>
      refine settles_pure ?_
      show counts + one native.slot + one exports.slot + one value.slot = _
      ac_rfl
    | error e => exact settles_throw

/-- Loading a module leaves the caller with the value that it comes to. -/
theorem settles_loadModule {module require : Ref} (hm : Known lo counts module.slot)
    (hr : Known lo counts require.slot) :
    Settles lo counts (loadModule module require) (fun ref => counts + one ref.slot) counts := by
  refine settles_bind (settles_attempt_even fun held => settles_idOf (hm.add held)) fun id => ?_
  refine settles_bind (settles_resolve id) fun resolved => ?_
  cases resolved with
  | builtin code =>
    rw [Resolved.refs, tally_nil, add_zero]
    exact settles_loadBuiltin id code hm hr
  | native exports =>
    rw [Resolved.refs, tally_cons, tally_nil, zero_add]
    -- the exports are held while they are assigned; what stays is `undefined`
    refine settles_holding ?_
    refine settles_bind (settles_attempt_even fun held =>
      settles_writeProperty ((hm.add _).add held) (known_one.add held) "exports") fun _ => ?_
    have hnew : Settles lo (counts + one exports.slot) (liftM Host.newUndefined)
        (fun ref => counts + one exports.slot + one ref.slot) (counts + one exports.slot) :=
      settles_lift fun _ => Host.triple_newUndefined
    simpa only [add_right_comm] using hnew

/-! ## Source of users and debuggers -/

theorem settles_compileSource (name : String) (source : Bytes) :
    Settles lo counts (compileSource name source) (fun f => counts + one f.function.slot) counts := by
  refine settles_get fun b => ?_
  have hcompile : Settles lo counts (attempt (Factory.compile name source))
      (fun f => counts + one f.function.slot) counts :=
    settles_attempt fun _ => Factory.settles_compile name source
  split
  · exact settlesOn_set rfl (hcompile _)
  · exact hcompile b

theorem settles_emitAll : ∀ events : List Event,
    Settles lo counts (events.forM fun event => liftM (Host.emit event)) (fun _ => counts) counts
  | [] => settles_pure rfl
  | event :: rest => settles_bind (settles_emit event) fun _ => settles_emitAll rest

theorem settles_awaitSource : Settles lo counts awaitSource (fun _ => counts) counts := by
  refine settles_get fun b => ?_
  split
  · exact settles_throw b
  · refine settlesOn_set rfl ?_
    refine settlesOn_bind (settles_emitAll _ _) fun _ => ?_
    cases Debugger.Waited.outcome _ with
    | ok source => exact settles_pure rfl
    | error e => exact settles_throw

theorem settles_compileFromDebugger :
    Settles lo counts compileFromDebugger (fun f => counts + one f.function.slot) counts :=
  settles_bind settles_awaitSource fun source =>
    settles_attempt fun _ => Factory.settles_compile source.name source.source

/-! ## Files, libraries and listings -/

theorem settles_runBlobFile (files : Files) (path : String) :
    Attempt.Settles lo counts (runBlobFile files path) (fun ref => counts + one ref.slot) counts := by
  unfold runBlobFile
  split
  · split
    · exact Attempt.settles_bind (Attempt.settles_lift (Host.triple_emit _)) fun _ => Attempt.settles_throw
    · exact Attempt.settles_throw
    · refine Attempt.settles_bind (Attempt.settles_lift (Host.triple_emit _)) fun _ => ?_
      exact Attempt.settles_bind (Attempt.settles_lift (Host.triple_runBlob _)) Factory.settles_orCorrupt
  · exact Attempt.settles_throw

theorem settles_runSnapshot (path : String) :
    Settles lo counts (runSnapshot path) (fun ref => counts + one ref.slot) counts :=
  settles_get fun b => settles_attempt (fun _ => settles_runBlobFile b.files path) b

theorem settles_loadLibrary (location : String) :
    Settles lo counts (loadLibrary location) (fun ref => counts + one ref.slot) counts :=
  settles_get fun b host hb =>
    settles_attempt (fun _ => NativeTable.settles_loadLibrary hb.1 location) b host hb

theorem settles_setEach {target flag : Ref} (ht : Known lo counts target.slot) (hf : Known lo counts flag.slot) :
    ∀ names : List String, Attempt.Settles lo counts (setEach target flag names) (fun _ => counts) counts
  | [] => Attempt.settles_pure rfl
  | name :: names =>
    Attempt.settles_bind (settles_writeProperty ht hf name) fun _ => settles_setEach ht hf names

theorem settles_listInto {target : Ref} (ht : Known lo counts target.slot) (names : List String) :
    Settles lo counts (listInto target names) (fun _ => counts) counts := by
  refine settles_bind (settles_lift fun _ => Host.triple_newBool true) fun flag => settles_holding ?_
  exact settles_attempt_even fun held => settles_setEach ((ht.add _).add held) (known_one.add held) names

end Bridge

end ScriptHost
