/-
Loads that end. Where the module object, the `require` and the native module of its id reach no function
of a script, the one factory that a load calls is given none, and the load ends however few calls may nest;
a native module that is not built yet is built first, by a builder that has to keep to this. Builders that
only run programs do, as a program reaches nothing.
-/
import ScriptHost.Proofs.Bridge.Wholeness
import ScriptHost.Proofs.Host.Tame

namespace ScriptHost

open Engine (refOf)

variable {α β : Type} {roots : List Slot}

/-! ## Native modules -/

/-- The builder ends where some values are tame, and they are after it, with what it has built. -/
def ExportsBuilder.Harmless (init : ExportsBuilder) : Prop :=
  ∀ roots run, Leads (Host.Tame roots) (init run) fun result => Host.Tame ((refOf result).slot :: roots)

theorem ExportsBuilder.harmless_ofPrograms (programs : List Bytes) : (ExportsBuilder.ofPrograms programs).Harmless := by
  intro roots run
  unfold ExportsBuilder.ofPrograms
  split
  · exact leads_map Host.leads_newObject
  · exact Host.leads_runBlob _

namespace NativeTable

variable {t : NativeTable} {id : String}

/-- What the table keeps for the id is among the values, and otherwise its builder is harmless. -/
structure Offers (t : NativeTable) (id : String) (roots : List Slot) : Prop where
  kept : ∀ exports ∈ t.kept id, exports.slot ∈ roots
  builder : ∀ entry, t.entries.get? id = some entry → entry.exports = none → entry.init.Harmless

/-- Asking for the module ends with one more reference to what the table keeps. -/
theorem leads_get (ho : t.Offers id roots) : Leads (Host.Tame roots) (t.get id) fun r =>
    Host.Tame (gained (fun exports => exports.toList.map (·.slot)) r.1 ++ roots) := by
  unfold get
  split
  · exact leads_pure fun _ ht => ht
  · rename_i entry hentry
    split
    · rename_i exports hexports
      have hkept : t.kept id = some exports := by rw [kept, hentry, Option.bind_some, hexports]
      refine leads_bind (Host.leads_acquire exports) fun handle => leads_pure fun _ ⟨hslot, ht⟩ => ht.sub ?_
      have hmem : handle.slot ∈ roots := by
        rw [hslot]
        exact ho.kept exports hkept
      exact List.cons_subset.2 ⟨hmem, List.Subset.refl _⟩
    · rename_i hnone
      -- the builder may run anything, but it is harmless by assumption, whatever roots there are
      refine leads_bind (ho.builder entry hentry hnone roots entry.runs) fun result => ?_
      cases result with
      | ok exports =>
        refine leads_bind (Host.leads_emit _) fun _ => ?_
        refine leads_bind (Host.leads_acquire exports) fun handle => leads_pure fun _ ⟨hslot, ht⟩ => ht.sub ?_
        have hmem : handle.slot ∈ exports.slot :: roots := by
          rw [hslot]
          exact List.mem_cons_self
        exact List.cons_subset.2 ⟨hmem, List.subset_cons_self _ _⟩
      | error error =>
        refine leads_bind (Host.leads_messageOf error) fun reason => ?_
        refine leads_bind (Host.leads_emit _) fun _ => ?_
        exact leads_bind (Host.leads_release error) fun _ => leads_pure fun _ ht => ht.sub (List.subset_cons_self _ _)

end NativeTable

namespace Bridge

variable {gain : α → List Slot} {gain' : β → List Slot} {b : Bridge}

/-! ## Composing operations -/

/-- Where the values are tame, the operation ends on this bridge, and they are tame after it with those that are
gained. -/
def TamesOn (b : Bridge) (roots : List Slot) (op : BridgeM α) (gain : α → List Slot) : Prop :=
  Leads (Host.Tame roots) (op.run b) fun r => Host.Tame (gained gain r.1 ++ roots)

/-- The same on every bridge. -/
def Tames (roots : List Slot) (op : BridgeM α) (gain : α → List Slot) : Prop := ∀ b, TamesOn b roots op gain

theorem tames_pure {a : α} (h : gain a ⊆ roots) : Tames roots (pure a) gain :=
  fun _ _ ht => ht.again h

theorem tames_throw {e : HostError} : Tames roots (throw e : BridgeM α) gain := fun _ _ ht => ht

/-- What comes next may rely on the bridge that the first operation leaves. -/
theorem tamesOn_bind_of_run {op : BridgeM α} {next : α → BridgeM β} (h : TamesOn b roots op gain)
    (hn : ∀ a b' host host', op.run b host = .ok ((.ok a, b'), host') → TamesOn b' (gain a ++ roots) (next a) gain') :
    TamesOn b roots (op >>= next) gain' := by
  intro host ht
  rw [run_bind]
  refine (h host ht).bind fun r hrun hr => ?_
  rcases r with ⟨⟨e | a, b'⟩, host'⟩
  · exact hr
  · exact (hn a b' host host' hrun host' hr).mono fun r' ht' => ht'.forget

theorem tamesOn_bind {op : BridgeM α} {next : α → BridgeM β} (h : TamesOn b roots op gain)
    (hn : ∀ a, Tames (gain a ++ roots) (next a) gain') : TamesOn b roots (op >>= next) gain' :=
  tamesOn_bind_of_run h fun a b' _ _ _ => hn a b'

theorem tames_bind {op : BridgeM α} {next : α → BridgeM β} (h : Tames roots op gain)
    (hn : ∀ a, Tames (gain a ++ roots) (next a) gain') : Tames roots (op >>= next) gain' :=
  fun b => tamesOn_bind (h b) hn

theorem tames_get {next : Bridge → BridgeM α} (h : ∀ b, Tames roots (next b) gain) :
    Tames roots (get >>= next) gain :=
  fun b host ht => h b b host ht

theorem tames_lift {op : HostM α} (h : Leads (Host.Tame roots) op fun a => Host.Tame (gain a ++ roots)) :
    Tames roots (liftM op) gain := by
  intro b host ht
  rw [run_lift]
  exact (h host ht).bind fun _ _ hr => hr

theorem tames_attempt {op : Attempt α} (h : Attempt.Tames roots op gain) : Tames roots (attempt op) gain := by
  intro b host ht
  rw [run_attempt]
  exact (h host ht).bind fun _ _ hr => hr

theorem tames_emit_bind (event : Event) {next : BridgeM β} (hn : Tames roots next gain') :
    Tames roots (liftM (Host.emit event) >>= fun _ => next) gain' := by
  have hemit : Tames roots (liftM (Host.emit event)) fun _ => [] := tames_lift (Host.leads_emit event)
  exact tames_bind hemit fun _ => hn

theorem tames_outcomeOf {op : BridgeM α} (h : Tames roots op gain) : Tames roots (outcomeOf op) (gained gain) := by
  intro b host ht
  rw [run_outcomeOf]
  exact (h b host ht).bind fun _ _ hr => hr

theorem tames_holding {ref : Ref} {work : BridgeM α} (h : Tames roots work gain) :
    Tames roots (holding ref work) gain := by
  intro b host ht
  rw [run_holding]
  refine (h b host ht).bind fun r _ hr => ?_
  exact (Host.leads_release ref r.2 hr).bind fun _ _ hs => hs

/-! ## Module objects and factories -/

theorem tames_refuseProperty (name : String) (error : Ref) :
    Attempt.Tames roots (refuseProperty name error : Attempt α) gain :=
  Attempt.tames_holding (Attempt.tames_lift_bind (Host.leads_messageOf error) fun _ => Attempt.tames_throw)

theorem tames_readProperty {object : Ref} (ho : object.slot ∈ roots) (name : String) :
    Attempt.Tames roots (readProperty object name) fun value => [value.slot] := by
  refine Attempt.tames_bind (Attempt.tames_result (Host.leads_readProperty ho name)) fun result => ?_
  cases result with
  | ok value => exact Attempt.tames_pure (List.subset_append_left ..)
  | error error => exact tames_refuseProperty name error

theorem tames_writeProperty {object value : Ref} (ho : object.slot ∈ roots) (hv : value.slot ∈ roots) (name : String) :
    Attempt.Tames roots (writeProperty object name value) fun _ => [] := by
  refine Attempt.tames_lift_bind (Host.leads_writeProperty ho hv name) fun result => ?_
  cases result with
  | ok _ => exact Attempt.tames_pure (List.nil_subset _)
  | error error => exact tames_refuseProperty name error

theorem tames_idOf {module : Ref} (hm : module.slot ∈ roots) : Attempt.Tames roots (idOf module) fun _ => [] := by
  refine Attempt.tames_bind (tames_readProperty hm "id") fun id => Attempt.tames_holding ?_
  refine Attempt.tames_lift_bind (Host.leads_textOf id) fun text => ?_
  cases text with
  | some text => exact Attempt.tames_pure (List.nil_subset _)
  | none => exact Attempt.tames_throw

theorem tames_compileBuiltin (id : String) (blob : Bytes) (code : Code) :
    Attempt.Tames roots (compileBuiltin id blob code) fun _ => [] := by
  cases code with
  | snapshot index => exact Factory.tames_ofRecord id blob index
  | source text => exact Factory.tames_compile id text

theorem tames_compileAndCall (id : String) (blob : Bytes) (code : Code) {args : Factory.Args}
    (ha : args.toList.map (·.slot) ⊆ roots) : Attempt.Tames roots (do
      let compiled ← liftM (compileBuiltin id blob code).run
      Factory.call compiled args) fun ref => [ref.slot] := by
  refine Attempt.tames_lift_bind ?_ fun compiled => Factory.tames_call compiled ha
  refine leads_mono (tames_compileBuiltin id blob code) fun r _ ht => ht.sub ?_
  exact List.subset_append_right ..

/-! ## Loading modules -/

theorem tamesOn_native {id : String} (ho : b.natives.Offers id roots) :
    TamesOn b roots (native id) fun exports => exports.toList.map (·.slot) := by
  intro host ht
  rw [run_native]
  exact (NativeTable.leads_get ho host ht).bind fun _ _ hr => hr

theorem tamesOn_resolve {id : String} (ho : b.natives.Offers id roots) :
    TamesOn b roots (resolve id) fun resolved => resolved.refs.map (·.slot) := by
  intro host ht
  rw [resolve, run_get]
  split
  · exact tames_emit_bind _ (tames_pure (List.nil_subset _)) b host ht
  · refine tamesOn_bind (tamesOn_native ho) (fun exports => ?_) host ht
    cases exports with
    | some exports => exact tames_emit_bind _ (tames_pure (List.subset_append_left ..))
    | none => exact tames_emit_bind _ tames_throw

/-- No native module is built where an id stands for code. -/
theorem eq_of_resolve_builtin {id : String} {code : Code} {b' : Bridge} {h h' : Host}
    (hr : (resolve id).run b h = .ok ((.ok (.builtin code), b'), h')) : b' = b := by
  cases hcode : b.registry.builtins.get? id with
  | some other =>
    rw [resolve, run_get, hcode] at hr
    obtain ⟨_, h₁, -, hr⟩ := of_run_call hr
    cases hr
    rfl
  | none =>
    obtain ⟨handle, _, he, -⟩ := resolve_ok hcode hr
    cases he

theorem tames_reportLoad (id : String) (succeeded : Bool) : Tames roots (reportLoad id succeeded) fun _ => [] := by
  refine tames_get fun b => ?_
  split
  · exact tames_lift (Host.leads_emit _)
  · exact tames_pure (List.nil_subset _)

theorem tames_orUndefined (counterpart : Option Ref) {next : Ref → BridgeM α}
    (h : ∀ native, Tames (native.slot :: roots) (next native) gain) :
    Tames (counterpart.toList.map (·.slot) ++ roots) (match counterpart with
      | some native => do next (← pure native)
      | none => do next (← liftM Host.newUndefined)) gain := by
  cases counterpart with
  | some native => exact h native
  | none =>
    have hnew : Tames roots (liftM Host.newUndefined) fun ref : Ref => [ref.slot] := tames_lift Host.leads_newUndefined
    exact tames_bind hnew h

theorem tamesOn_loadBuiltin {id : String} (code : Code) {module require : Ref} (ho : b.natives.Offers id roots)
    (hm : module.slot ∈ roots) (hr : require.slot ∈ roots) :
    TamesOn b roots (loadBuiltin id code module require) fun ref => [ref.slot] := by
  refine tamesOn_bind (tamesOn_native ho) fun counterpart => ?_
  refine tames_orUndefined counterpart fun native => tames_holding ?_
  refine tames_bind (tames_attempt (tames_readProperty (List.mem_cons_of_mem _ hm) "exports")) fun exports => ?_
  refine tames_holding (tames_get fun b => ?_)
  refine tames_bind (tames_outcomeOf (tames_attempt
    (tames_compileAndCall id b.registry.builtins.blob code ?_))) fun result => ?_
  · simp [Factory.Args.toList, hm, hr]
  · refine tames_bind (tames_reportLoad id result.isOk) fun _ => ?_
    cases result with
    | ok value => exact tames_pure (List.subset_append_left ..)
    | error e => exact tames_throw

/-- A load ends where the values of the module object and of the id that is read from it are tame. -/
theorem finishes_loadModule {module require : Ref} {h : Host} (ht : h.Tame roots) (hm : module.slot ∈ roots)
    (hr : require.slot ∈ roots) (ho : ∀ id, idAt? h.engine module = some id → b.natives.Offers id roots) :
    Finishes (fun r => r.2.Tame (gained (fun ref : Ref => [ref.slot]) r.1.1 ++ roots))
      ((loadModule module require).run b h) := by
  rw [loadModule, run_attempt_bind]
  refine (tames_idOf hm h ht).bind fun r hrun ht₁ => ?_
  rcases r with ⟨e | id, h₁⟩
  · exact ht₁
  · have hoffers := ho id (idOf_ok hrun)
    refine tamesOn_bind_of_run (tamesOn_resolve hoffers) (fun resolved b' _ _ hresolve => ?_) h₁ ht₁
    cases resolved with
    | native exports =>
      have hwrite : Attempt.Tames (exports.slot :: roots) (writeProperty module "exports" exports) fun _ => [] :=
        tames_writeProperty (List.mem_cons_of_mem _ hm) List.mem_cons_self "exports"
      exact tames_holding (tames_bind (tames_attempt hwrite) fun _ => tames_lift Host.leads_newUndefined) b'
    | builtin code =>
      -- its counterpart is looked up only now, in the table as it was
      obtain rfl := eq_of_resolve_builtin hresolve
      exact tamesOn_loadBuiltin code hoffers hm hr

end Bridge

/-! ## Runs without scripts to call -/

/-- What the table keeps for the id is tame, and otherwise its builder is harmless. -/
structure NativeTable.Tame (t : NativeTable) (id : String) (h : Host) : Prop where
  kept : ∀ exports ∈ t.kept id, h.Tame [exports.slot]
  builder : ∀ entry, t.entries.get? id = some entry → entry.exports = none → entry.init.Harmless

namespace Bridge

theorem loadModule_finishes {b : Bridge} {h : Host} {module require : Ref} (ht : h.Tame [module.slot, require.slot])
    (hn : ∀ id, idAt? h.engine module = some id → b.natives.Tame id h) :
    Finishes (fun _ => True) ((loadModule module require).run b h) := by
  cases hid : idAt? h.engine module with
  | none =>
    refine (finishes_loadModule ht (by simp) (by simp) fun id hsome => ?_).mono fun _ _ => trivial
    rw [hid] at hsome
    cases hsome
  | some id =>
    have hnative := hn id hid
    have hkept : h.Tame ([module.slot, require.slot] ++ (b.natives.kept id).toList.map (·.slot)) := by
      cases hk : b.natives.kept id with
      | none => exact ht
      | some exports => exact ⟨ht.depth, ht.heap.append (hnative.kept exports hk).heap⟩
    refine (finishes_loadModule hkept (by simp) (by simp) fun other hsome => ?_).mono fun _ _ => trivial
    rw [hid] at hsome
    cases hsome
    refine ⟨fun exports he => ?_, hnative.builder⟩
    rw [he]
    simp

/-- A call whose arguments reach no function of a script runs the body of what is called, if it has one, and
no other, and ends; the program of a blob calls nothing, and ends. So a load ends where the module object, the
`require` and the native module of its id reach no function of a script. -/
theorem scriptless_runs_end :
    (∀ (function : Ref) (args : List Ref) (e : Engine), 0 < e.depth →
      e.heap.ReachesOnly .scriptless (args.map (·.slot)) →
      Engine.applyFunction function args e = Engine.runOut
        (Run.callBy Run.callNative function.slot (args.map (·.slot))) { e with calls := e.calls + 1 } ∧
      ∃ result e', Engine.applyFunction function args e = .ok (result, e')) ∧
    (∀ (blob : Bytes) (e : Engine),
      Engine.runBlob blob e = Engine.runOut (Engine.blobProgramBy Run.refuse blob) e ∧
      ∃ result e', Engine.runBlob blob e = .ok (result, e')) ∧
    ∀ (b : Bridge) (h : Host) (module require : Ref), h.Tame [module.slot, require.slot] →
      (∀ id, idAt? h.engine module = some id → b.natives.Tame id h) →
      (loadModule module require).run b h ≠ .error .tooDeep ∧
      ∀ lo counts, b.Balanced lo counts h → Known lo counts module.slot → Known lo counts require.slot →
        ∃ r, (loadModule module require).run b h = .ok r := by
  refine ⟨fun function args e hd hs => ?_, fun blob e => ?_, fun b h module require ht hn => ?_⟩
  · exact ⟨Engine.applyFunction_once hd hs, Engine.exists_applyFunction function hd hs⟩
  · exact ⟨Engine.runBlob_callless blob e, Engine.exists_runBlob blob e⟩
  · have hends := loadModule_finishes ht hn
    refine ⟨fun hdeep => ?_, fun lo counts hb hm hr => hends.exists_ok (settles_loadModule hm hr b h hb)⟩
    rw [hdeep] at hends
    exact hends

/-- A function of the host that knows no modules, a function of a script that calls what its second argument
holds, that is the argument itself, and an object that holds itself and the first function. -/
def selfCaller : Engine where
  heap := ⟨#[⟨.moduleLookup .empty, 1⟩, ⟨.function ⟨["require", "o"], [.expr (.call ["o", "self"] [.path ["o"]])]⟩, 1⟩,
    ⟨.object (.ofList [("require", 0), ("self", 2)]), 1⟩]⟩
  parses := #[]
  calls := 0
  releases := 0
  issued := 3
  depth := 1

theorem selfCaller_reachesOnly : selfCaller.heap.ReachesOnly .scriptless [0, 2] := by
  refine Heap.reachesOnly_of_closed (S := fun slot => slot = 0 ∨ slot = 2) (by decide) ?_ ?_
  · rintro slot name next (rfl | rfl) hn
    · cases hn
    · have hrow : ∀ row ∈ (selfCaller.heap.properties 2).rows, row.2 = 0 ∨ row.2 = 2 := by decide
      exact hrow _ ((Table.get?_eq_some_iff ..).1 hn)
  · rintro slot (rfl | rfl) <;> rfl

/-- A module that calls its `require` and has a native counterpart that is not built yet. -/
def requiringBridge : Bridge where
  registry := ⟨.ofRows [⟨"a", "exports.n = native\nreturn require('b')".toUTF8.toList, 0⟩] [] .source,
    ⟨.ofList [("a", ⟨.ofPrograms ["\x7b\x7d".toUTF8.toList], 0, none⟩)], none, .empty⟩⟩
  config := ⟨none, true⟩
  gate := none
  files := .ofEntries .empty

/-- The object of the module, and a `require`. No two bodies may run inside each other. -/
def requiringHost : Host where
  engine := {
    heap := ⟨#[⟨.text "a", 0⟩, ⟨.emptyObject, 0⟩, ⟨.object (.ofList [("exports", 1), ("id", 0)]), 1⟩,
      ⟨.moduleLookup .empty, 1⟩]⟩
    parses := #[]
    calls := 0
    releases := 0
    issued := 2
    depth := 1 }
  guards := ⟨[], []⟩
  transcript := #[]
  log := #[]

theorem requiringHost_closed : requiringHost.engine.heap.Closed := Heap.closed_of_rows (by decide)

theorem requiringHost_tame : requiringHost.Tame [2, 3] := by
  refine ⟨Nat.one_pos, .of_closed requiringHost_closed (by decide) ?_⟩
  refine Heap.reachesOnly_of_closed (S := fun slot => slot < 4) (by decide) ?_ (by decide)
  exact fun slot name next _ hn => requiringHost_closed slot name next hn

theorem requiringBridge_init {id : String} {entry : NativeModule}
    (h : requiringBridge.natives.entries.get? id = some entry) :
    entry = ⟨.ofPrograms ["\x7b\x7d".toUTF8.toList], 0, none⟩ := by
  have hrow := Table.mem_of_mem_ofList ((Table.get?_eq_some_iff ..).1 h)
  exact (Prod.mk.inj (List.mem_singleton.1 hrow)).2

/-- With one body at a time the function ends that calls its argument, and so does the load. -/
theorem scriptless_runs_end_oneBody :
    (∃ result e', Engine.applyFunction ⟨1, 1⟩ [⟨0, 2⟩, ⟨2, 3⟩] selfCaller = .ok (result, e')) ∧
    requiringHost.Tame [2, 3] ∧
    ∃ r, (loadModule ⟨2, 1⟩ ⟨3, 2⟩).run requiringBridge requiringHost = .ok r := by
  have hcall := scriptless_runs_end.1 ⟨1, 1⟩ [⟨0, 2⟩, ⟨2, 3⟩] selfCaller Nat.one_pos selfCaller_reachesOnly
  refine ⟨hcall.2, requiringHost_tame, ?_⟩
  have hbuilt : ∀ {id entry}, requiringBridge.natives.entries.get? id = some entry → entry.exports = none := by
    intro id entry hentry
    rw [requiringBridge_init hentry]
  have hnative : ∀ id, requiringBridge.natives.Tame id requiringHost := by
    refine fun id => ⟨fun exports hkept => ?_, fun entry hentry _ => ?_⟩
    · obtain ⟨entry, hentry, hexports⟩ := Option.bind_eq_some_iff.1 hkept
      rw [hbuilt hentry] at hexports
      cases hexports
    · rw [requiringBridge_init hentry]
      exact ExportsBuilder.harmless_ofPrograms ["\x7b\x7d".toUTF8.toList]
  have hbalanced : requiringBridge.Balanced 4 requiringHost.engine.heap.refs requiringHost := by
    refine ⟨⟨fun row hrow => ?_, fun load hload => (by cases hload)⟩, requiringHost_closed, le_refl _, fun slot => rfl⟩
    rw [List.mem_singleton.1 (Table.mem_of_mem_ofList hrow)]
    exact ExportsBuilder.handsOver_ofPrograms 4 ["\x7b\x7d".toUTF8.toList]
  exact (scriptless_runs_end.2.2 requiringBridge requiringHost ⟨2, 1⟩ ⟨3, 2⟩ requiringHost_tame
    fun id _ => hnative id).2 4 _ hbalanced (.inl (by decide)) (.inl (by decide))

end Bridge

end ScriptHost
