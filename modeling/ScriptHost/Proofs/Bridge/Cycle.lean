/-
One load of a module, decided by what there is: which outcome it has, and what the engine is asked to do for it.
A module object without an id is refused; an id that neither table knows is not found; a native module that has
to be built and cannot be is reported, also where a builtin module of the same id would have come first. None of
these asks the engine for a factory, nor does a load that is done with a native module. A builtin module is
compiled once, and called once where that succeeds.
-/
import ScriptHost.Proofs.Bridge.Course
import ScriptHost.Proofs.Registry.Builtin

namespace ScriptHost

/-! ## By outcome -/

/-- Errors of loads that never get as far as asking for a factory. -/
@[grind]
inductive HostError.Early : HostError → Prop where
  | invalidModule (text : String) : Early (.invalidModule text)
  | moduleNotFound (id : String) : Early (.moduleNotFound id)
  | nativeLoad (id reason : String) : Early (.nativeLoad id reason)

/-- Errors of the code of a module. -/
@[grind]
inductive HostError.Late : HostError → Prop where
  | compile (id message : String) : Late (.compile id message)
  | corruptSnapshot (message : String) : Late (.corruptSnapshot message)
  | execution (id message : String) : Late (.execution id message)

namespace Bridge

/-- One load by its outcome: which one there is, by the state that the load began in, and what the engine was
asked to do for it. -/
structure Decided (strategy : Strategy) (b : Bridge) (h : Host) (module : Ref) (r : Except HostError Ref)
    (w : Work) : Prop where
  requests_le : w.requests ≤ 1
  calls_le : w.calls ≤ 1
  /-- The module object has no id, as when it is `undefined` or its id is no string. -/
  invalid_iff : (∃ text, r = .error (.invalidModule text)) ↔ idAt? h.engine module = none
  /-- Neither table has the id. -/
  notFound_iff : ∀ id, idAt? h.engine module = some id → ∀ name, r = .error (.moduleNotFound name) ↔
    name = id ∧ b.registry.builtins.get? id = none ∧ b.natives.entries.get? id = none
  /-- A native module of this id has to be built and cannot be, whether a builtin one has the id or not. -/
  nativeLoad_iff : ∀ id, idAt? h.engine module = some id → ∀ name,
    (∃ reason, r = .error (.nativeLoad name reason)) ↔ name = id ∧ b.natives.Fails id h
  errors : ∀ e, r = .error e → e.Early ∨ e.Late
  early : ∀ e, r = .error e → e.Early → w = 0
  native : ∀ id value, idAt? h.engine module = some id → b.registry.builtins.get? id = none → r = .ok value → w = 0
  compile : ∀ name message, r = .error (.compile name message) → strategy = .source ∧ w.calls = 0
  corrupt : ∀ message, r = .error (.corruptSnapshot message) → strategy = .snapshot ∧ w.calls = 0
  execution : ∀ name message, r = .error (.execution name message) → w.requests = 1 ∧ w.calls = 1
  builtin : ∀ id value, idAt? h.engine module = some id → b.registry.builtins.get? id ≠ none → r = .ok value →
    w.requests = 1 ∧ w.calls = 1
  /-- Source is remembered with each request, records of a blob are not. -/
  recorded : ∀ id, idAt? h.engine module = some id → w.recorded = match strategy with
    | .source => List.replicate w.requests ⟨id, Factory.signature⟩
    | .snapshot => []

theorem exists_of_ofRows {rows : List BuiltinRow} {blob : Bytes} {strategy : Strategy} {id : String} {code : Code}
    (h : (BuiltinTable.ofRows rows blob strategy).get? id = some code) :
    ∃ row : BuiltinRow, code = row.code strategy := by
  rw [BuiltinTable.get?_ofRows] at h
  obtain ⟨row, -, rfl⟩ := Option.map_eq_some_iff.1 h
  exact ⟨row, rfl⟩

theorem Course.decided {rows : List BuiltinRow} {blob : Bytes} {strategy : Strategy} {b : Bridge} {h : Host}
    {module : Ref} {r : Except HostError Ref} {w : Work} (ht : b.registry.builtins = .ofRows rows blob strategy)
    (hc : Course b h module r w) : Decided strategy b h module r w := by
  cases hc with
  | nameless hat => constructor <;> grind
  | unknown hat hcode hentry =>
    have hfails : ¬ b.natives.Fails _ h := NativeTable.not_fails_of_unknown hentry
    constructor <;> grind
  | @failed id reason hat hfails =>
    have ⟨entry, _, _, hentry, _⟩ := hfails
    constructor
    case nativeLoad_iff =>
      intro other hother name
      obtain rfl : id = other := Option.some.inj (hat.symm.trans hother)
      refine ⟨fun ⟨_, he⟩ => ?_, fun ⟨hname, _⟩ => ⟨reason, by rw [hname]⟩⟩
      cases he
      exact ⟨rfl, hfails⟩
    all_goals grind
  | assigned hat hcode hentry hfails => constructor <;> grind
  | ran hat hcode hfails hran =>
    obtain ⟨row, rfl⟩ := exists_of_ofRows (ht ▸ hcode)
    -- the strategy decides in which form the code is, and so how it can be refused
    cases strategy with
    | source =>
      cases hran with
      | refused => constructor <;> grind
      | threw => constructor <;> grind [BuiltinRow.code, Code.recorded]
      | completed => constructor <;> grind [BuiltinRow.code, Code.recorded]
    | snapshot =>
      cases hran with
      | corrupt hw => constructor <;> grind
      | threw => constructor <;> grind [BuiltinRow.code, Code.recorded]
      | completed => constructor <;> grind [BuiltinRow.code, Code.recorded]

/-- A load that ends has the outcome that what there is decides, and the engine was asked for no more. -/
theorem loadModule_decided {rows : List BuiltinRow} {blob : Bytes} {strategy : Strategy} {b b' : Bridge} {h h' : Host}
    {module require : Ref} {outcome : Except HostError Ref} (hb : b.natives.Scripted)
    (ht : b.registry.builtins = .ofRows rows blob strategy) (hg : h.Unguarded)
    (hr : (loadModule module require).run b h = .ok ((outcome, b'), h')) :
    ∃ w, h.Does w h' ∧ Decided strategy b h module outcome w := by
  obtain ⟨w, hw, hc⟩ := loadModule_course hb hg hr
  exact ⟨w, hw, hc.decided ht⟩

/-- Two builtin modules with native counterparts: the one throws, and the counterpart of the other cannot be
built. -/
def counterparts : Bridge :=
  { nativesOnly with registry := { nativesOnly.registry with
      builtins := .ofRows [⟨"a", "throw native.x".toUTF8.toList, 0⟩, ⟨"b", [], 1⟩] [] .source } }

theorem unguarded_moduleHost (id : String) : (moduleHost id).Unguarded :=
  ⟨List.not_mem_nil, List.not_mem_nil, List.not_mem_nil⟩

theorem counterparts_scripted : counterparts.natives.Scripted := nativesOnly_scripted

theorem counterparts_throws : ((loadModule ⟨2, 1⟩ ⟨2, 1⟩).run counterparts (moduleHost "a")).map
    (fun r => match r.1.1 with
      | .error (.execution id message) => some (id, message)
      | _ => none) = .ok (some ("a", "undefined")) := by
  decide +kernel

theorem counterparts_fails : ((loadModule ⟨2, 1⟩ ⟨2, 1⟩).run counterparts (moduleHost "b")).map
    (fun r => match r.1.1 with
      | .error (.nativeLoad id reason) => some (id, reason)
      | _ => none) = .ok (some ("b", "Error: no")) := by
  decide +kernel

/-- The first module is compiled and called once, and remembered; for the second one nothing is asked. -/
theorem loadModule_decided_counterparts :
    (∃ b' h' w, (loadModule ⟨2, 1⟩ ⟨2, 1⟩).run counterparts (moduleHost "a") =
        .ok ((.error (.execution "a" "undefined"), b'), h') ∧ (moduleHost "a").Does w h' ∧
      w.requests = 1 ∧ w.calls = 1 ∧ w.recorded = [⟨"a", Factory.signature⟩]) ∧
    ∃ b' h', (loadModule ⟨2, 1⟩ ⟨2, 1⟩).run counterparts (moduleHost "b") =
        .ok ((.error (.nativeLoad "b" "Error: no"), b'), h') ∧ (moduleHost "b").Does 0 h' ∧
      counterparts.natives.Fails "b" (moduleHost "b") := by
  constructor
  · obtain ⟨⟨⟨outcome, b'⟩, h'⟩, hrun, hv⟩ := exists_of_map_ok counterparts_throws
    dsimp only at hv
    split at hv
    · cases hv
      obtain ⟨w, hw, hdecided⟩ := loadModule_decided counterparts_scripted rfl (unguarded_moduleHost "a") hrun
      obtain ⟨hrequests, hcalls⟩ := hdecided.execution _ _ rfl
      have hrecorded := hdecided.recorded "a" (by decide)
      rw [hrequests] at hrecorded
      exact ⟨b', h', w, hrun, hw, hrequests, hcalls, hrecorded⟩
    · cases hv
  · obtain ⟨⟨⟨outcome, b'⟩, h'⟩, hrun, hv⟩ := exists_of_map_ok counterparts_fails
    dsimp only at hv
    split at hv
    · cases hv
      obtain ⟨w, hw, hdecided⟩ := loadModule_decided counterparts_scripted rfl (unguarded_moduleHost "b") hrun
      obtain rfl := hdecided.early _ rfl (.nativeLoad _ _)
      exact ⟨b', h', hrun, hw, ((hdecided.nativeLoad_iff "b" (by decide) "b").1 ⟨_, rfl⟩).2⟩
    · cases hv

end Bridge

end ScriptHost
