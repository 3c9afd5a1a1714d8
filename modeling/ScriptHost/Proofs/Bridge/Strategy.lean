/-
A host that compiles its builtin modules and one that loads them from a blob. Where the rows are numbered
by their positions and the blob is made of their sources, the same loads come to the same on both: the
heaps stay equal cell by cell, the counters too, and so do the outcomes, but for the error of a module
that does not compile, which is held against the blob. Only the first host compiles factories.

The two bridges are one bridge with two strategies. They go through a load in step, and the one place
where they part is the factory, which is compiled here and loaded there.
-/
import ScriptHost.Proofs.Bridge.Outcome
import ScriptHost.Proofs.Host.Lockstep
import ScriptHost.Proofs.Registry.Builtin
import ScriptHost.Proofs.Registry.Native

namespace ScriptHost

variable {α β γ δ : Type} {compiles : ParseRequest → Prop} {a b : Array ParseRequest}

/-! ## Native modules -/

/-- The builder does the same on hosts that differ in what they compiled before and what they report. It
compiles at most the given functions itself. -/
def ExportsBuilder.Determined (compiles : ParseRequest → Prop) (init : ExportsBuilder) : Prop :=
  ∀ a b run, Lockstep (Host.Alike compiles a b) Eq (init run) (init run)

theorem ExportsBuilder.determined_ofPrograms (compiles : ParseRequest → Prop) (programs : List Bytes) :
    (ExportsBuilder.ofPrograms programs).Determined compiles := by
  intro a b run
  unfold ExportsBuilder.ofPrograms
  split
  · exact lockstep_map fun h k hk =>
      (Host.lockstep_newObject h k hk).mono fun _ _ hr => ⟨congrArg _ hr.1, hr.2⟩
  · exact Host.lockstep_runBlob _

def NativeTable.Determined (compiles : ParseRequest → Prop) (t : NativeTable) : Prop :=
  ∀ row ∈ t.entries.rows, row.2.init.Determined compiles

theorem NativeTable.lockstep_get {t : NativeTable} (ht : t.Determined compiles) (id : String) :
    Lockstep (Host.Alike compiles a b) (fun r u => Outcomes Eq r.1 u.1 ∧ u.2 = r.2 ∧ r.2.Determined compiles)
      (t.get id) (t.get id) := by
  unfold NativeTable.get
  split
  · exact lockstep_pure ⟨rfl, rfl, ht⟩
  · rename_i entry hentry
    split
    · exact lockstep_bind_same (Host.lockstep_acquire _) fun handle => lockstep_pure ⟨rfl, rfl, ht⟩
    · have hinit := ht (id, entry) ((Table.get?_eq_some_iff ..).1 hentry)
      refine lockstep_bind_same (hinit a b entry.runs) fun result => ?_
      cases result with
      | ok exports =>
        refine lockstep_bind_same (Host.lockstep_emit _ _) fun _ => ?_
        refine lockstep_bind_same (Host.lockstep_acquire exports) fun handle => ?_
        exact lockstep_pure ⟨rfl, rfl, builders_afterRun ht hentry _⟩
      | error error =>
        refine lockstep_bind_same (Host.lockstep_messageOf error) fun reason => ?_
        refine lockstep_bind_same (Host.lockstep_emit _ _) fun _ => ?_
        refine lockstep_bind_same (Host.lockstep_release error) fun _ => ?_
        exact lockstep_pure ⟨rfl, rfl, builders_afterRun ht hentry _⟩

namespace Bridge

/-! ## Bridges in step -/

/-- The bridge with the builtin modules of some rows, used as sources or as records. -/
def built (t : Bridge) (rows : List BuiltinRow) (strategy : Strategy) : Bridge :=
  { t with registry := { t.registry with builtins := .ofRows rows (blobOf rows) strategy } }

/-- Both bridges are one, but for the strategy. -/
def Twins (rows : List BuiltinRow) (compiles : ParseRequest → Prop) (left right : Bridge) : Prop :=
  ∃ t : Bridge, t.registry.natives.Determined compiles ∧ left = t.built rows .source ∧
    right = t.built rows .snapshot

/-- What belongs together after an operation on both bridges. -/
def Ends (rows : List BuiltinRow) (compiles : ParseRequest → Prop) (a b : Array ParseRequest) (V : α → β → Prop)
    (r : (Except HostError α × Bridge) × Host) (u : (Except HostError β × Bridge) × Host) : Prop :=
  Outcomes V r.1.1 u.1.1 ∧ Twins rows compiles r.1.2 u.1.2 ∧ Host.Alike compiles a b r.2 u.2

/-- On bridges with the two strategies the operations come to outcomes that belong together. -/
def InStep (rows : List BuiltinRow) (compiles : ParseRequest → Prop) (a b : Array ParseRequest)
    (V : α → β → Prop) (x : BridgeM α) (y : BridgeM β) : Prop :=
  ∀ left right h k, Twins rows compiles left right → Host.Alike compiles a b h k →
    Both (Ends rows compiles a b V) (x.run left h) (y.run right k)

variable {rows : List BuiltinRow} {V : α → β → Prop} {W : γ → δ → Prop}

theorem inStep_throw {e f : HostError} (h : f = e.ofBlob) :
    InStep rows compiles a b V (throw e : BridgeM α) (throw f : BridgeM β) :=
  fun _ _ _ _ ht hk => ⟨h, ht, hk⟩

theorem inStep_outcome {x : Except HostError α} {y : Except HostError β} (h : Outcomes V x y) :
    InStep rows compiles a b V (ExceptT.mk (pure x)) (ExceptT.mk (pure y)) :=
  fun _ _ _ _ ht hk => ⟨h, ht, hk⟩

theorem inStep_pure {v : α} {w : β} (h : V v w) : InStep rows compiles a b V (pure v) (pure w) :=
  inStep_outcome h

theorem inStep_bind {x : BridgeM α} {y : BridgeM β} {f : α → BridgeM γ} {g : β → BridgeM δ}
    (h : InStep rows compiles a b V x y) (hf : ∀ v w, V v w → InStep rows compiles a b W (f v) (g w)) :
    InStep rows compiles a b W (x >>= f) (y >>= g) := by
  intro left right h₀ k₀ ht hk
  rw [run_bind, run_bind]
  refine (h left right h₀ k₀ ht hk).bind fun r u hr => ?_
  obtain ⟨hr, ht, hk⟩ := hr
  rcases r with ⟨⟨e | v, left'⟩, h'⟩ <;> rcases u with ⟨⟨f | w, right'⟩, k'⟩
  · exact ⟨hr, ht, hk⟩
  · exact False.elim hr
  · exact False.elim hr
  · exact hf v w hr left' right' h' k' ht hk

theorem inStep_bind_same {x y : BridgeM α} {f : α → BridgeM γ} {g : α → BridgeM δ}
    (h : InStep rows compiles a b Eq x y) (hf : ∀ v, InStep rows compiles a b W (f v) (g v)) :
    InStep rows compiles a b W (x >>= f) (y >>= g) :=
  inStep_bind h fun v w hvw => by subst hvw; exact hf v

theorem inStep_get {f : Bridge → BridgeM α} {g : Bridge → BridgeM β}
    (h : ∀ t : Bridge, InStep rows compiles a b V (f (t.built rows .source)) (g (t.built rows .snapshot))) :
    InStep rows compiles a b V (get >>= f) (get >>= g) := by
  rintro left right h₀ k₀ ⟨t, ht, rfl, rfl⟩ hk
  exact h t _ _ h₀ k₀ ⟨t, ht, rfl, rfl⟩ hk

theorem inStep_lift {x : HostM α} {y : HostM β} (h : Lockstep (Host.Alike compiles a b) V x y) :
    InStep rows compiles a b V (liftM x) (liftM y) := by
  intro left right h₀ k₀ ht hk
  rw [run_lift, run_lift]
  exact (h h₀ k₀ hk).bind fun r u hr => ⟨hr.1, ht, hr.2⟩

theorem inStep_attempt {x : Attempt α} {y : Attempt β} (h : Attempt.InStep compiles a b V x y) :
    InStep rows compiles a b V (attempt x) (attempt y) := by
  intro left right h₀ k₀ ht hk
  rw [run_attempt, run_attempt]
  exact (h h₀ k₀ hk).bind fun r u hr => ⟨hr.1, ht, hr.2⟩

theorem inStep_outcomeOf {x : BridgeM α} {y : BridgeM β} (h : InStep rows compiles a b V x y) :
    InStep rows compiles a b (Outcomes V) (outcomeOf x) (outcomeOf y) := by
  intro left right h₀ k₀ ht hk
  rw [run_outcomeOf, run_outcomeOf]
  exact (h left right h₀ k₀ ht hk).bind fun r u hr => hr

theorem inStep_holding {ref : Ref} {x : BridgeM α} {y : BridgeM β} (h : InStep rows compiles a b V x y) :
    InStep rows compiles a b V (holding ref x) (holding ref y) := by
  intro left right h₀ k₀ ht hk
  rw [run_holding, run_holding]
  refine (h left right h₀ k₀ ht hk).bind fun r u hr => ?_
  exact (Host.lockstep_release ref r.2 u.2 hr.2.2).bind fun _ _ hs => ⟨hr.1, hr.2.1, hs.2⟩

/-! ## Resolving -/

theorem inStep_native (id : String) : InStep rows compiles a b Eq (native id) (native id) := by
  rintro left right h k ⟨t, ht, rfl, rfl⟩ hk
  rw [run_native, run_native]
  refine (NativeTable.lockstep_get ht id h k hk).bind fun r u hr => ?_
  obtain ⟨⟨houtcome, hnatives, hd⟩, hk⟩ := hr
  refine ⟨houtcome, ⟨{ t with registry := { t.registry with natives := r.1.2 } }, hd, rfl, ?_⟩, hk⟩
  rw [hnatives]
  rfl

theorem get?_built (t : Bridge) (strategy : Strategy) (id : String) :
    (t.built rows strategy).registry.builtins.get? id =
      (rows.reverse.find? fun row => id == row.name).map (·.code strategy) :=
  BuiltinTable.get?_ofRows ..

/-- The same exports, or the two forms of the code of one row. -/
def Counterparts (rows : List BuiltinRow) : Resolved → Resolved → Prop
  | .native exports, .native exports' => exports = exports'
  | .builtin code, .builtin code' => ∃ row ∈ rows, code = row.code .source ∧ code' = row.code .snapshot
  | _, _ => False

theorem inStep_resolve (id : String) :
    InStep rows compiles a b (Counterparts rows) (resolve id) (resolve id) := by
  refine inStep_get fun t => ?_
  rw [get?_built, get?_built]
  cases hrow : rows.reverse.find? fun row => id == row.name with
  | some row =>
    have hmem : row ∈ rows := List.mem_reverse.1 (List.mem_of_find?_eq_some hrow)
    refine inStep_bind_same (inStep_lift (Host.lockstep_emit _ _)) fun _ => ?_
    exact inStep_pure ⟨row, hmem, rfl, rfl⟩
  | none =>
    refine inStep_bind_same (inStep_native id) fun exports => ?_
    cases exports with
    | some exports =>
      exact inStep_bind_same (inStep_lift (Host.lockstep_emit _ _)) fun _ => inStep_pure rfl
    | none => exact inStep_bind_same (inStep_lift (Host.lockstep_emit _ _)) fun _ => inStep_throw rfl

/-! ## Loading -/

theorem inStep_refuseProperty (name : String) (error : Ref) :
    Attempt.InStep compiles a b V (refuseProperty name error) (refuseProperty name error) :=
  Attempt.inStep_holding (Attempt.inStep_call (Host.lockstep_messageOf error) fun _ => Attempt.inStep_throw rfl)

theorem inStep_readProperty (object : Ref) (name : String) :
    Attempt.InStep compiles a b Eq (readProperty object name) (readProperty object name) := by
  refine Attempt.inStep_call (Host.lockstep_readProperty object name) fun result => ?_
  cases result with
  | ok value => exact Attempt.inStep_pure rfl
  | error error => exact inStep_refuseProperty name error

theorem inStep_writeProperty (object : Ref) (name : String) (value : Ref) :
    Attempt.InStep compiles a b Eq (writeProperty object name value) (writeProperty object name value) := by
  refine Attempt.inStep_call (Host.lockstep_writeProperty object name value) fun result => ?_
  cases result with
  | ok _ => exact Attempt.inStep_pure rfl
  | error error => exact inStep_refuseProperty name error

theorem inStep_idOf (module : Ref) : Attempt.InStep compiles a b Eq (idOf module) (idOf module) := by
  refine Attempt.inStep_bind (inStep_readProperty module "id") fun id _ heq => ?_
  subst heq
  refine Attempt.inStep_holding (Attempt.inStep_call (Host.lockstep_textOf id) fun text => ?_)
  cases text with
  | some text => exact Attempt.inStep_pure rfl
  | none => exact Attempt.inStep_throw rfl

theorem inStep_reportLoad (id : String) (succeeded : Bool) :
    InStep rows compiles a b Eq (reportLoad id succeeded) (reportLoad id succeeded) := by
  refine inStep_get fun t => ?_
  show InStep rows compiles a b Eq (if t.config.loadstat then _ else _) (if t.config.loadstat then _ else _)
  split
  · exact inStep_lift (Host.lockstep_emit _ _)
  · exact inStep_pure rfl

theorem inStep_orUndefined (counterpart : Option Ref) {f : Ref → BridgeM α} {g : Ref → BridgeM β}
    (h : ∀ native, InStep rows compiles a b V (f native) (g native)) :
    InStep rows compiles a b V (match counterpart with
      | some native => do f (← pure native)
      | none => do f (← liftM Host.newUndefined)) (match counterpart with
      | some native => do g (← pure native)
      | none => do g (← liftM Host.newUndefined)) := by
  cases counterpart with
  | some native => exact h native
  | none => exact inStep_bind_same (inStep_lift Host.lockstep_newUndefined) h

/-- The source of a row on one side and its record on the other. -/
theorem inStep_loadBuiltin (hn : Numbered rows) (hs : ∀ row ∈ rows, Snapshot.separator ∉ row.source)
    {row : BuiltinRow} (hr : row ∈ rows) (id : String) (module require : Ref) :
    InStep rows compiles a b Eq (loadBuiltin id (row.code .source) module require)
      (loadBuiltin id (row.code .snapshot) module require) := by
  refine inStep_bind_same (inStep_native id) fun counterpart => ?_
  refine inStep_orUndefined counterpart fun native => inStep_holding ?_
  refine inStep_bind_same (inStep_attempt (inStep_readProperty module "exports")) fun exports => inStep_holding ?_
  refine inStep_get fun t => ?_
  -- the only place where the two hosts do different things
  have hcompile : Attempt.InStep compiles a b Eq
      (do
        let compiled ← liftM (compileBuiltin id (t.built rows .source).registry.builtins.blob (row.code .source)).run
        Factory.call compiled ⟨exports, require, module, native⟩)
      (do
        let compiled ← liftM (compileBuiltin id (t.built rows .snapshot).registry.builtins.blob (row.code .snapshot)).run
        Factory.call compiled ⟨exports, require, module, native⟩) :=
    Attempt.inStep_bind (Attempt.inStep_lift
      (Factory.inStep_compile id (records?_blobOf hr hs) (source_of_numbered hn hr))) fun compiled loaded hc =>
        Factory.inStep_call_factory hc _
  refine inStep_bind (inStep_outcomeOf (inStep_attempt hcompile)) fun r u hru => ?_
  have hok : u.isOk = r.isOk := by
    cases r <;> cases u
    · rfl
    · exact False.elim hru
    · exact False.elim hru
    · rfl
  rw [hok]
  exact inStep_bind_same (inStep_reportLoad id r.isOk) fun _ => inStep_outcome hru

theorem inStep_loadModule (hn : Numbered rows) (hs : ∀ row ∈ rows, Snapshot.separator ∉ row.source)
    (module require : Ref) :
    InStep rows compiles a b Eq (loadModule module require) (loadModule module require) := by
  refine inStep_bind_same (inStep_attempt (inStep_idOf module)) fun id => ?_
  refine inStep_bind (inStep_resolve id) fun r u hru => ?_
  cases r <;> cases u
  · obtain ⟨row, hrow, rfl, rfl⟩ := hru
    exact inStep_loadBuiltin hn hs hrow id module require
  · exact False.elim hru
  · exact False.elim hru
  · cases hru
    refine inStep_holding (inStep_bind_same (inStep_attempt (inStep_writeProperty _ _ _)) fun _ => ?_)
    exact inStep_lift Host.lockstep_newUndefined

/-! ## Any number of loads -/

/-- Loads modules one after another, whatever becomes of them; the outcomes in order. -/
def loadAll : List (Ref × Ref) → StateT Bridge HostM (List (Except HostError Ref))
  | [] => return []
  | (module, require) :: rest => do
    let outcome ← (loadModule module require).run
    let outcomes ← loadAll rest
    return outcome :: outcomes

/-- What belongs together after loads on both bridges. -/
def AllEnds (rows : List BuiltinRow) (compiles : ParseRequest → Prop) (a b : Array ParseRequest)
    (r u : (List (Except HostError Ref) × Bridge) × Host) : Prop :=
  List.Forall₂ (Outcomes Eq) r.1.1 u.1.1 ∧ Twins rows compiles r.1.2 u.1.2 ∧ Host.Alike compiles a b r.2 u.2

theorem both_loadAll (hn : Numbered rows) (hs : ∀ row ∈ rows, Snapshot.separator ∉ row.source) :
    ∀ (loads : List (Ref × Ref)) {left right : Bridge} {h k : Host}, Twins rows compiles left right →
      Host.Alike compiles a b h k →
      Both (AllEnds rows compiles a b) (loadAll loads left h) (loadAll loads right k)
  | [], _, _, _, _, ht, hk => ⟨.nil, ht, hk⟩
  | (module, require) :: rest, left, right, h, k, ht, hk => by
    refine (inStep_loadModule hn hs module require left right h k ht hk).bind fun r u hr => ?_
    refine (both_loadAll hn hs rest hr.2.1 hr.2.2).bind fun r' u' hr' => ?_
    exact ⟨.cons hr.1 hr'.1, hr'.2.1, hr'.2.2⟩

/-- From equal engines the same loads come to the same with both strategies, but that a module which does
not compile is blamed on one side by its id and the blob is on the other, with the same message. The engines
stay equal in all but what they remember: to that the first strategy adds the factories that it compiles,
and the second one nothing, unless a builder compiles something on its own. -/
theorem strategies_agree (hn : Numbered rows) (hs : ∀ row ∈ rows, Snapshot.separator ∉ row.source) (t : Bridge)
    (ht : t.registry.natives.Determined compiles) (h k : Host) (he : k.engine = h.engine) (hg : k.guards = h.guards)
    (loads : List (Ref × Ref)) :
    Both (fun r u => List.Forall₂ (Outcomes Eq) r.1.1 u.1.1 ∧
        u.2.engine = { r.2.engine with parses := u.2.engine.parses } ∧
        Logs compiles h.engine.parses h.engine.parses r.2.engine.parses u.2.engine.parses ∧
        ((∀ request, ¬ compiles request) → u.2.engine.parses = h.engine.parses))
      (loadAll loads (t.built rows .source) h) (loadAll loads (t.built rows .snapshot) k) ∧
    ∀ b g module require name message b' g',
      (loadModule module require).run b g = .ok ((.error (.compile name message), b'), g') →
      ∃ g₁, (idOf module).run g = .ok (.ok name, g₁) := by
  have hstart : Host.Alike compiles h.engine.parses h.engine.parses h k := ⟨⟨_, he, .start⟩, hg⟩
  refine ⟨(both_loadAll hn hs loads ⟨t, ht, rfl, rfl⟩ hstart).mono fun r u hr => ?_, ?_⟩
  · obtain ⟨houtcomes, -, ⟨q, hq, hlogs⟩, -⟩ := hr
    have hparses : u.2.engine.parses = q := by rw [hq]
    rw [hparses]
    exact ⟨houtcomes, hq, hlogs, hlogs.eq_right⟩
  · exact fun _ _ _ _ _ _ _ _ hr => loadModule_blames hr

/-- Three rows, the last of them in the place of the first; the one between is no body. -/
def agreeingRows : List BuiltinRow :=
  [⟨"a", "throw exports".toUTF8.toList, 0⟩, ⟨"b", "x = @".toUTF8.toList, 1⟩,
    ⟨"a", "exports.n = native\nreturn exports".toUTF8.toList, 2⟩]

/-- A bridge with a native counterpart for "a". -/
def agreeingBridge : Bridge where
  registry := ⟨.empty, ⟨.ofList [("a", ⟨.ofPrograms ["\x7b\x7d".toUTF8.toList], 0, none⟩)], none, .empty⟩⟩
  config := ⟨none, true⟩
  gate := none
  files := .ofEntries .empty

/-- Two module objects, "a" and "b". -/
def agreeingHost : Host where
  engine := {
    heap := ⟨#[⟨.text "a", 0⟩, ⟨.emptyObject, 0⟩, ⟨.object (.ofList [("exports", 1), ("id", 0)]), 1⟩,
      ⟨.text "b", 0⟩, ⟨.object (.ofList [("exports", 1), ("id", 3)]), 1⟩]⟩
    parses := #[]
    calls := 0
    releases := 0
    issued := 2
    depth := 4 }
  guards := ⟨[], []⟩
  transcript := #[]
  log := #[]

/-- The last row of "a" is run with its native counterpart, and "b" does not compile. -/
theorem strategies_agree_twoModules : Numbered agreeingRows ∧
    (∀ row ∈ agreeingRows, Snapshot.separator ∉ row.source) ∧
    ∃ r u, loadAll [(⟨2, 1⟩, ⟨2, 1⟩), (⟨4, 2⟩, ⟨2, 1⟩)] (agreeingBridge.built agreeingRows .source) agreeingHost = .ok r ∧
      loadAll [(⟨2, 1⟩, ⟨2, 1⟩), (⟨4, 2⟩, ⟨2, 1⟩)] (agreeingBridge.built agreeingRows .snapshot) agreeingHost = .ok u ∧
      r.1.1.map (·.isOk) = [true, false] ∧ List.Forall₂ (Outcomes Eq) r.1.1 u.1.1 ∧
      u.2.engine = { r.2.engine with parses := #[] } := by
  have hn : Numbered agreeingRows := by unfold Numbered agreeingRows; decide
  have hs : ∀ row ∈ agreeingRows, Snapshot.separator ∉ row.source := by decide +kernel
  have ht : agreeingBridge.registry.natives.Determined fun _ => False := by
    intro row hrow
    rw [List.mem_singleton.1 (Table.mem_of_mem_ofList hrow)]
    exact ExportsBuilder.determined_ofPrograms _ ["\x7b\x7d".toUTF8.toList]
  obtain ⟨r, hr, hview⟩ := exists_of_map_ok (f := fun r => r.1.1.map (·.isOk)) (b := [true, false])
    (x := loadAll [(⟨2, 1⟩, ⟨2, 1⟩), (⟨4, 2⟩, ⟨2, 1⟩)] (agreeingBridge.built agreeingRows .source) agreeingHost)
    (by decide +kernel)
  have hboth := (strategies_agree hn hs agreeingBridge ht agreeingHost agreeingHost rfl rfl
    [(⟨2, 1⟩, ⟨2, 1⟩), (⟨4, 2⟩, ⟨2, 1⟩)]).1
  rw [hr] at hboth
  rcases hu : loadAll [(⟨2, 1⟩, ⟨2, 1⟩), (⟨4, 2⟩, ⟨2, 1⟩)] (agreeingBridge.built agreeingRows .snapshot) agreeingHost
    with _ | u <;> rw [hu] at hboth
  · exact False.elim hboth
  · obtain ⟨houtcomes, hengine, -, hquiet⟩ := hboth
    rw [hquiet fun _ h => h] at hengine
    exact ⟨hn, hs, r, u, hr, rfl, hview, houtcomes, hengine⟩

end Bridge

end ScriptHost
