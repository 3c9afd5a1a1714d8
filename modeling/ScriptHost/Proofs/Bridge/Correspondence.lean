/-
Two bridges side by side. They have the same builtin modules, used in the same way, and native modules of the
same names, whose builders do the same and whose exports are paired where they are built. Whatever the first
bridge does on its host while it loads a module, the second one does on its own; their configurations, gates,
files and loaders of libraries may differ.
-/
import ScriptHost.Proofs.Bridge.Balance
import ScriptHost.Proofs.Host.Correspondence

namespace ScriptHost

variable {α β γ δ : Type} {R S : Pairing}

/-! ## Native modules -/

/-- The builder does the same in each run: it makes an empty object, or runs one blob. -/
inductive ExportsBuilder.Fixed : ExportsBuilder → Prop where
  | object : Fixed fun _ => .ok <$> Host.newObject
  | blob (blob : Bytes) : Fixed fun _ => Host.runBlob blob

/-- With one program, or none, it makes no difference how often a builder ran before. -/
theorem ExportsBuilder.fixed_ofPrograms : ∀ programs : List Bytes, programs.length ≤ 1 → (ofPrograms programs).Fixed
  | [], _ => .object
  | [program], _ => by
    have he : ofPrograms [program] = fun _ => Host.runBlob (Snapshot.ofProgram program) := by
      funext run
      cases run <;> rfl
    rw [he]
    exact .blob _

theorem ExportsBuilder.Fixed.follows {init : ExportsBuilder} (h : init.Fixed) (run run' : Nat) :
    Follows Host.Paired R (Pairing.Answer Pairing.Refs) (init run) (init run') := by
  cases h with
  | object =>
    exact follows_map fun S s t hle hp => (Host.follows_newObject S s t hle hp).mono fun _ _ _ hab => .ok hab
  | blob blob => exact Host.follows_runBlob blob

/-- One builder on both sides, and paired exports or none yet. -/
structure NativeModule.Paired (R : Pairing) (m n : NativeModule) : Prop where
  init : n.init = m.init
  fixed : m.init.Fixed
  exports : Option.Rel R.Refs m.exports n.exports

/-- The same names on both sides, with modules that are paired. -/
def NativeTable.Paired (R : Pairing) (t u : NativeTable) : Prop :=
  ∀ id, Option.Rel (NativeModule.Paired R) (t.entries.get? id) (u.entries.get? id)

theorem NativeModule.monotone_paired : Monotone Paired :=
  fun _ _ hle _ _ h => ⟨h.init, h.fixed, rel_mono (Pairing.monotone_refs hle) h.exports⟩

theorem NativeModule.Paired.flip {m n : NativeModule} (h : m.Paired R n) : n.Paired (flip R) m :=
  ⟨h.init.symm, h.init ▸ h.fixed, rel_flip h.exports⟩

namespace NativeTable

variable {t u : NativeTable}

theorem Paired.mono (h : t.Paired R u) (hle : R ≤ S) : t.Paired S u :=
  fun id => rel_mono (NativeModule.monotone_paired hle) (h id)

theorem Paired.flip (h : t.Paired R u) : u.Paired (flip R) t :=
  fun id => rel_mono (fun _ _ => NativeModule.Paired.flip) (rel_flip (h id))

/-- After a run on both sides, with what it built. -/
theorem Paired.afterRun (h : t.Paired R u) {m n : NativeModule} (hmn : m.Paired R n) (id : String)
    {exports exports' : Option Ref} (he : Option.Rel R.Refs exports exports') :
    (t.afterRun id m exports).Paired R (u.afterRun id n exports') := by
  intro other
  rw [NativeTable.afterRun, NativeTable.afterRun, Table.get?_insert, Table.get?_insert]
  split
  · exact .some ⟨hmn.init, hmn.fixed, he⟩
  · exact h other

theorem Paired.cached (h : t.Paired R u) {v : Ref} (hv : v ∈ t.cached) : ∃ w ∈ u.cached, R.Refs v w := by
  obtain ⟨⟨id, m⟩, hrow, hexports⟩ := List.mem_filterMap.1 hv
  have hentry := (Table.get?_eq_some_iff ..).2 hrow
  obtain ⟨n, hentry', hmn⟩ := exists_of_rel_some (hentry ▸ h id)
  have hrel : Option.Rel R.Refs m.exports n.exports := hmn.exports
  rw [show m.exports = some v from hexports] at hrel
  obtain ⟨w, hw, hvw⟩ := exists_of_rel_some hrel
  exact ⟨w, mem_cached hentry' hw, hvw⟩

theorem Paired.fixed (h : t.Paired R u) : ∀ row ∈ t.entries.rows, row.2.init.Fixed := by
  intro row hrow
  obtain ⟨_, -, hmn⟩ := exists_of_rel_some ((Table.get?_eq_some_iff ..).2 hrow ▸ h row.1)
  exact hmn.fixed

/-- What asking for a module comes to on both sides. -/
def Given (T : Pairing) (r u : Except HostError (Option Ref) × NativeTable) : Prop :=
  Sides Eq (Option.Rel T.Refs) r.1 u.1 ∧ r.2.Paired T u.2

theorem follows_get (h : t.Paired R u) (id : String) : Follows Host.Paired R Given (t.get id) (u.get id) := by
  have hrel := h id
  unfold NativeTable.get
  generalize t.entries.get? id = first at hrel ⊢
  generalize u.entries.get? id = second at hrel ⊢
  cases hrel with
  | none => exact follows_pure fun S hS => ⟨.ok .none, h.mono hS⟩
  | @some m n hmn =>
    have hexports := hmn.exports
    dsimp only
    generalize m.exports = a at hexports ⊢
    generalize n.exports = b at hexports ⊢
    cases hexports with
    | some hab =>
      refine follows_bind (Host.follows_acquire hab) fun S c d hS hcd => follows_pure fun T hT => ?_
      exact ⟨.ok (.some (hcd.mono hT)), h.mono (le_trans hS hT)⟩
    | none =>
      dsimp only
      rw [hmn.init]
      -- nothing is kept yet, so both sides build; whatever is kept is paired behind all that is allocated
      refine follows_bind (hmn.fixed.follows m.runs n.runs) fun S r s hS hrs => ?_
      cases hrs with
      | ok hab =>
        refine follows_bind (Host.follows_emit _ _) fun T _ _ hT _ => ?_
        refine follows_bind (Host.follows_acquire (hab.mono hT)) fun U c d hU hcd => follows_pure fun V hV => ?_
        have hle := le_trans hS (le_trans hT (le_trans hU hV))
        exact ⟨.ok (.some (hcd.mono hV)), (h.mono hle).afterRun (NativeModule.monotone_paired hle _ _ hmn) id
          (.some (hab.mono (le_trans hT (le_trans hU hV))))⟩
      | error hab =>
        refine follows_bind (Host.follows_messageOf hab) fun T reason _ hT heq => ?_
        subst heq
        refine follows_bind (Host.follows_emit _ _) fun U _ _ hU _ => ?_
        refine follows_bind (Host.follows_release _ _) fun V _ _ hV _ => follows_pure fun W hW => ?_
        have hle := le_trans hS (le_trans hT (le_trans hU (le_trans hV hW)))
        exact ⟨.error rfl, (h.mono hle).afterRun (NativeModule.monotone_paired hle _ _ hmn) id .none⟩

end NativeTable

namespace Bridge

/-! ## Composing operations -/

/-- The same builtin modules, used in the same way, and native modules that are paired. -/
structure Paired (R : Pairing) (b c : Bridge) : Prop where
  builtins : c.registry.builtins = b.registry.builtins
  natives : b.natives.Paired R c.natives

theorem Paired.mono {b c : Bridge} (h : b.Paired R c) (hle : R ≤ S) : b.Paired S c := ⟨h.builtins, h.natives.mono hle⟩

/-- The outcomes belong together, and so do the bridges afterwards. -/
def Ended (good : Pairing → α → β → Prop) (T : Pairing) (r : Except HostError α × Bridge)
    (u : Except HostError β × Bridge) : Prop :=
  T.Outcome good r.1 u.1 ∧ r.2.Paired T u.2

/-- The operation comes to the same on the second bridge and host. -/
def Follows (R : Pairing) (good : Pairing → α → β → Prop) (x : BridgeM α) (y : BridgeM β) : Prop :=
  ∀ S b c, R ≤ S → b.Paired S c → ScriptHost.Follows Host.Paired S (Ended good) (x.run b) (y.run c)

variable {good : Pairing → α → β → Prop} {good' : Pairing → γ → δ → Prop}

theorem follows_outcome {x : Except HostError α} {y : Except HostError β} (h : ∀ S, R ≤ S → S.Outcome good x y) :
    Follows R good (ExceptT.mk (pure x)) (ExceptT.mk (pure y)) :=
  fun _ _ _ hle hb => ScriptHost.follows_pure fun T hT => ⟨h T (le_trans hle hT), hb.mono hT⟩

theorem follows_pure {v : α} {w : β} (h : ∀ S, R ≤ S → good S v w) : Follows R good (pure v) (pure w) :=
  follows_outcome fun S hle => .ok (h S hle)

theorem follows_throw (e : HostError) : Follows R good (throw e : BridgeM α) (throw e : BridgeM β) :=
  follows_outcome fun _ _ => .error rfl

theorem follows_bind {x : BridgeM α} {y : BridgeM β} {f : α → BridgeM γ} {g : β → BridgeM δ} (h : Follows R good x y)
    (hf : ∀ S a b, R ≤ S → good S a b → Follows S good' (f a) (g b)) : Follows R good' (x >>= f) (y >>= g) := by
  intro S b c hle hb T h₀ k₀ hST hp
  rw [run_bind, run_bind]
  refine (h S b c hle hb T h₀ k₀ hST hp).bind fun U r u hU hp' hr => ?_
  obtain ⟨⟨_ | v, b'⟩, h'⟩ := r
  all_goals obtain ⟨⟨_ | w, c'⟩, k'⟩ := u
  all_goals obtain ⟨houtcome, hb'⟩ := hr
  all_goals cases houtcome
  · rename_i he
    exact ⟨U, le_refl U, hp', .error he, hb'⟩
  · rename_i hvw
    exact hf U v w (le_trans hle (le_trans hST hU)) hvw U b' c' (le_refl U) hb' U h' k' (le_refl U) hp'

theorem follows_get {f : Bridge → BridgeM α} {g : Bridge → BridgeM β}
    (h : ∀ S b c, R ≤ S → b.Paired S c → Follows S good (f b) (g c)) : Follows R good (get >>= f) (get >>= g) :=
  fun S b c hle hb => h S b c hle hb S b c (le_refl S) hb

theorem follows_lift {x : HostM α} {y : HostM β} (h : ScriptHost.Follows Host.Paired R good x y) :
    Follows R good (liftM x) (liftM y) := by
  intro S b c hle hb T h₀ k₀ hST hp
  rw [run_lift, run_lift]
  refine (h T h₀ k₀ (le_trans hle hST) hp).bind fun U r u hU hp' hru => ?_
  exact ⟨U, le_refl U, hp', .ok hru, hb.mono (le_trans hST hU)⟩

theorem follows_attempt {x : Attempt α} {y : Attempt β} (h : Attempt.Follows R good x y) :
    Follows R good (attempt x) (attempt y) := by
  intro S b c hle hb T h₀ k₀ hST hp
  rw [run_attempt, run_attempt]
  refine (h T h₀ k₀ (le_trans hle hST) hp).bind fun U r u hU hp' hru => ?_
  exact ⟨U, le_refl U, hp', hru, hb.mono (le_trans hST hU)⟩

theorem follows_outcomeOf {x : BridgeM α} {y : BridgeM β} (h : Follows R good x y) :
    Follows R (Pairing.Outcome good) (outcomeOf x) (outcomeOf y) := by
  intro S b c hle hb T h₀ k₀ hST hp
  rw [run_outcomeOf, run_outcomeOf]
  exact (h S b c hle hb T h₀ k₀ hST hp).bind fun U r u _ hp' hru => ⟨U, le_refl U, hp', .ok hru.1, hru.2⟩

theorem follows_holding (hg : Monotone good) {v w : Ref} {x : BridgeM α} {y : BridgeM β} (h : Follows R good x y) :
    Follows R good (holding v x) (holding w y) := by
  intro S b c hle hb T h₀ k₀ hST hp
  rw [run_holding, run_holding]
  refine (h S b c hle hb T h₀ k₀ hST hp).bind fun U r u _ hp' hru => ?_
  refine (Host.follows_release v w U r.2 u.2 (le_refl U) hp').bind fun V _ _ hV hp'' _ => ?_
  exact ⟨V, le_refl V, hp'', Pairing.monotone_outcome hg hV _ _ hru.1, hru.2.mono hV⟩

/-! ## Loading -/

theorem follows_native (id : String) :
    Follows R (fun T => Option.Rel T.Refs) (native id) (native id) := by
  intro S b c _ hb T h₀ k₀ hST hp
  rw [run_native, run_native]
  refine (NativeTable.follows_get hb.natives id T h₀ k₀ hST hp).bind fun U r u _ hp' hru => ?_
  exact ⟨U, le_refl U, hp', hru.1, hb.builtins, hru.2⟩

/-- The same code, or paired exports. -/
inductive Counterpart (R : Pairing) : Resolved → Resolved → Prop where
  | builtin (code : Code) : Counterpart R (.builtin code) (.builtin code)
  | native {v w : Ref} : R.Refs v w → Counterpart R (.native v) (.native w)

theorem follows_resolve (id : String) : Follows R Counterpart (resolve id) (resolve id) := by
  refine follows_get fun S b c _ hb => ?_
  rw [hb.builtins]
  split
  · exact follows_bind (follows_lift (Host.follows_emit _ _)) fun _ _ _ _ _ => follows_pure fun _ _ => .builtin _
  · refine follows_bind (follows_native id) fun T v w _ hvw => ?_
    cases hvw with
    | some hvw =>
      exact follows_bind (follows_lift (Host.follows_emit _ _)) fun _ _ _ hU _ =>
        follows_pure fun _ hV => .native (hvw.mono (le_trans hU hV))
    | none => exact follows_bind (follows_lift (Host.follows_emit _ _)) fun _ _ _ _ _ => follows_throw _

theorem follows_refuseProperty (name : String) {v w : Ref} (hvw : R.Refs v w) (hg : Monotone good) :
    Attempt.Follows R good (refuseProperty name v) (refuseProperty name w) := by
  refine Attempt.follows_holding hg (Attempt.follows_call (Host.follows_messageOf hvw) fun S message _ _ heq => ?_)
  subst heq
  exact Attempt.follows_throw _

theorem follows_readProperty {v w : Ref} (hvw : R.Refs v w) (name : String) :
    Attempt.Follows R Pairing.Refs (readProperty v name) (readProperty w name) := by
  refine Attempt.follows_call (Host.follows_readProperty hvw name) fun S r u _ hru => ?_
  cases hru with
  | ok hab => exact Attempt.follows_pure fun T hT => hab.mono hT
  | error hab => exact follows_refuseProperty name hab Pairing.monotone_refs

theorem follows_writeProperty {v w a b : Ref} (hvw : R.Refs v w) (hab : R.Refs a b) (name : String) :
    Attempt.Follows R (fun _ _ _ => True) (writeProperty v name a) (writeProperty w name b) := by
  refine Attempt.follows_call (Host.follows_writeProperty hvw hab name) fun S r u _ hru => ?_
  cases hru with
  | ok _ => exact Attempt.follows_pure fun _ _ => trivial
  | error hab => exact follows_refuseProperty name hab monotone_const

theorem follows_idOf {module module' : Ref} (hm : R.Refs module module') :
    Attempt.Follows R (fun _ => Eq) (idOf module) (idOf module') := by
  refine Attempt.follows_bind (follows_readProperty hm "id") fun S id id' _ hid => ?_
  refine Attempt.follows_holding monotone_const ?_
  refine Attempt.follows_call (Host.follows_textOf hid) fun T text _ _ heq => ?_
  subst heq
  cases text with
  | some text => exact Attempt.follows_pure fun _ _ => rfl
  | none => exact Attempt.follows_throw _

theorem follows_compileBuiltin (id : String) (blob : Bytes) (code : Code) :
    Attempt.Follows R Factory.Paired (compileBuiltin id blob code) (compileBuiltin id blob code) := by
  cases code with
  | snapshot index => exact Factory.follows_ofRecord id blob index
  | source text => exact Factory.follows_compile id text

/-- A host that reports its loads and one that does not differ in their logs only. -/
theorem follows_reportLoad (id : String) (succeeded succeeded' : Bool) :
    Follows R (fun _ _ _ => True) (reportLoad id succeeded) (reportLoad id succeeded') := by
  refine follows_get fun S b c _ _ => ?_
  generalize b.config.loadstat = report
  generalize c.config.loadstat = report'
  intro T b₁ c₁ _ hb U h₀ k₀ hU hp
  cases report <;> cases report' <;> exact ⟨U, le_refl U, ⟨hp.engine, hp.guards⟩, .ok trivial, hb.mono hU⟩

theorem follows_orUndefined (counterpart counterpart' : Option Ref) {f : Ref → BridgeM α} {g : Ref → BridgeM β}
    (h : ∀ S v w, R ≤ S → S.Refs v w → Follows S good (f v) (g w)) :
    Option.Rel R.Refs counterpart counterpart' → Follows R good (match counterpart with
      | some native => do f (← pure native)
      | none => do f (← liftM Host.newUndefined)) (match counterpart' with
      | some native => do g (← pure native)
      | none => do g (← liftM Host.newUndefined)) := by
  intro hc
  cases hc with
  | some hvw => exact h R _ _ (le_refl R) hvw
  | none => exact follows_bind (follows_lift Host.follows_newUndefined) h

theorem follows_loadBuiltin (id : String) (code : Code) {module module' require require' : Ref}
    (hm : R.Refs module module') (hr : R.Refs require require') :
    Follows R Pairing.Refs (loadBuiltin id code module require) (loadBuiltin id code module' require') := by
  refine follows_bind (follows_native id) fun S counterpart counterpart' hS hc => ?_
  refine follows_orUndefined counterpart counterpart' (fun T native native' hT hnative => ?_) hc
  refine follows_holding Pairing.monotone_refs ?_
  have hST := le_trans hS hT
  refine follows_bind (follows_attempt (follows_readProperty (hm.mono hST) "exports"))
    fun U exports exports' hU he => ?_
  refine follows_holding Pairing.monotone_refs (follows_get fun V b c hV hb => ?_)
  have hUV := le_trans hU hV
  rw [hb.builtins]
  refine follows_bind (follows_outcomeOf (follows_attempt
    (Attempt.follows_bind (Attempt.follows_lift (follows_compileBuiltin id b.registry.builtins.blob code))
      fun W compiled compiled' hW hcompiled => Factory.follows_call hcompiled ?_))) fun W r u _ hru => ?_
  · -- each argument was paired at a time of its own, and is so still
    have hle := le_trans hUV hW
    exact .cons (he.mono (le_trans hV hW)) (.cons (hr.mono (le_trans hST hle))
      (.cons (hm.mono (le_trans hST hle)) (.cons (hnative.mono hle) .nil)))
  · refine follows_bind (follows_reportLoad id _ _) fun X _ _ hX _ => follows_outcome fun Y hY => ?_
    exact Pairing.monotone_outcome Pairing.monotone_refs (le_trans hX hY) _ _ hru

theorem follows_loadModule {module module' require require' : Ref} (hm : R.Refs module module')
    (hr : R.Refs require require') :
    Follows R Pairing.Refs (loadModule module require) (loadModule module' require') := by
  refine follows_bind (follows_attempt (follows_idOf hm)) fun S id _ hS heq => ?_
  subst heq
  refine follows_bind (follows_resolve id) fun T resolved resolved' hT hresolved => ?_
  have hST := le_trans hS hT
  cases hresolved with
  | builtin code => exact follows_loadBuiltin id code (hm.mono hST) (hr.mono hST)
  | native hvw =>
    refine follows_holding Pairing.monotone_refs ?_
    refine follows_bind (follows_attempt (follows_writeProperty (hm.mono hST) hvw "exports")) fun _ _ _ _ _ => ?_
    exact follows_lift Host.follows_newUndefined

end Bridge

end ScriptHost
