/-
Two hosts side by side. Their heaps are paired, and what they counted, logged and wrote down may differ.
The same operation on paired references comes to the same on both: to paired references, or to errors with
the same texts, since no text depends on a slot.

Where the operation ends on the first host it ends on the second one, but that the second one may stop at a
reference that it does not hold: a pairing says nothing about the counts of references.
-/
import ScriptHost.Host.Factory
import ScriptHost.Proofs.Engine.Correspondence
import ScriptHost.Proofs.Host.Basic

namespace ScriptHost

/-- Paired slots, by references that may be numbered differently. -/
def Pairing.Refs (R : Pairing) (a b : Ref) : Prop := R a.slot b.slot

theorem Pairing.Refs.mono {R S : Pairing} {a b : Ref} (h : R.Refs a b) (hle : R ≤ S) : S.Refs a b := hle _ _ h

theorem Pairing.monotone_refs : Monotone Pairing.Refs := fun _ _ hle _ _ h => h.mono hle

/-- Both results or both errors, and such that belong together. -/
inductive Sides {ε δ α β : Type} (E : ε → δ → Prop) (V : α → β → Prop) : Except ε α → Except δ β → Prop where
  | ok {a : α} {b : β} : V a b → Sides E V (.ok a) (.ok b)
  | error {e : ε} {f : δ} : E e f → Sides E V (.error e) (.error f)

/-- What the engine answers on both sides: references that are paired. -/
abbrev Pairing.Answer {α β : Type} (V : Pairing → α → β → Prop) (R : Pairing) : Except Ref α → Except Ref β → Prop :=
  Sides R.Refs (V R)

/-! ## Two computations -/

section Follows

variable {σ α β γ δ : Type} {P : Pairing → σ → σ → Prop} {R S : Pairing}
  {good : Pairing → α → β → Prop} {good' : Pairing → γ → δ → Prop}

/-- Where the first computation ended, the second one did too, in the same way, or it stopped at a reference
that is not held. -/
def Matched (P : Pairing → σ → σ → Prop) (S : Pairing) (good : Pairing → α → β → Prop) :
    Except Halt (α × σ) → Except Halt (β × σ) → Prop
  | .ok r, .ok u => ∃ T, S ≤ T ∧ P T r.2 u.2 ∧ good T r.1 u.1
  | .ok _, .error .tooDeep => False
  | .ok _, .error (.overReleased _) => True
  | .error _, _ => True

/-- From states that are paired so, or by more, the second computation does what the first one does. -/
def Follows (P : Pairing → σ → σ → Prop) (R : Pairing) (good : Pairing → α → β → Prop)
    (x : StateT σ (Except Halt) α) (y : StateT σ (Except Halt) β) : Prop :=
  ∀ S s t, R ≤ S → P S s t → Matched P S good (x s) (y t)

theorem Matched.weaken {x : Except Halt (α × σ)} {y : Except Halt (β × σ)} (h : Matched P S good x y) (hle : R ≤ S) :
    Matched P R good x y := by
  rcases x with _ | r <;> rcases y with (_ | _) | u
  all_goals first | exact h | skip
  obtain ⟨T, hST, hT⟩ := h
  exact ⟨T, le_trans hle hST, hT⟩

theorem Matched.mono {good₂ : Pairing → α → β → Prop} {x : Except Halt (α × σ)} {y : Except Halt (β × σ)}
    (h : Matched P S good x y) (hg : ∀ T a b, good T a b → good₂ T a b) : Matched P S good₂ x y := by
  rcases x with _ | r <;> rcases y with (_ | _) | u
  all_goals first | exact h | skip
  obtain ⟨T, hST, hP, hgood⟩ := h
  exact ⟨T, hST, hP, hg T _ _ hgood⟩

theorem Matched.bind {x : Except Halt (α × σ)} {y : Except Halt (β × σ)} {f : α × σ → Except Halt (γ × σ)}
    {g : β × σ → Except Halt (δ × σ)} (h : Matched P S good x y)
    (hf : ∀ T r u, S ≤ T → P T r.2 u.2 → good T r.1 u.1 → Matched P T good' (f r) (g u)) :
    Matched P S good' (x.bind f) (y.bind g) := by
  rcases x with _ | r
  · trivial
  · rcases y with (_ | _) | u
    · exact False.elim h
    · -- the second computation has stopped already, whatever is left of the first one
      rcases hr : f r with _ | v <;> simp only [Except.bind, hr] <;> trivial
    · obtain ⟨T, hST, hP, hgood⟩ := h
      exact (hf T r u hST hP hgood).weaken hST

theorem follows_pure {a : α} {b : β} (h : ∀ S, R ≤ S → good S a b) : Follows P R good (pure a) (pure b) :=
  fun S _ _ hle hP => ⟨S, le_refl S, hP, h S hle⟩

theorem follows_bind {x : StateT σ (Except Halt) α} {y : StateT σ (Except Halt) β}
    {f : α → StateT σ (Except Halt) γ} {g : β → StateT σ (Except Halt) δ} (h : Follows P R good x y)
    (hf : ∀ S a b, R ≤ S → good S a b → Follows P S good' (f a) (g b)) : Follows P R good' (x >>= f) (y >>= g) :=
  fun S s t hle hP => (h S s t hle hP).bind fun T r u hST hT hgood =>
    hf T r.1 u.1 (le_trans hle hST) hgood T r.2 u.2 (le_refl T) hT

theorem follows_map {x : StateT σ (Except Halt) α} {y : StateT σ (Except Halt) β} {f : α → γ} {g : β → δ}
    (h : Follows P R (fun T a b => good' T (f a) (g b)) x y) : Follows P R good' (f <$> x) (g <$> y) :=
  fun S s t hle hP => (h S s t hle hP).bind fun T _ _ _ hT hgood => ⟨T, le_refl T, hT, hgood⟩

end Follows

/-! ## Operations of the engine -/

theorem Payload.Paired.message_eq {R : Pairing} {p q : Payload} (h : p.Paired R q) : q.message = p.message := by
  cases h <;> rfl

namespace Engine

variable {R S : Pairing} {e f : Engine} {a b : Ref}

/-- Paired heaps, where the second engine nests calls at least as deeply. -/
structure Paired (R : Pairing) (e f : Engine) : Prop where
  heap : e.heap.Paired R f.heap
  depth : e.depth ≤ f.depth

theorem follows_issue {x y : Slot} (hxy : R x y) : Follows Paired R Pairing.Refs (issue x) (issue y) :=
  fun S _ _ hle hp => ⟨S, le_refl S, ⟨hp.heap.setRefs .., hp.depth⟩, hle _ _ hxy⟩

theorem follows_create (p : Payload) (hpay : ∀ R : Pairing, p.Paired R p) :
    Follows Paired R Pairing.Refs (create p) (create p) := by
  intro S e f _ hp
  refine (follows_issue (S.grow_self e.heap.size f.heap.size) (S.grow _ _) { e with heap := e.heap.push p }
    { f with heap := f.heap.push p } (le_refl _) ⟨hp.heap.push (hpay S), hp.depth⟩).weaken (S.le_grow _ _)

/-- Whatever is given back, no payload changes. -/
theorem follows_release (a b : Ref) : Follows Paired R (fun _ _ _ => True) (release a) (release b) := by
  intro S e f _ hp
  rcases hn : e.heap.refs a.slot with _ | n
  · rw [release_of_zero hn]; trivial
  · rw [release_of_succ hn]
    rcases hm : f.heap.refs b.slot with _ | m
    · rw [release_of_zero hm]; trivial
    · rw [release_of_succ hm]
      exact ⟨S, le_refl S, ⟨hp.heap.setRefs .., hp.depth⟩, trivial⟩

/-- Runs that do the same on both heaps, handed out. -/
theorem matched_runOut {r s : Run Slot} (hr : R.Mirrors r s fun T => T) (hle : R ≤ S) (hp : e.Paired S f) :
    Matched Paired S (Pairing.Answer Pairing.Refs) (runOut r e) (runOut s f) := by
  have hends := hr S e.heap f.heap hle hp.heap
  rw [runOut_eq, runOut_eq]
  generalize r.run e.heap = first at hends ⊢
  generalize s.run f.heap = second at hends ⊢
  rcases first with ⟨(x | _) | x, h⟩ <;> rcases second with ⟨(y | _) | y, k⟩
  all_goals first | exact False.elim hends | trivial | skip
  · obtain ⟨T, hST, hT, hxy⟩ := hends
    exact ⟨T, hST, ⟨hT.setRefs .., hp.depth⟩, .error hxy⟩
  · obtain ⟨T, hST, hT, hxy⟩ := hends
    exact ⟨T, hST, ⟨hT.setRefs .., hp.depth⟩, .ok hxy⟩

theorem mirrors_compileBody (params : String) (source : Bytes) :
    R.Mirrors (compileBody params source) (compileBody params source) fun _ => Eq := by
  unfold compileBody
  split
  · exact Pairing.mirrors_pure fun _ _ => rfl
  · exact Pairing.mirrors_bind (Pairing.mirrors_alloc (.error _)) fun _ _ _ _ hxy => Pairing.mirrors_throw hxy

theorem mirrors_allocFunction (params : String) (source : Bytes) :
    R.Mirrors (allocFunction params source) (allocFunction params source) fun T => T :=
  Pairing.mirrors_bind (mirrors_compileBody params source) fun S body _ _ heq => by
    subst heq
    exact Pairing.mirrors_alloc (.function body)

theorem mirrors_blobProgram {depth depth' : Nat} (hdepth : depth ≤ depth') (blob : Bytes) :
    R.Mirrors (blobProgram depth blob) (blobProgram depth' blob) fun T => T := by
  unfold blobProgram
  split
  · exact Pairing.mirrors_fail _
  · refine Pairing.mirrors_bind (mirrors_compileBody _ _) fun S body _ _ heq => ?_
    subst heq
    exact Pairing.mirrors_program hdepth body

theorem follows_compileFunction (name params : String) (source : Bytes) :
    Follows Paired R (Pairing.Answer Pairing.Refs) (compileFunction name params source)
      (compileFunction name params source) :=
  fun _ e f hle hp => matched_runOut (e := { e with parses := e.parses.push ⟨name, params⟩ })
    (f := { f with parses := f.parses.push ⟨name, params⟩ }) (mirrors_allocFunction params source) hle
    ⟨hp.heap, hp.depth⟩

theorem follows_loadRecord (blob : Bytes) (index : UInt32) :
    Follows Paired R (Pairing.Answer Pairing.Refs) (loadRecord blob index) (loadRecord blob index) := by
  intro S e f hle hp
  refine matched_runOut ?_ hle hp
  split
  · exact Pairing.mirrors_fail _
  · split
    · exact Pairing.mirrors_fail _
    · exact mirrors_allocFunction _ _

theorem follows_runBlob (blob : Bytes) :
    Follows Paired R (Pairing.Answer Pairing.Refs) (runBlob blob) (runBlob blob) := by
  intro S e f hle hp
  rw [runBlob_eq, runBlob_eq]
  exact matched_runOut (mirrors_blobProgram hp.depth blob) hle hp

theorem follows_applyFunction {args args' : List Ref} (hf : R.Refs a b) (ha : List.Forall₂ R.Refs args args') :
    Follows Paired R (Pairing.Answer Pairing.Refs) (applyFunction a args) (applyFunction b args') := by
  intro S e f hle hp
  rw [applyFunction_eq, applyFunction_eq]
  refine matched_runOut (e := { e with calls := e.calls + 1 }) (f := { f with calls := f.calls + 1 }) ?_ hle
    ⟨hp.heap, hp.depth⟩
  refine Pairing.answers_callWithin hp.depth R _ _ _ _ hf ?_
  rw [List.forall₂_map_left_iff, List.forall₂_map_right_iff]
  exact ha

theorem follows_readProperty (hab : R.Refs a b) (name : String) :
    Follows Paired R (Pairing.Answer Pairing.Refs) (readProperty a name) (readProperty b name) :=
  fun _ _ _ hle hp => matched_runOut (Pairing.mirrors_readProperty hab name) hle hp

theorem follows_writeProperty {v w : Ref} (hab : R.Refs a b) (hvw : R.Refs v w) (name : String) :
    Follows Paired R (Pairing.Answer fun _ _ _ => True) (writeProperty a name v) (writeProperty b name w) := by
  intro S e f hle hp
  have hends := Pairing.mirrors_writeProperty hab hvw name S e.heap f.heap hle hp.heap
  rw [writeProperty_eq, writeProperty_eq]
  generalize (Run.writeProperty a.slot name v.slot).run e.heap = first at hends ⊢
  generalize (Run.writeProperty b.slot name w.slot).run f.heap = second at hends ⊢
  rcases first with ⟨(x | _) | x, h⟩ <;> rcases second with ⟨(y | _) | y, k⟩
  all_goals first | exact False.elim hends | trivial | skip
  · obtain ⟨T, hST, hT, hxy⟩ := hends
    exact ⟨T, hST, ⟨hT.setRefs .., hp.depth⟩, .error hxy⟩
  · obtain ⟨T, hST, hT, -⟩ := hends
    exact ⟨T, hST, ⟨hT, hp.depth⟩, .ok trivial⟩

theorem textOf?_eq (hp : e.Paired R f) (hab : R.Refs a b) : f.textOf? b = e.textOf? a :=
  hp.heap.text?_eq hab

theorem messageOf_eq (hp : e.Paired R f) (hab : R.Refs a b) : f.messageOf b = e.messageOf a :=
  (hp.heap.payload hab).message_eq

end Engine

/-! ## Calls of the engine -/

namespace Host

variable {α β : Type} {R : Pairing} {a b : Ref} {good : Pairing → α → β → Prop}

/-- Paired engines, and the same guards. -/
structure Paired (R : Pairing) (h k : Host) : Prop where
  engine : h.engine.Paired R k.engine
  guards : k.guards = h.guards

theorem follows_call {x : EngineM α} {y : EngineM β} {entry : α → EngineCall} {entry' : β → EngineCall}
    (h : Follows Engine.Paired R good x y) : Follows Paired R good (call x entry) (call y entry') := by
  intro S s t hle hp
  have hm := h S s.engine t.engine hle hp.engine
  rw [call_eq, call_eq]
  generalize x s.engine = first at hm ⊢
  generalize y t.engine = second at hm ⊢
  rcases first with _ | r <;> rcases second with (_ | _) | u
  all_goals first | exact hm | skip
  obtain ⟨T, hST, hT, hgood⟩ := hm
  exact ⟨T, hST, ⟨hT, hp.guards⟩, hgood⟩

theorem follows_emit (event event' : Event) : Follows Paired R (fun _ _ _ => True) (emit event) (emit event') :=
  fun S _ _ _ hp => ⟨S, le_refl S, ⟨hp.engine, hp.guards⟩, trivial⟩

theorem follows_newUndefined : Follows Paired R Pairing.Refs newUndefined newUndefined :=
  follows_call (Engine.follows_create _ fun _ => .undefined)

theorem follows_newObject : Follows Paired R Pairing.Refs newObject newObject :=
  follows_call (Engine.follows_create _ fun _ => .emptyObject)

theorem follows_runBlob (blob : Bytes) :
    Follows Paired R (Pairing.Answer Pairing.Refs) (runBlob blob) (runBlob blob) :=
  follows_call (Engine.follows_runBlob blob)

theorem follows_compileFunction (name params : String) (source : Bytes) :
    Follows Paired R (Pairing.Answer Pairing.Refs) (compileFunction name params source)
      (compileFunction name params source) :=
  follows_call (Engine.follows_compileFunction name params source)

theorem follows_loadRecord (blob : Bytes) (index : UInt32) :
    Follows Paired R (Pairing.Answer Pairing.Refs) (loadRecord blob index) (loadRecord blob index) :=
  follows_call (Engine.follows_loadRecord blob index)

theorem follows_applyFunction (this this' : Ref) {args args' : List Ref} (hf : R.Refs a b)
    (ha : List.Forall₂ R.Refs args args') :
    Follows Paired R (Pairing.Answer Pairing.Refs) (applyFunction a this args) (applyFunction b this' args') :=
  follows_call (Engine.follows_applyFunction hf ha)

theorem follows_acquire (hab : R.Refs a b) : Follows Paired R Pairing.Refs (acquire a) (acquire b) :=
  follows_call (Engine.follows_issue hab)

theorem follows_release (a b : Ref) : Follows Paired R (fun _ _ _ => True) (release a) (release b) :=
  follows_call (Engine.follows_release a b)

/-- A text is the same on both hosts. -/
theorem follows_textOf (hab : R.Refs a b) : Follows Paired R (fun _ => Eq) (textOf a) (textOf b) :=
  follows_call fun S _ _ hle hp => ⟨S, le_refl S, hp, (Engine.textOf?_eq hp (hab.mono hle)).symm⟩

theorem follows_messageOf (hab : R.Refs a b) : Follows Paired R (fun _ => Eq) (messageOf a) (messageOf b) :=
  follows_call fun S _ _ hle hp => ⟨S, le_refl S, hp, (Engine.messageOf_eq hp (hab.mono hle)).symm⟩

/-- What stands in for a property that is guarded. -/
theorem follows_guarded (V : Pairing → α → β → Prop) (message : String) :
    Follows Engine.Paired R (Pairing.Answer V) (.error <$> Engine.newError message)
      (.error <$> Engine.newError message) :=
  follows_map fun S e f hle hp =>
    (Engine.follows_create (.error message) (fun _ => .error message) S e f hle hp).mono fun _ _ _ hab => .error hab

theorem follows_readProperty (hab : R.Refs a b) (name : String) :
    Follows Paired R (Pairing.Answer Pairing.Refs) (readProperty a name) (readProperty b name) := by
  intro S h k hle hp
  show Matched _ _ _ (call (if name ∈ h.guards.reads then _ else _) _ h)
    (call (if name ∈ k.guards.reads then _ else _) _ k)
  rw [hp.guards]
  refine follows_call ?_ S h k hle hp
  split
  · exact follows_guarded _ _
  · exact Engine.follows_readProperty hab name

theorem follows_writeProperty {v w : Ref} (hab : R.Refs a b) (hvw : R.Refs v w) (name : String) :
    Follows Paired R (Pairing.Answer fun _ _ _ => True) (writeProperty a name v) (writeProperty b name w) := by
  intro S h k hle hp
  show Matched _ _ _ (call (if name ∈ h.guards.writes then _ else _) _ h)
    (call (if name ∈ k.guards.writes then _ else _) _ k)
  rw [hp.guards]
  refine follows_call ?_ S h k hle hp
  split
  · exact follows_guarded _ _
  · exact Engine.follows_writeProperty hab hvw name

end Host

/-! ## Attempts -/

/-- Results that belong together, or the same error with the same texts. -/
abbrev Pairing.Outcome {α β : Type} (good : Pairing → α → β → Prop) (R : Pairing) :
    Except HostError α → Except HostError β → Prop :=
  Sides Eq (good R)

theorem Pairing.monotone_outcome {α β : Type} {good : Pairing → α → β → Prop} (hg : Monotone good) :
    Monotone (Pairing.Outcome good) := by
  intro R S hle x y h
  cases h with
  | ok hab => exact .ok (hg hle _ _ hab)
  | error he => exact .error he

namespace Attempt

variable {α β γ δ : Type} {R : Pairing} {good : Pairing → α → β → Prop} {good' : Pairing → γ → δ → Prop}

/-- The second attempt comes to what the first one comes to. -/
def Follows (R : Pairing) (good : Pairing → α → β → Prop) (x : Attempt α) (y : Attempt β) : Prop :=
  ScriptHost.Follows Host.Paired R (Pairing.Outcome good) x.run y.run

theorem follows_outcome {x : Except HostError α} {y : Except HostError β} (h : ∀ S, R ≤ S → S.Outcome good x y) :
    Follows R good (ExceptT.mk (pure x)) (ExceptT.mk (pure y)) :=
  ScriptHost.follows_pure h

theorem follows_pure {a : α} {b : β} (h : ∀ S, R ≤ S → good S a b) :
    Follows R good (pure a : Attempt α) (pure b : Attempt β) :=
  follows_outcome fun S hle => .ok (h S hle)

theorem follows_throw (e : HostError) : Follows R good (throw e : Attempt α) (throw e : Attempt β) :=
  follows_outcome fun _ _ => .error rfl

theorem follows_lift {x : HostM α} {y : HostM β} (h : ScriptHost.Follows Host.Paired R good x y) :
    Follows R good (liftM x) (liftM y) := by
  refine follows_map fun S s t hle hp => ?_
  exact (h S s t hle hp).mono fun _ _ _ hgood => .ok hgood

theorem follows_bind {x : Attempt α} {y : Attempt β} {f : α → Attempt γ} {g : β → Attempt δ} (h : Follows R good x y)
    (hf : ∀ S a b, R ≤ S → good S a b → Follows S good' (f a) (g b)) : Follows R good' (x >>= f) (y >>= g) := by
  refine ScriptHost.follows_bind h fun S r u hle hru => ?_
  cases hru with
  | ok hab => exact hf S _ _ hle hab
  | error he => exact ScriptHost.follows_pure fun _ _ => .error he

/-- A call of the host comes first. -/
theorem follows_call {x : HostM α} {y : HostM β} {f : α → Attempt γ} {g : β → Attempt δ}
    (h : ScriptHost.Follows Host.Paired R good x y)
    (hf : ∀ S a b, R ≤ S → good S a b → Follows S good' (f a) (g b)) :
    Follows R good' (liftM x >>= f) (liftM y >>= g) :=
  follows_bind (follows_lift h) hf

theorem follows_holding (hg : Monotone good) {a b : Ref} {x : Attempt α} {y : Attempt β} (h : Follows R good x y) :
    Follows R good (holding a x) (holding b y) := by
  refine ScriptHost.follows_bind h fun S r u _ hru => ?_
  refine ScriptHost.follows_bind (Host.follows_release a b) fun T _ _ hT _ => ?_
  exact ScriptHost.follows_pure fun U hU => Pairing.monotone_outcome hg (le_trans hT hU) _ _ hru

end Attempt

/-! ## Factories -/

namespace Factory

variable {R : Pairing}

/-- Factories of one name with paired functions. -/
structure Paired (R : Pairing) (f g : Factory) : Prop where
  name : g.name = f.name
  function : R.Refs f.function g.function

theorem monotone_paired : Monotone Paired := fun _ _ hle _ _ h => ⟨h.name, h.function.mono hle⟩

theorem follows_compile (name : String) (source : Bytes) :
    Attempt.Follows R Paired (compile name source) (compile name source) := by
  refine Attempt.follows_call (Host.follows_emit _ _) fun S _ _ _ _ => ?_
  refine Attempt.follows_call (Host.follows_compileFunction name signature source) fun T r u _ hru => ?_
  cases hru with
  | ok hab => exact Attempt.follows_pure fun U hU => ⟨rfl, hab.mono hU⟩
  | error hab =>
    refine Attempt.follows_holding monotone_paired ?_
    refine Attempt.follows_call (Host.follows_messageOf hab) fun U message _ _ heq => ?_
    subst heq
    exact Attempt.follows_call (Host.follows_emit _ _) fun _ _ _ _ _ => Attempt.follows_throw _

theorem follows_orCorrupt {r u : Except Ref Ref} (h : R.Answer Pairing.Refs r u) :
    Attempt.Follows R Pairing.Refs (orCorrupt r) (orCorrupt u) := by
  cases h with
  | ok hab => exact Attempt.follows_pure fun U hU => hab.mono hU
  | error hab =>
    refine Attempt.follows_holding Pairing.monotone_refs ?_
    refine Attempt.follows_call (Host.follows_messageOf hab) fun U message _ _ heq => ?_
    subst heq
    exact Attempt.follows_throw _

theorem follows_ofRecord (name : String) (blob : Bytes) (index : UInt32) :
    Attempt.Follows R Paired (ofRecord name blob index) (ofRecord name blob index) := by
  unfold ofRecord
  split
  · exact Attempt.follows_throw _
  · refine Attempt.follows_call (Host.follows_emit _ _) fun S _ _ _ _ => ?_
    refine Attempt.follows_call (Host.follows_loadRecord blob index) fun T r u _ hru => ?_
    exact Attempt.follows_bind (follows_orCorrupt hru) fun U f g _ hfg =>
      Attempt.follows_pure fun V hV => ⟨rfl, hfg.mono hV⟩

/-- Factories that were made on both hosts, or on neither, are called with paired values. -/
theorem follows_call {r u : Except HostError Factory} {args args' : Args} (h : R.Outcome Paired r u)
    (ha : List.Forall₂ R.Refs args.toList args'.toList) :
    Attempt.Follows R Pairing.Refs (call r args) (call u args') := by
  have hcompiled : Attempt.Follows R Paired (ExceptT.mk (pure r)) (ExceptT.mk (pure u)) :=
    Attempt.follows_outcome fun S hS => Pairing.monotone_outcome monotone_paired hS _ _ h
  refine Attempt.follows_bind hcompiled fun S f g hS hfg => ?_
  refine Attempt.follows_call Host.follows_newUndefined fun T this this' hT _ => ?_
  refine Attempt.follows_holding Pairing.monotone_refs ?_
  refine Attempt.follows_call (Host.follows_emit _ _) fun U _ _ hU _ => ?_
  have hargs : List.Forall₂ U.Refs args.toList args'.toList :=
    ha.imp fun _ _ hab => hab.mono (le_trans hS (le_trans hT hU))
  refine Attempt.follows_call (Host.follows_applyFunction this this' (hfg.function.mono (le_trans hT hU)) hargs)
    fun V c d _ hcd => ?_
  refine Attempt.follows_call (Host.follows_release _ _) fun W _ _ hW _ => ?_
  cases hcd with
  | ok hab => exact Attempt.follows_pure fun X hX => hab.mono (le_trans hW hX)
  | error hab =>
    refine Attempt.follows_holding Pairing.monotone_refs ?_
    refine Attempt.follows_call (Host.follows_messageOf (hab.mono hW)) fun X message _ _ heq => ?_
    subst heq
    rw [hfg.name]
    exact Attempt.follows_call (Host.follows_emit _ _) fun _ _ _ _ _ => Attempt.follows_throw _

end Factory

end ScriptHost
