/-
Two heaps side by side. A pairing leads from slots of the one to slots of the other, one to one, so that
paired slots hold the same, but that the properties of objects are paired and not equal. A script cannot
tell slots apart other than by what they hold. So a run does the same on both heaps, and what it allocates
on the one is paired with what it allocates on the other, however many cells either of them has besides.

The pairing grows with each allocation; a write keeps it because no slot has two partners. The second run
may be allowed to nest calls more deeply than the first one.
-/
import ScriptHost.Proofs.Engine.Confinement

namespace ScriptHost

open Script

/-! ## Pairings -/

/-- Which slots of one heap belong to which of another. -/
abbrev Pairing := Slot → Slot → Prop

/-- One pair more. -/
def Pairing.grow (R : Pairing) (a b : Slot) : Pairing := fun x y => R x y ∨ (x = a ∧ y = b)

theorem Pairing.le_grow (R : Pairing) (a b : Slot) : R ≤ R.grow a b := fun _ _ => .inl

theorem Pairing.grow_self (R : Pairing) (a b : Slot) : R.grow a b a b := .inr ⟨rfl, rfl⟩

/-- The same payload, up to the slots of properties. -/
inductive Payload.Paired (R : Pairing) : Payload → Payload → Prop where
  | undefined : Paired R .undefined .undefined
  | bool (value : Bool) : Paired R (.bool value) (.bool value)
  | number (value : Float) : Paired R (.number value) (.number value)
  | text (value : String) : Paired R (.text value) (.text value)
  | object {properties properties' : Table Slot} :
      (∀ name, Option.Rel R (properties.get? name) (properties'.get? name)) →
      Paired R (.object properties) (.object properties')
  | error (message : String) : Paired R (.error message) (.error message)
  | function (body : Body) : Paired R (.function body) (.function body)
  | moduleLookup (modules : Table Float) : Paired R (.moduleLookup modules) (.moduleLookup modules)

section Rel

variable {α β : Type} {R S : α → β → Prop} {x : Option α} {y : Option β}

theorem rel_mono (hle : R ≤ S) (h : Option.Rel R x y) : Option.Rel S x y := by
  cases h with
  | some h => exact .some (hle _ _ h)
  | none => exact .none

theorem rel_flip (h : Option.Rel R x y) : Option.Rel (flip R) y x := by
  cases h with
  | some h => exact .some h
  | none => exact .none

theorem exists_of_rel_some {a : α} (h : Option.Rel R (some a) y) : ∃ b, y = some b ∧ R a b := by
  cases h with
  | some h => exact ⟨_, rfl, h⟩

end Rel

theorem Payload.Paired.mono {R S : Pairing} {p q : Payload} (h : p.Paired R q) (hle : R ≤ S) : p.Paired S q := by
  cases h with
  | object h => exact .object fun name => rel_mono hle (h name)
  | _ => constructor

theorem Payload.Paired.emptyObject {R : Pairing} : Payload.Paired R .emptyObject .emptyObject :=
  .object fun _ => .none

/-- The slots that are paired are cells of their heaps and have one partner each, with the same payload. -/
structure Heap.Paired (R : Pairing) (h k : Heap) : Prop where
  oneToOne : Relator.BiUnique R
  cells : ∀ {x y}, R x y → x < h.size ∧ y < k.size
  payload : ∀ {x y}, R x y → (h.payload x).Paired R (k.payload y)

namespace Heap.Paired

variable {R : Pairing} {h k : Heap} {x y v w : Slot} {p q : Payload}

/-- New cells are paired with each other. -/
theorem push (hp : h.Paired R k) (hpay : p.Paired R q) : (h.push p).Paired (R.grow h.size k.size) (k.push q) := by
  have hle := R.le_grow h.size k.size
  -- slots that were paired before lie below both sizes, so the new ones have no partner among them
  constructor
  · constructor
    · rintro a b c (ha | ⟨rfl, rfl⟩) (hb | ⟨rfl, hc⟩)
      · exact hp.oneToOne.1 ha hb
      · exact absurd hc (Nat.ne_of_lt (hp.cells ha).2)
      · exact absurd rfl (Nat.ne_of_lt (hp.cells hb).2)
      · rfl
    · rintro a b c (ha | ⟨rfl, rfl⟩) (hb | ⟨hc, rfl⟩)
      · exact hp.oneToOne.2 ha hb
      · exact absurd hc (Nat.ne_of_lt (hp.cells ha).1)
      · exact absurd rfl (Nat.ne_of_lt (hp.cells hb).1)
      · rfl
  · intro a b hab
    rw [size_push, size_push]
    rcases hab with hab | ⟨rfl, rfl⟩
    · exact (hp.cells hab).imp Nat.lt_succ_of_lt Nat.lt_succ_of_lt
    · exact ⟨Nat.lt_succ_self _, Nat.lt_succ_self _⟩
  · rintro a b (hab | ⟨rfl, rfl⟩)
    · rw [payload_push_of_lt (hp.cells hab).1, payload_push_of_lt (hp.cells hab).2]
      exact (hp.payload hab).mono hle
    · rw [payload_push, if_pos rfl, payload_push, if_pos rfl]
      exact hpay.mono hle

/-- Paired objects get paired properties. That they have no other partners keeps the rest as it is. -/
theorem write (hp : h.Paired R k) (hxy : R x y) (hpay : p.Paired R q) :
    (h.setPayload x p).Paired R (k.setPayload y q) := by
  refine ⟨hp.oneToOne, fun hab => ?_, fun {a b} hab => ?_⟩
  · rw [size_setPayload, size_setPayload]; exact hp.cells hab
  · rw [payload_setPayload, payload_setPayload]
    by_cases ha : a = x
    · subst ha
      obtain rfl := hp.oneToOne.2 hab hxy
      rw [if_pos ⟨rfl, (hp.cells hab).1⟩, if_pos ⟨rfl, (hp.cells hab).2⟩]
      exact hpay
    · have hb : b ≠ y := by
        rintro rfl
        exact ha (hp.oneToOne.1 hab hxy)
      rw [if_neg fun hc => ha hc.1, if_neg fun hc => hb hc.1]
      exact hp.payload hab

/-- Counts of references do not matter. -/
theorem setRefs (hp : h.Paired R k) (x y : Slot) (n m : Nat) : (h.setRefs x n).Paired R (k.setRefs y m) := by
  refine ⟨hp.oneToOne, fun hab => ?_, fun hab => ?_⟩
  · rw [size_setRefs, size_setRefs]; exact hp.cells hab
  · rw [payload_setRefs, payload_setRefs]; exact hp.payload hab

theorem text?_eq (hp : h.Paired R k) (hxy : R x y) : k.text? y = h.text? x := by
  have hpay := hp.payload hxy
  unfold text?
  generalize h.payload x = a at *
  generalize k.payload y = b at *
  cases hpay <;> rfl

/-- What is read of paired objects is paired. -/
theorem properties (hp : h.Paired R k) (hxy : R x y) (name : String) :
    Option.Rel R ((h.properties x).get? name) ((k.properties y).get? name) := by
  have hpay := hp.payload hxy
  rw [properties_eq, properties_eq]
  generalize h.payload x = a at *
  generalize k.payload y = b at *
  cases hpay with
  | object hprops => exact hprops name
  | _ => exact .none

end Heap.Paired

/-! ## Reachable slots -/

theorem Payload.Paired.flip {R : Pairing} {p q : Payload} (h : p.Paired R q) : q.Paired (flip R) p := by
  cases h with
  | object h => exact .object fun name => rel_flip (h name)
  | _ => constructor

theorem Heap.Paired.flip {R : Pairing} {h k : Heap} (hp : h.Paired R k) : k.Paired (flip R) h :=
  ⟨⟨fun _ _ _ ha hb => hp.oneToOne.2 ha hb, fun _ _ _ ha hb => hp.oneToOne.1 ha hb⟩,
    fun hab => (hp.cells hab).symm, fun hab => (hp.payload hab).flip⟩

/-- What some roots reach is paired with what their partners reach. -/
theorem Heap.Paired.reaches {R : Pairing} {h k : Heap} (hp : h.Paired R k) {roots roots' : List Slot}
    (hroots : ∀ x ∈ roots, ∃ y ∈ roots', R x y) {x : Slot} (hx : h.Reaches roots x) :
    ∃ y, R x y ∧ k.Reaches roots' y := by
  induction hx with
  | root hx =>
    obtain ⟨y, hy, hxy⟩ := hroots _ hx
    exact ⟨y, hxy, .root hy⟩
  | @step x next name _ hnext ih =>
    obtain ⟨y, hxy, hy⟩ := ih
    obtain ⟨next', hnext', hrel⟩ := exists_of_rel_some (hnext ▸ hp.properties hxy name)
    exact ⟨next', hrel, hy.step hnext'⟩

/-! ## Composing runs -/

namespace Pairing

variable {α β γ δ : Type} {R S : Pairing}

/-- What two runs come to: results that belong together or thrown values that are paired, on heaps that are
paired by more. Where the first one nests calls too deeply nothing is said of the second one. -/
def Ends (S : Pairing) (good : Pairing → α → β → Prop) : Except Stop α × Heap → Except Stop β × Heap → Prop
  | (.ok a, h), (.ok b, k) => ∃ T, S ≤ T ∧ h.Paired T k ∧ good T a b
  | (.error (.thrown x), h), (.error (.thrown y), k) => ∃ T, S ≤ T ∧ h.Paired T k ∧ T x y
  | (.error .tooDeep, _), _ => True
  | _, _ => False

/-- From any heaps that are paired so, or by more, the runs come to the same. -/
def Mirrors (R : Pairing) (r : Run α) (s : Run β) (good : Pairing → α → β → Prop) : Prop :=
  ∀ S h k, R ≤ S → h.Paired S k → S.Ends good (r.run h) (s.run k)

variable {good : Pairing → α → β → Prop} {good' : Pairing → γ → δ → Prop}

theorem Ends.weaken {x : Except Stop α × Heap} {y : Except Stop β × Heap} (h : S.Ends good x y) (hle : R ≤ S) :
    R.Ends good x y := by
  rcases x with ⟨(x | _) | a, h₁⟩ <;> rcases y with ⟨(y | _) | b, k₁⟩
  all_goals first | exact False.elim h | trivial | skip
  · obtain ⟨T, hST, hT⟩ := h; exact ⟨T, le_trans hle hST, hT⟩
  · obtain ⟨T, hST, hT⟩ := h; exact ⟨T, le_trans hle hST, hT⟩

theorem mirrors_pure {a : α} {b : β} (h : ∀ S, R ≤ S → good S a b) :
    R.Mirrors (pure a : Run α) (pure b : Run β) good :=
  fun S _ _ hle hp => ⟨S, le_refl S, hp, h S hle⟩

theorem mirrors_bind {r : Run α} {s : Run β} {f : α → Run γ} {g : β → Run δ} (h : R.Mirrors r s good)
    (hf : ∀ S a b, R ≤ S → good S a b → S.Mirrors (f a) (g b) good') : R.Mirrors (r >>= f) (s >>= g) good' := by
  intro S h₀ k₀ hle hp
  have hends := h S h₀ k₀ hle hp
  rw [Region.run_bind, Region.run_bind]
  generalize r.run h₀ = first at hends ⊢
  generalize s.run k₀ = second at hends ⊢
  rcases first with ⟨(x | _) | a, h₁⟩ <;> rcases second with ⟨(y | _) | b, k₁⟩
  all_goals first | exact False.elim hends | exact hends | trivial | skip
  -- what is left starts from all the pairs that were made on the way
  obtain ⟨T, hST, hT, hgood⟩ := hends
  exact (hf T a b (le_trans hle hST) hgood T h₁ k₁ (le_refl T) hT).weaken hST

theorem mirrors_get {f : Heap → Run α} {g : Heap → Run β}
    (h : ∀ S h k, R ≤ S → h.Paired S k → S.Ends good ((f h).run h) ((g k).run k)) :
    R.Mirrors (get >>= f) (get >>= g) good :=
  h

/-! ## Single steps -/

theorem mirrors_alloc {p q : Payload} (hpay : p.Paired R q) : R.Mirrors (Run.alloc p) (Run.alloc q) fun T => T :=
  fun S h k hle hp => ⟨S.grow h.size k.size, S.le_grow _ _, hp.push (hpay.mono hle), S.grow_self _ _⟩

theorem mirrors_throw {x y : Slot} (hxy : R x y) :
    R.Mirrors (throw (.thrown x) : Run α) (throw (.thrown y) : Run β) good :=
  fun S _ _ hle hp => ⟨S, le_refl S, hp, hle x y hxy⟩

theorem mirrors_fail (error : RuntimeError) :
    R.Mirrors (Run.fail error : Run α) (Run.fail error : Run β) good :=
  mirrors_bind (mirrors_alloc (.error _)) fun _ _ _ _ hxy => mirrors_throw hxy

theorem mirrors_readProperty {x y : Slot} (hxy : R x y) (name : String) :
    R.Mirrors (Run.readProperty x name) (Run.readProperty y name) fun T => T := by
  refine mirrors_get fun S h k hle hp => ?_
  have hpay := hp.payload (hle x y hxy)
  generalize h.payload x = p at hpay ⊢
  generalize k.payload y = q at hpay ⊢
  cases hpay with
  | object hprops =>
    rename_i properties properties'
    have hrel := hprops name
    dsimp only
    generalize properties.get? name = a at hrel ⊢
    generalize properties'.get? name = b at hrel ⊢
    -- both sides have the property, or both allocate
    cases hrel with
    | some hab => exact ⟨S, le_refl S, hp, hab⟩
    | none => exact mirrors_alloc .undefined S h k (le_refl S) hp
  | undefined => exact mirrors_fail _ S h k (le_refl S) hp
  | _ => exact mirrors_alloc .undefined S h k (le_refl S) hp

theorem mirrors_writeProperty {x y v w : Slot} (hxy : R x y) (hvw : R v w) (name : String) :
    R.Mirrors (Run.writeProperty x name v) (Run.writeProperty y name w) fun _ _ _ => True := by
  refine mirrors_get fun S h k hle hp => ?_
  have hpay := hp.payload (hle x y hxy)
  generalize h.payload x = p at hpay ⊢
  generalize k.payload y = q at hpay ⊢
  cases hpay with
  | object hprops =>
    refine ⟨S, le_refl S, hp.write (hle x y hxy) (.object fun other => ?_), trivial⟩
    rw [Table.get?_insert, Table.get?_insert]
    split
    · exact .some (hle v w hvw)
    · exact hprops other
  | _ => exact mirrors_fail _ S h k (le_refl S) hp

/-! ## Expressions -/

/-- The same names, bound to paired slots. -/
def Binds (R : Pairing) : Locals → Locals → Prop := List.Forall₂ fun b c => c.1 = b.1 ∧ R b.2 c.2

theorem Binds.mono {locals locals' : Locals} (h : R.Binds locals locals') (hle : R ≤ S) : S.Binds locals locals' :=
  h.imp fun _ _ hb => ⟨hb.1, hle _ _ hb.2⟩

theorem forall₂_mono {xs ys : List Slot} (h : List.Forall₂ R xs ys) (hle : R ≤ S) : List.Forall₂ S xs ys :=
  h.imp fun _ _ => hle _ _

theorem Binds.lookup {locals locals' : Locals} (h : R.Binds locals locals') (name : String) :
    Option.Rel R (locals.lookup name) (locals'.lookup name) := by
  induction h with
  | nil => exact .none
  | cons hb _ ih =>
    rw [List.lookup_cons, List.lookup_cons, hb.1]
    split
    · exact .some hb.2
    · exact ih

/-- Calls of paired functions with paired arguments come to the same. -/
def Answers (call call' : Caller) : Prop :=
  ∀ (R : Pairing) f f' args args', R f f' → List.Forall₂ R args args' →
    R.Mirrors (call f args) (call' f' args') fun T => T

theorem mirrors_foldlM_readProperty : ∀ (names : List String) {R : Pairing} {x y : Slot}, R x y →
    R.Mirrors (names.foldlM Run.readProperty x) (names.foldlM Run.readProperty y) fun T => T
  | [], _, _, _, hxy => mirrors_pure fun _ hle => hle _ _ hxy
  | name :: names, _, _, _, hxy => by
    rw [List.foldlM_cons, List.foldlM_cons]
    exact mirrors_bind (mirrors_readProperty hxy name) fun _ _ _ _ hab => mirrors_foldlM_readProperty names hab

theorem mirrors_readPath {locals locals' : Locals} (hl : R.Binds locals locals') (names : List String) :
    R.Mirrors (Run.readPath locals names) (Run.readPath locals' names) fun T => T := by
  cases names with
  | nil => exact mirrors_fail _
  | cons first rest =>
    have hrel := hl.lookup first
    unfold Run.readPath
    dsimp only
    generalize locals.lookup first = a at hrel ⊢
    generalize locals'.lookup first = b at hrel ⊢
    cases hrel with
    | some hab => exact mirrors_foldlM_readProperty rest hab
    | none => exact mirrors_fail _

mutual

theorem mirrors_eval {call call' : Caller} (hc : Answers call call') {locals locals' : Locals} {R : Pairing}
    (hl : R.Binds locals locals') : ∀ e : Expr, R.Mirrors (Run.eval call locals e) (Run.eval call' locals' e) fun T => T
  | .undefined => mirrors_alloc .undefined
  | .bool _ => mirrors_alloc (.bool _)
  | .number _ => mirrors_alloc (.number _)
  | .text _ => mirrors_alloc (.text _)
  | .object => mirrors_alloc .emptyObject
  | .error _ => mirrors_alloc (.error _)
  | .path names => mirrors_readPath hl names
  | .call callee args => by
    unfold Run.eval
    refine mirrors_bind (mirrors_readPath hl callee) fun S f f' hS hf => ?_
    refine mirrors_bind (mirrors_evalAll hc (hl.mono hS) args) fun T slots slots' hT hslots => ?_
    exact hc T f f' slots slots' (hT _ _ hf) hslots

theorem mirrors_evalAll {call call' : Caller} (hc : Answers call call') {locals locals' : Locals} {R : Pairing}
    (hl : R.Binds locals locals') : ∀ args : List Expr,
      R.Mirrors (Run.evalAll call locals args) (Run.evalAll call' locals' args) fun T => List.Forall₂ T
  | [] => mirrors_pure fun _ _ => .nil
  | arg :: args => by
    unfold Run.evalAll
    refine mirrors_bind (mirrors_eval hc hl arg) fun S x y hS hxy => ?_
    refine mirrors_bind (mirrors_evalAll hc (hl.mono hS) args) fun T slots slots' hT hslots => ?_
    exact mirrors_pure fun U hU => .cons (hU _ _ (hT _ _ hxy)) (forall₂_mono hslots hU)

end

/-! ## Statements -/

/-- What is carried from one statement to the next is paired. -/
structure Carries (R : Pairing) (p q : Run.Progress) : Prop where
  locals : R.Binds p.locals q.locals
  last : Option.Rel R p.last q.last

/-- The ends of a statement are paired. -/
inductive Flows (R : Pairing) : Run.Flow → Run.Flow → Prop where
  | next {p q : Run.Progress} : R.Carries p q → Flows R (.next p) (.next q)
  | returned {x y : Slot} : R x y → Flows R (.returned x) (.returned y)

theorem Carries.mono {p q : Run.Progress} (h : R.Carries p q) (hle : R ≤ S) : S.Carries p q :=
  ⟨h.locals.mono hle, rel_mono hle h.last⟩

theorem mirrors_assign {locals locals' : Locals} {v w : Slot} (hl : R.Binds locals locals') (hvw : R v w)
    (target : List String) :
    R.Mirrors (Run.assign locals v target) (Run.assign locals' w target) fun T => T.Binds := by
  unfold Run.assign
  split
  · exact mirrors_fail _
  · exact mirrors_pure fun S hS => .cons ⟨rfl, hS _ _ hvw⟩ (hl.mono hS)
  · refine mirrors_bind (mirrors_readPath hl _) fun S x y hS hxy => ?_
    refine mirrors_bind (mirrors_writeProperty hxy (hS _ _ hvw) _) fun T _ _ hT _ => ?_
    exact mirrors_pure fun U hU => hl.mono (le_trans hS (le_trans hT hU))

theorem mirrors_step {call call' : Caller} (hc : Answers call call') {p q : Run.Progress} (hp : R.Carries p q) :
    ∀ s : Statement, R.Mirrors (Run.step call p s) (Run.step call' q s) Flows
  | .assign target e => by
    refine mirrors_bind (mirrors_eval hc hp.locals e) fun S v w hS hvw => ?_
    refine mirrors_bind (mirrors_assign (hp.locals.mono hS) hvw target) fun T locals locals' hT hl => ?_
    exact mirrors_pure fun U hU => .next ⟨hl.mono hU, (hp.mono (le_trans hS (le_trans hT hU))).last⟩
  | .throw e => mirrors_bind (mirrors_eval hc hp.locals e) fun _ _ _ _ hvw => mirrors_throw hvw
  | .return (some e) =>
    mirrors_bind (mirrors_eval hc hp.locals e) fun _ _ _ _ hvw =>
      mirrors_pure fun _ hU => .returned (hU _ _ hvw)
  | .return none =>
    mirrors_bind (mirrors_alloc .undefined) fun _ _ _ _ hvw => mirrors_pure fun _ hU => .returned (hU _ _ hvw)
  | .expr e => by
    refine mirrors_bind (mirrors_eval hc hp.locals e) fun S v w hS hvw => ?_
    exact mirrors_pure fun U hU => .next ⟨(hp.mono (le_trans hS hU)).locals, .some (hU _ _ hvw)⟩

theorem mirrors_steps {call call' : Caller} (hc : Answers call call') : ∀ (statements : List Statement)
    {R : Pairing} {p q : Run.Progress}, R.Carries p q →
      R.Mirrors (Run.steps call p statements) (Run.steps call' q statements) Flows
  | [], _, _, _, hp => mirrors_pure fun _ hS => .next (hp.mono hS)
  | s :: rest, _, _, _, hp => by
    unfold Run.steps
    refine mirrors_bind (mirrors_step hc hp s) fun S flow flow' _ hf => ?_
    cases hf with
    | next hp => exact mirrors_steps hc rest hp
    | returned hxy => exact mirrors_pure fun _ hU => .returned (hU _ _ hxy)

/-! ## Bodies and calls -/

theorem mirrors_bindParams : ∀ (params : List String) {args args' : List Slot} {R : Pairing}
    {locals locals' : Locals}, R.Binds locals locals' → List.Forall₂ R args args' →
      R.Mirrors (Run.bindParams locals params args) (Run.bindParams locals' params args') fun T => T.Binds
  | [], _, _, _, _, _, hl, _ => by
    unfold Run.bindParams
    exact mirrors_pure fun _ hS => hl.mono hS
  | param :: params, _, _, _, _, _, hl, .nil => by
    unfold Run.bindParams
    refine mirrors_bind (mirrors_alloc .undefined) fun S x y hS hxy => ?_
    exact mirrors_bindParams params (.cons ⟨rfl, hxy⟩ (hl.mono hS)) .nil
  | param :: params, _, _, _, _, _, hl, .cons hxy hargs => by
    unfold Run.bindParams
    exact mirrors_bindParams params (.cons ⟨rfl, hxy⟩ hl) hargs

theorem mirrors_body {call call' : Caller} (hc : Answers call call') (b : Body) {args args' : List Slot}
    (ha : List.Forall₂ R args args') : R.Mirrors (Run.body call b args) (Run.body call' b args') Flows :=
  mirrors_bind (mirrors_bindParams b.params .nil ha) fun _ _ _ _ hl => mirrors_steps hc b.statements ⟨hl, .none⟩

/-- A name is looked up by its text, whichever slot it has. -/
theorem mirrors_lookUpModule (modules : Table Float) {args args' : List Slot} (ha : List.Forall₂ R args args') :
    R.Mirrors (Run.lookUpModule modules args) (Run.lookUpModule modules args') fun T => T := by
  refine mirrors_get fun S h k hle hp => ?_
  have hname : args'.head?.bind k.text? = args.head?.bind h.text? := by
    cases ha with
    | nil => rfl
    | cons hxy _ => exact hp.text?_eq (hle _ _ hxy)
  dsimp only
  rw [hname]
  split
  · exact mirrors_alloc (.number _) S h k (le_refl S) hp
  · exact mirrors_fail _ S h k (le_refl S) hp

/-- Calls come to the same, also where the second engine nests them more deeply. -/
theorem answers_callWithin : ∀ {depth depth' : Nat}, depth ≤ depth' →
    Answers (Run.callWithin depth) (Run.callWithin depth') := by
  intro depth
  -- a body calls with one level less, so the calls inside it are mirrored before it is
  induction depth with
  | zero =>
    intro depth' _ R f f' args args' hf ha
    unfold Run.callWithin
    refine mirrors_get fun S h k hle hp => ?_
    have hpay := hp.payload (hle _ _ hf)
    generalize h.payload f = p at hpay ⊢
    generalize k.payload f' = q at hpay ⊢
    cases hpay with
    | function b => trivial
    | moduleLookup modules => exact mirrors_lookUpModule modules ha S h k hle hp
    | _ => exact mirrors_fail _ S h k hle hp
  | succ depth ih =>
    intro depth' hdepth R f f' args args' hf ha
    obtain ⟨depth', rfl⟩ := Nat.exists_eq_add_one_of_ne_zero (Nat.ne_zero_of_lt hdepth)
    unfold Run.callWithin
    refine mirrors_get fun S h k hle hp => ?_
    have hpay := hp.payload (hle _ _ hf)
    generalize h.payload f = p at hpay ⊢
    generalize k.payload f' = q at hpay ⊢
    cases hpay with
    | function b =>
      refine mirrors_bind (mirrors_body (ih (Nat.le_of_succ_le_succ hdepth)) b ha) (fun T flow flow' _ hflow => ?_)
        S h k hle hp
      cases hflow with
      | next _ => exact mirrors_alloc .undefined
      | returned hxy => exact mirrors_pure fun _ hU => hU _ _ hxy
    | moduleLookup modules => exact mirrors_lookUpModule modules ha S h k hle hp
    | _ => exact mirrors_fail _ S h k hle hp

theorem mirrors_program {depth depth' : Nat} (hdepth : depth ≤ depth') (b : Body) :
    R.Mirrors (Run.program depth b) (Run.program depth' b) fun T => T := by
  refine mirrors_bind (mirrors_body (answers_callWithin hdepth) b .nil) fun S flow flow' _ hflow => ?_
  cases hflow with
  | returned hxy => exact mirrors_pure fun _ hU => hU _ _ hxy
  | @next p q hp =>
    have hlast := hp.last
    dsimp only
    generalize p.last = a at hlast ⊢
    generalize q.last = b at hlast ⊢
    cases hlast with
    | some hxy => exact mirrors_pure fun _ hU => hU _ _ hxy
    | none => exact mirrors_alloc .undefined

end Pairing

end ScriptHost
