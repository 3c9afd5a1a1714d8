/-
Regions: what a run of a script can neither leave nor break. A region is a set of slots, growing
with the heap, together with what is kept of the heap, such that reading a property of a slot of the
region stays in it and writing one slot of the region into another one keeps what is kept. Main
result: a call whose arguments lie in a region stays in it, however it ends.
-/
import ScriptHost.Engine.Evaluation
import ScriptHost.Proofs.Engine.Heap

namespace ScriptHost

open Script

structure Region where
  /-- What a run keeps of the heap. -/
  keeps : Heap → Prop
  /-- The slots of the region, while the heap has `n` cells. -/
  mem : Nat → Slot → Prop
  mono : ∀ {n m slot}, n ≤ m → mem n slot → mem m slot
  fresh : ∀ {h}, keeps h → mem (h.size + 1) h.size
  alloc : ∀ {h p}, keeps h → p.Plain → keeps (h.push p)
  read : ∀ {h slot name next}, keeps h → mem h.size slot →
    (h.properties slot).get? name = some next → mem h.size next
  write : ∀ {h slot properties name value}, keeps h → mem h.size slot → mem h.size value →
    h.payload slot = .object properties →
    keeps (h.setPayload slot (.object (properties.insert name value)))

namespace Region

variable (R : Region) {α β : Type} {n m : Nat}

/-- How a run ends: with a good result, with a thrown slot of the region, or too deep. -/
def Ends (good : Nat → α → Prop) (n : Nat) : Except Stop α → Prop
  | .ok a => good n a
  | .error (.thrown slot) => R.mem n slot
  | .error .tooDeep => True

/-- From this heap the run keeps what the region keeps. -/
def ConfinesAt (h : Heap) (r : Run α) (good : Nat → α → Prop) : Prop :=
  ∀ out h', r.run h = (out, h') → R.keeps h' ∧ h.size ≤ h'.size ∧ R.Ends good h'.size out

/-- From any heap of at least `n` cells the run keeps what the region keeps. -/
def Confines (n : Nat) (r : Run α) (good : Nat → α → Prop) : Prop :=
  ∀ h, R.keeps h → n ≤ h.size → R.ConfinesAt h r good

variable {R}

/-! ## Composing runs -/

theorem confines_pure {good : Nat → α → Prop} {a : α} (ha : ∀ m, n ≤ m → good m a) :
    R.Confines n (pure a : Run α) good := by
  intro h hk hn out h' hr
  cases hr
  exact ⟨hk, le_refl _, ha _ hn⟩

theorem run_bind {σ : Type} (x : ExceptT Stop (StateM σ) α) (f : α → ExceptT Stop (StateM σ) β) (s : σ) :
    (x >>= f).run s = match x.run s with
    | (.ok a, s') => (f a).run s'
    | (.error stop, s') => (.error stop, s') := by
  show (ExceptT.run x >>= ExceptT.bindCont f) s = _
  show (match x.run s with | (out, s') => ExceptT.bindCont f out s') = _
  rcases x.run s with ⟨_ | _, s'⟩ <;> rfl

theorem run_get (f : Heap → Run α) (h : Heap) : (get >>= f).run h = (f h).run h := rfl

theorem confines_bind {x : Run α} {f : α → Run β} {mid : Nat → α → Prop} {good : Nat → β → Prop}
    (hx : R.Confines n x mid) (hf : ∀ m a, n ≤ m → mid m a → R.Confines m (f a) good) :
    R.Confines n (x >>= f) good := by
  intro h hk hn out h' hr
  rw [run_bind] at hr
  rcases hxr : x.run h with ⟨stop | a, h₁⟩
  · rw [hxr] at hr
    cases hr
    obtain ⟨hk, hle, he⟩ := hx h hk hn _ _ hxr
    refine ⟨hk, hle, ?_⟩
    cases stop <;> exact he
  · rw [hxr] at hr
    obtain ⟨hk₁, hle₁, ha⟩ := hx h hk hn _ _ hxr
    obtain ⟨hk', hle', he⟩ := hf _ a (le_trans hn hle₁) ha h₁ hk₁ (le_refl _) _ _ hr
    exact ⟨hk', le_trans hle₁ hle', he⟩

theorem confines_get {f : Heap → Run α} {good : Nat → α → Prop}
    (hf : ∀ h, R.keeps h → n ≤ h.size → R.ConfinesAt h (f h) good) :
    R.Confines n (get >>= f) good :=
  fun h hk hn out h' hr => hf h hk hn out h' hr

/-! ## Single steps -/

/-- What may be allocated besides plain payloads depends on what the region keeps. -/
theorem confines_alloc_of {p : Payload} (hp : ∀ {h}, R.keeps h → R.keeps (h.push p)) :
    R.Confines n (Run.alloc p) R.mem := by
  intro h hk hn out h' hr
  cases hr
  refine ⟨hp hk, ?_, ?_⟩
  · rw [Heap.size_push]; exact Nat.le_succ _
  · show R.mem (h.push p).size h.size
    rw [Heap.size_push]; exact R.fresh hk

theorem confines_alloc {p : Payload} (hp : p.Plain) : R.Confines n (Run.alloc p) R.mem :=
  confines_alloc_of fun hk => R.alloc hk hp

theorem confines_throw {slot : Slot} {good : Nat → α → Prop} (hs : R.mem n slot) :
    R.Confines n (throw (.thrown slot) : Run α) good := by
  intro h hk hn out h' hr
  cases hr
  exact ⟨hk, le_refl _, R.mono hn hs⟩

theorem confines_fail {error : RuntimeError} {good : Nat → α → Prop} :
    R.Confines n (Run.fail error : Run α) good :=
  confines_bind (confines_alloc trivial) fun _ _ _ hs => confines_throw hs

theorem confines_readProperty {object : Slot} (name : String) (ho : R.mem n object) :
    R.Confines n (Run.readProperty object name) R.mem := by
  refine confines_get fun h hk hn => ?_
  split
  · rename_i properties hobj
    split
    · -- the one read that leads to an older cell
      rename_i next hnext
      rw [← Heap.properties_of_object hobj] at hnext
      exact confines_pure (fun _ hm => R.mono hm (R.read hk (R.mono hn ho) hnext)) h hk (le_refl _)
    · exact confines_alloc (p := .undefined) trivial h hk hn
  · exact confines_fail h hk hn
  · exact confines_alloc (p := .undefined) trivial h hk hn

theorem confines_writeProperty {object value : Slot} (name : String) (ho : R.mem n object)
    (hv : R.mem n value) : R.Confines n (Run.writeProperty object name value) fun _ _ => True := by
  refine confines_get fun h hk hn => ?_
  split
  · rename_i properties hobj
    intro out h' hr
    cases hr
    refine ⟨R.write hk (R.mono hn ho) (R.mono hn hv) hobj, ?_, trivial⟩
    rw [Heap.size_setPayload]
  · exact confines_fail h hk hn

/-! ## Expressions -/

variable (R)

/-- The locals are bound to slots of the region. -/
def Binds (n : Nat) (locals : Locals) : Prop := ∀ b ∈ locals, R.mem n b.2

/-- All the slots are in the region. -/
def Includes (n : Nat) (slots : List Slot) : Prop := ∀ slot ∈ slots, R.mem n slot

/-- A call whose arguments lie in the region stays in it. The callee may lie outside. -/
def Admits (call : Caller) : Prop :=
  ∀ n function args, R.Includes n args → R.Confines n (call function args) R.mem

variable {R}

theorem Binds.mono {locals : Locals} (h : R.Binds n locals) (hn : n ≤ m) : R.Binds m locals :=
  fun b hb => R.mono hn (h b hb)

theorem Includes.mono {slots : List Slot} (h : R.Includes n slots) (hn : n ≤ m) : R.Includes m slots :=
  fun slot hs => R.mono hn (h slot hs)

theorem Binds.cons {locals : Locals} (h : R.Binds n locals) (name : String) {slot : Slot}
    (hs : R.mem n slot) : R.Binds n ((name, slot) :: locals) := by
  intro b hb
  rcases List.mem_cons.1 hb with rfl | hb
  · exact hs
  · exact h b hb

theorem Binds.lookup {locals : Locals} (h : R.Binds n locals) {name : String} {slot : Slot}
    (hl : locals.lookup name = some slot) : R.mem n slot :=
  h _ (Table.mem_of_lookup_eq_some hl)

theorem confines_foldlM_readProperty : ∀ (names : List String) {n : Nat} {slot : Slot}, R.mem n slot →
    R.Confines n (names.foldlM Run.readProperty slot) R.mem
  | [], _, _, hs => confines_pure fun _ hm => R.mono hm hs
  | name :: names, _, _, hs => by
    rw [List.foldlM_cons]
    exact confines_bind (confines_readProperty name hs) fun _ _ _ hs => confines_foldlM_readProperty names hs

theorem confines_readPath {locals : Locals} (hl : R.Binds n locals) (names : List String) :
    R.Confines n (Run.readPath locals names) R.mem := by
  unfold Run.readPath
  split
  · exact confines_fail
  · split
    · rename_i slot hs
      exact confines_foldlM_readProperty _ (hl.lookup hs)
    · exact confines_fail

mutual

theorem confines_eval {call : Caller} (hc : R.Admits call) {locals : Locals} {n : Nat}
    (hl : R.Binds n locals) : ∀ e : Expr, R.Confines n (Run.eval call locals e) R.mem
  | .undefined => confines_alloc trivial
  | .bool _ => confines_alloc trivial
  | .number _ => confines_alloc trivial
  | .text _ => confines_alloc trivial
  | .object => confines_alloc (p := .emptyObject) rfl
  | .error _ => confines_alloc trivial
  | .path names => confines_readPath hl names
  | .call callee args => by
    unfold Run.eval
    refine confines_bind (confines_readPath hl callee) fun m function hm _ => ?_
    refine confines_bind (confines_evalAll hc (hl.mono hm) args) fun k slots _ hs => ?_
    exact hc k function slots hs

theorem confines_evalAll {call : Caller} (hc : R.Admits call) {locals : Locals} {n : Nat}
    (hl : R.Binds n locals) : ∀ args : List Expr, R.Confines n (Run.evalAll call locals args) R.Includes
  | [] => confines_pure fun _ _ slot hs => by cases hs
  | arg :: args => by
    unfold Run.evalAll
    refine confines_bind (confines_eval hc hl arg) fun m slot hm hs => ?_
    refine confines_bind (confines_evalAll hc (hl.mono hm) args) fun k slots hk hss => ?_
    refine confines_pure fun j hj other ho => ?_
    rcases List.mem_cons.1 ho with rfl | ho
    · exact R.mono (le_trans hk hj) hs
    · exact R.mono hj (hss other ho)

end

/-! ## Statements -/

variable (R)

/-- What is carried from one statement to the next lies in the region. -/
structure Carries (n : Nat) (p : Run.Progress) : Prop where
  locals : R.Binds n p.locals
  last : ∀ slot ∈ p.last, R.mem n slot

/-- The end of a statement lies in the region. -/
def Flows (n : Nat) : Run.Flow → Prop
  | .next p => R.Carries n p
  | .returned slot => R.mem n slot

variable {R}

theorem Carries.mono {p : Run.Progress} (h : R.Carries n p) (hn : n ≤ m) : R.Carries m p :=
  ⟨h.locals.mono hn, fun slot hs => R.mono hn (h.last slot hs)⟩

theorem confines_assign {locals : Locals} {value : Slot} (hl : R.Binds n locals) (hv : R.mem n value)
    (target : List String) : R.Confines n (Run.assign locals value target) R.Binds := by
  unfold Run.assign
  split
  · exact confines_fail
  · exact confines_pure fun m hm => (hl.mono hm).cons _ (R.mono hm hv)
  · refine confines_bind (confines_readPath hl _) fun m object hm ho => ?_
    refine confines_bind (confines_writeProperty _ ho (R.mono hm hv)) fun k _ hk _ => ?_
    exact confines_pure fun j hj => hl.mono (le_trans hm (le_trans hk hj))

theorem confines_step {call : Caller} (hc : R.Admits call) {p : Run.Progress} (hp : R.Carries n p) :
    ∀ s : Statement, R.Confines n (Run.step call p s) R.Flows
  | .assign target e => by
    refine confines_bind (confines_eval hc hp.locals e) fun m value hm hv => ?_
    refine confines_bind (confines_assign (hp.locals.mono hm) hv target) fun k locals hk hl => ?_
    exact confines_pure fun j hj => ⟨hl.mono hj, (hp.mono (le_trans hm (le_trans hk hj))).last⟩
  | .throw e =>
    confines_bind (confines_eval hc hp.locals e) fun _ _ _ hv => confines_throw hv
  | .return (some e) =>
    confines_bind (confines_eval hc hp.locals e) fun _ _ _ hv => confines_pure fun _ hj => R.mono hj hv
  | .return none =>
    confines_bind (confines_alloc trivial) fun _ _ _ hv => confines_pure fun _ hj => R.mono hj hv
  | .expr e => by
    refine confines_bind (confines_eval hc hp.locals e) fun m value hm hv => ?_
    refine confines_pure fun j hj => ⟨(hp.mono (le_trans hm hj)).locals, fun slot hs => ?_⟩
    cases hs
    exact R.mono hj hv

theorem confines_steps {call : Caller} (hc : R.Admits call) : ∀ (statements : List Statement) {n : Nat}
    {p : Run.Progress}, R.Carries n p → R.Confines n (Run.steps call p statements) R.Flows
  | [], _, _, hp => confines_pure fun _ hm => hp.mono hm
  | s :: rest, _, _, hp => by
    unfold Run.steps
    refine confines_bind (confines_step hc hp s) fun m flow _ hf => ?_
    cases flow with
    | next p => exact confines_steps hc rest hf
    | returned value => exact confines_pure fun _ hm => R.mono hm hf

/-! ## Bodies and calls -/

theorem confines_bindParams : ∀ (params : List String) (args : List Slot) {n : Nat} {locals : Locals},
    R.Binds n locals → R.Includes n args → R.Confines n (Run.bindParams locals params args) R.Binds
  | [], _, _, _, hl, _ => by
    unfold Run.bindParams
    exact confines_pure fun _ hm => hl.mono hm
  | param :: params, [], _, _, hl, ha => by
    unfold Run.bindParams
    refine confines_bind (confines_alloc trivial) fun m slot hm hs => ?_
    exact confines_bindParams params [] ((hl.mono hm).cons param hs) (ha.mono hm)
  | param :: params, arg :: args, _, _, hl, ha => by
    unfold Run.bindParams
    exact confines_bindParams params args (hl.cons param (ha arg List.mem_cons_self))
      fun slot hs => ha slot (List.mem_cons_of_mem _ hs)

theorem confines_body {call : Caller} (hc : R.Admits call) (b : Body) {args : List Slot}
    (ha : R.Includes n args) : R.Confines n (Run.body call b args) R.Flows := by
  have hnil : R.Binds n [] := fun _ hb => by cases hb
  refine confines_bind (confines_bindParams b.params args hnil ha) fun m locals _ hl => ?_
  exact confines_steps hc b.statements ⟨hl, fun _ hs => by cases hs⟩

theorem confines_lookUpModule (modules : Table Float) (args : List Slot) :
    R.Confines n (Run.lookUpModule modules args) R.mem := by
  refine confines_get fun h hk hn => ?_
  simp only
  split
  · exact confines_alloc (p := .number _) trivial h hk hn
  · exact confines_fail h hk hn

/-- Calls of any nesting stay in the region of their arguments. -/
theorem admits_callWithin (R : Region) : ∀ depth : Nat, R.Admits (Run.callWithin depth) := by
  intro depth
  -- a body calls with one level less, so the calls inside it are confined before it is
  induction depth with
  | zero =>
    intro n function args _
    unfold Run.callWithin
    refine confines_get fun h hk hn => ?_
    split
    · intro out h' hr; cases hr; exact ⟨hk, le_refl _, trivial⟩
    · exact confines_lookUpModule _ args h hk hn
    · exact confines_fail h hk hn
  | succ depth ih =>
    intro n function args ha
    unfold Run.callWithin
    refine confines_get fun h hk hn => ?_
    split
    · refine confines_bind (confines_body ih _ ha) (fun m flow _ hf => ?_) h hk hn
      cases flow with
      | next p => exact confines_alloc trivial
      | returned value => exact confines_pure fun _ hm => R.mono hm hf
    · exact confines_lookUpModule _ args h hk hn
    · exact confines_fail h hk hn

theorem confines_program (R : Region) (depth n : Nat) (b : Body) :
    R.Confines n (Run.program depth b) R.mem := by
  refine confines_bind (confines_body (R.admits_callWithin depth) b fun _ hs => by cases hs)
    fun m flow _ hf => ?_
  cases flow with
  | returned value => exact confines_pure fun _ hm => R.mono hm hf
  | next p =>
    simp only
    split
    · rename_i value hv
      exact confines_pure fun _ hm => R.mono hm (hf.last value hv)
    · exact confines_alloc trivial

end Region

end ScriptHost
