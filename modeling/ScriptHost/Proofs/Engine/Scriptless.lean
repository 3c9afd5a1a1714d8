/-
Runs that reach no function of a script. Scripts make no functions: all that they allocate is plain, and
a write only leads to what was reached before. So where a run reaches no such function to begin with, it
never does; each call inside of it goes to a function of the host or fails, a second body is not run, and
the run ends however few calls may nest. A program of a blob reaches nothing at all, and there every call
fails.

What runs inside a body is a parameter of it, so this is put as an equation: the run comes to the same
with a caller that runs no bodies, and with such a caller calls are not nested.
-/
import ScriptHost.Proofs.Engine.Confinement

namespace ScriptHost

open Script

/-! ## Callers that run no bodies -/

namespace Run

/-- Calls the functions of the host. Any other call fails, that of a script's function too. -/
def callNative : Caller := fun function args => do
  match (← get).payload function with
  | .moduleLookup modules => lookUpModule modules args
  | _ => fail .notFunction

/-- Calls nothing. -/
def refuse : Caller := fun _ _ => fail .notFunction

/-- Calls a value; the calls inside its body are another caller's. -/
def callBy (call : Caller) : Caller := fun function args => do
  match (← get).payload function with
  | .function b =>
    match ← body call b args with
    | .returned value => return value
    | .next _ => alloc .undefined
  | .moduleLookup modules => lookUpModule modules args
  | _ => fail .notFunction

theorem callWithin_succ (depth : Nat) : callWithin (depth + 1) = callBy (callWithin depth) := by
  funext function args
  rw [callWithin]
  rfl

/-- Runs a body as a program; the calls inside are the caller's. -/
def programBy (call : Caller) (b : Body) : Run Slot := do
  match ← body call b [] with
  | .returned value => return value
  | .next p =>
    match p.last with
    | some value => return value
    | none => alloc .undefined

end Run

/-! ## Runs that do not nest calls too deeply -/

namespace Run

variable {α β : Type}

/-- Whatever the heap, the run ends with a value or throws one. -/
def Shallow (r : Run α) : Prop := ∀ h, (r.run h).1 ≠ .error .tooDeep

theorem shallow_pure {a : α} : Shallow (pure a : Run α) := fun _ hc => by cases hc

theorem shallow_bind {x : Run α} {f : α → Run β} (hx : Shallow x) (hf : ∀ a, Shallow (f a)) :
    Shallow (x >>= f) := by
  intro h
  rw [Region.run_bind]
  have hxh := hx h
  generalize x.run h = end₁ at hxh ⊢
  rcases end₁ with ⟨(_ | _) | a, h₁⟩
  · exact fun hc => by cases hc
  · exact absurd rfl hxh
  · exact hf a h₁

theorem shallow_get {f : Heap → Run α} (hf : ∀ h, Shallow (f h)) : Shallow (get >>= f) := fun h => hf h h

theorem shallow_alloc (p : Payload) : Shallow (alloc p) := fun _ hc => by cases hc

theorem shallow_throw {slot : Slot} : Shallow (throw (.thrown slot) : Run α) := fun _ hc => by cases hc

theorem shallow_fail (error : RuntimeError) : Shallow (fail error : Run α) :=
  shallow_bind (shallow_alloc _) fun _ => shallow_throw

theorem shallow_readProperty (object : Slot) (name : String) : Shallow (readProperty object name) := by
  refine shallow_get fun h => ?_
  split
  · split
    · exact shallow_pure
    · exact shallow_alloc _
  · exact shallow_fail _
  · exact shallow_alloc _

theorem shallow_writeProperty (object : Slot) (name : String) (value : Slot) :
    Shallow (writeProperty object name value) := by
  refine shallow_get fun h => ?_
  split
  · exact fun _ hc => by cases hc
  · exact shallow_fail _

theorem shallow_foldlM_readProperty : ∀ (names : List String) (slot : Slot),
    Shallow (names.foldlM readProperty slot)
  | [], _ => shallow_pure
  | name :: names, slot => by
    rw [List.foldlM_cons]
    exact shallow_bind (shallow_readProperty slot name) (shallow_foldlM_readProperty names)

theorem shallow_readPath (locals : Locals) (names : List String) : Shallow (readPath locals names) := by
  unfold readPath
  split
  · exact shallow_fail _
  · split
    · exact shallow_foldlM_readProperty _ _
    · exact shallow_fail _

mutual

theorem shallow_eval {call : Caller} (hc : ∀ function args, Shallow (call function args)) (locals : Locals) :
    ∀ e : Expr, Shallow (eval call locals e)
  | .undefined => shallow_alloc _
  | .bool _ => shallow_alloc _
  | .number _ => shallow_alloc _
  | .text _ => shallow_alloc _
  | .object => shallow_alloc _
  | .error _ => shallow_alloc _
  | .path names => shallow_readPath locals names
  | .call callee args => by
    unfold eval
    refine shallow_bind (shallow_readPath locals callee) fun function => ?_
    exact shallow_bind (shallow_evalAll hc locals args) (hc function)

theorem shallow_evalAll {call : Caller} (hc : ∀ function args, Shallow (call function args)) (locals : Locals) :
    ∀ args : List Expr, Shallow (evalAll call locals args)
  | [] => shallow_pure
  | arg :: args => by
    unfold evalAll
    refine shallow_bind (shallow_eval hc locals arg) fun slot => ?_
    exact shallow_bind (shallow_evalAll hc locals args) fun slots => shallow_pure

end

theorem shallow_assign (locals : Locals) (value : Slot) (target : List String) :
    Shallow (assign locals value target) := by
  unfold assign
  split
  · exact shallow_fail _
  · exact shallow_pure
  · refine shallow_bind (shallow_readPath _ _) fun object => ?_
    exact shallow_bind (shallow_writeProperty _ _ _) fun _ => shallow_pure

theorem shallow_step {call : Caller} (hc : ∀ function args, Shallow (call function args)) (p : Progress) :
    ∀ s : Statement, Shallow (step call p s)
  | .assign target e =>
    shallow_bind (shallow_eval hc _ e) fun value =>
      shallow_bind (shallow_assign _ value target) fun _ => shallow_pure
  | .throw e => shallow_bind (shallow_eval hc _ e) fun _ => shallow_throw
  | .return (some e) => shallow_bind (shallow_eval hc _ e) fun _ => shallow_pure
  | .return none => shallow_bind (shallow_alloc _) fun _ => shallow_pure
  | .expr e => shallow_bind (shallow_eval hc _ e) fun _ => shallow_pure

theorem shallow_steps {call : Caller} (hc : ∀ function args, Shallow (call function args)) :
    ∀ (statements : List Statement) (p : Progress), Shallow (steps call p statements)
  | [], _ => shallow_pure
  | s :: rest, p => by
    unfold steps
    refine shallow_bind (shallow_step hc p s) fun flow => ?_
    cases flow with
    | next p => exact shallow_steps hc rest p
    | returned value => exact shallow_pure

theorem shallow_bindParams : ∀ (params : List String) (args : List Slot) (locals : Locals),
    Shallow (bindParams locals params args)
  | [], _, _ => by unfold bindParams; exact shallow_pure
  | param :: params, [], _ => by
    unfold bindParams
    exact shallow_bind (shallow_alloc _) fun _ => shallow_bindParams params [] _
  | param :: params, arg :: args, _ => by
    unfold bindParams
    exact shallow_bindParams params args _

theorem shallow_body {call : Caller} (hc : ∀ function args, Shallow (call function args)) (b : Body)
    (args : List Slot) : Shallow (body call b args) :=
  shallow_bind (shallow_bindParams _ _ _) fun locals => shallow_steps hc b.statements ⟨locals, none⟩

theorem shallow_lookUpModule (modules : Table Float) (args : List Slot) : Shallow (lookUpModule modules args) := by
  refine shallow_get fun h => ?_
  simp only
  split
  · exact shallow_alloc _
  · exact shallow_fail _

theorem shallow_callNative (function : Slot) (args : List Slot) : Shallow (callNative function args) := by
  refine shallow_get fun h => ?_
  split
  · exact shallow_lookUpModule _ args
  · exact shallow_fail _

theorem shallow_refuse (function : Slot) (args : List Slot) : Shallow (refuse function args) := shallow_fail _

theorem shallow_callBy {call : Caller} (hc : ∀ function args, Shallow (call function args)) (function : Slot)
    (args : List Slot) : Shallow (callBy call function args) := by
  refine shallow_get fun h => ?_
  split
  · refine shallow_bind (shallow_body hc _ args) fun flow => ?_
    cases flow with
    | next p => exact shallow_alloc _
    | returned value => exact shallow_pure
  · exact shallow_lookUpModule _ args
  · exact shallow_fail _

theorem shallow_programBy {call : Caller} (hc : ∀ function args, Shallow (call function args)) (b : Body) :
    Shallow (programBy call b) := by
  refine shallow_bind (shallow_body hc b []) fun flow => ?_
  cases flow with
  | returned value => exact shallow_pure
  | next p =>
    simp only
    split
    · exact shallow_pure
    · exact shallow_alloc _

end Run

/-! ## Runs that come to the same in a region -/

namespace Region

variable {R : Region} {α β : Type} {n : Nat}

variable (R) in
/-- From any heap of at least `n` cells that is kept, the two runs come to the same. -/
def Agrees (n : Nat) (r s : Run α) : Prop := ∀ h, R.keeps h → n ≤ h.size → r.run h = s.run h

variable (R) in
/-- Inside the region the two callers come to the same. -/
def Matches (call call' : Caller) : Prop :=
  ∀ n function args, R.mem n function → R.Includes n args → R.Agrees n (call function args) (call' function args)

theorem agrees_refl (r : Run α) : R.Agrees n r r := fun _ _ _ => rfl

theorem agrees_bind {x y : Run α} {f g : α → Run β} {mid : Nat → α → Prop} (hx : R.Confines n x mid)
    (hxy : R.Agrees n x y) (hf : ∀ m a, n ≤ m → mid m a → R.Agrees m (f a) (g a)) :
    R.Agrees n (x >>= f) (y >>= g) := by
  intro h hk hn
  rw [run_bind, run_bind, ← hxy h hk hn]
  rcases hxr : x.run h with ⟨stop | a, h₁⟩
  · rfl
  · obtain ⟨hk₁, hle, ha⟩ := hx h hk hn _ _ hxr
    exact hf _ a (le_trans hn hle) ha h₁ hk₁ (le_refl _)

theorem agrees_get {f g : Heap → Run α} (hf : ∀ h, R.keeps h → n ≤ h.size → (f h).run h = (g h).run h) :
    R.Agrees n (get >>= f) (get >>= g) := hf

/-! ### Expressions and statements

By recursion on the syntax. The caller is used in one place only, at a call; everywhere else the two runs take the
same steps, and all that is needed of them is that they stay in the region.
-/

mutual

theorem agrees_eval {call call' : Caller} (hc : R.Admits call) (hm : R.Matches call call') {locals : Locals}
    {n : Nat} (hl : R.Binds n locals) :
    ∀ e : Expr, R.Agrees n (Run.eval call locals e) (Run.eval call' locals e)
  | .undefined => agrees_refl _
  | .bool _ => agrees_refl _
  | .number _ => agrees_refl _
  | .text _ => agrees_refl _
  | .object => agrees_refl _
  | .error _ => agrees_refl _
  | .path names => agrees_refl (Run.readPath locals names)
  | .call callee args => by
    unfold Run.eval
    -- the callee and the arguments agree by themselves, and the calls by `hm`
    refine agrees_bind (confines_readPath hl callee) (agrees_refl _) fun m function hle hf => ?_
    refine agrees_bind (confines_evalAll hc (hl.mono hle) args) (agrees_evalAll hc hm (hl.mono hle) args) ?_
    exact fun k slots hk hs => hm k function slots (R.mono hk hf) hs

theorem agrees_evalAll {call call' : Caller} (hc : R.Admits call) (hm : R.Matches call call') {locals : Locals}
    {n : Nat} (hl : R.Binds n locals) :
    ∀ args : List Expr, R.Agrees n (Run.evalAll call locals args) (Run.evalAll call' locals args)
  | [] => agrees_refl _
  | arg :: args => by
    unfold Run.evalAll
    refine agrees_bind (confines_eval hc hl arg) (agrees_eval hc hm hl arg) fun m slot hle _ => ?_
    refine agrees_bind (confines_evalAll hc (hl.mono hle) args) (agrees_evalAll hc hm (hl.mono hle) args) ?_
    exact fun _ _ _ _ => agrees_refl _

end

section Callers

variable {call call' : Caller} (hc : R.Admits call) (hm : R.Matches call call')

include hc hm

theorem agrees_step {p : Run.Progress} (hp : R.Carries n p) :
    ∀ s : Statement, R.Agrees n (Run.step call p s) (Run.step call' p s)
  | .assign _ e | .throw e | .return (some e) | .expr e =>
    agrees_bind (confines_eval hc hp.locals e) (agrees_eval hc hm hp.locals e) fun _ _ _ _ => agrees_refl _
  | .return none => agrees_refl _

theorem agrees_steps : ∀ (statements : List Statement) {n : Nat} {p : Run.Progress}, R.Carries n p →
    R.Agrees n (Run.steps call p statements) (Run.steps call' p statements)
  | [], _, _, _ => agrees_refl _
  | s :: rest, _, _, hp => by
    unfold Run.steps
    refine agrees_bind (confines_step hc hp s) (agrees_step hc hm hp s) fun m flow _ hf => ?_
    cases flow with
    | next p => exact agrees_steps rest hf
    | returned value => exact agrees_refl _

theorem agrees_body (b : Body) {args : List Slot} (ha : R.Includes n args) :
    R.Agrees n (Run.body call b args) (Run.body call' b args) := by
  have hnil : R.Binds n [] := fun _ hb => by cases hb
  refine agrees_bind (confines_bindParams b.params args hnil ha) (agrees_refl _) fun m locals _ hl => ?_
  exact agrees_steps hc hm b.statements ⟨hl, fun _ hs => by cases hs⟩

theorem agrees_callBy (function : Slot) {args : List Slot} (ha : R.Includes n args) :
    R.Agrees n (Run.callBy call function args) (Run.callBy call' function args) := by
  refine agrees_get fun h hk hn => ?_
  split
  · exact agrees_bind (confines_body hc _ ha) (agrees_body hc hm _ ha) (fun _ _ _ _ => agrees_refl _) h hk hn
  · rfl
  · rfl

theorem agrees_programBy (b : Body) : R.Agrees n (Run.programBy call b) (Run.programBy call' b) :=
  agrees_bind (confines_body hc b fun _ hs => by cases hs) (agrees_body hc hm b fun _ hs => by cases hs)
    fun _ _ _ _ => agrees_refl _

end Callers

end Region

/-! ## What is reached -/

/-- Kinds of payloads that have all that scripts make. -/
structure Kind where
  has : Payload → Bool
  plain : ∀ {p : Payload}, p.Plain → has p
  object : ∀ properties, has (.object properties)

namespace Kind

/-- All but the functions of scripts. -/
def scriptless : Kind where
  has | .function _ => false
      | _ => true
  plain {p} hp := by cases p <;> first | rfl | exact hp.elim
  object _ := rfl

/-- All but functions. -/
def inert : Kind where
  has | .function _ => false
      | .moduleLookup _ => false
      | _ => true
  plain {p} hp := by cases p <;> first | rfl | exact hp.elim
  object _ := rfl

end Kind

namespace Heap

variable {h : Heap} {K : Kind} {roots : List Slot}

/-- What the roots reach is of the kind. -/
def ReachesOnly (h : Heap) (K : Kind) (roots : List Slot) : Prop :=
  ∀ slot, h.Reaches roots slot → K.has (h.payload slot)

/-- Values that are closed under properties and all of a kind. -/
theorem reachesOnly_of_closed {S : Slot → Prop} (hroots : ∀ slot ∈ roots, S slot)
    (hstep : ∀ slot name next, S slot → (h.properties slot).get? name = some next → S next)
    (hkind : ∀ slot, S slot → K.has (h.payload slot)) : h.ReachesOnly K roots := by
  intro slot hr
  refine hkind slot ?_
  induction hr with
  | root hs => exact hroots _ hs
  | step _ hn ih => exact hstep _ _ _ ih hn

theorem reachesOnly_nil (h : Heap) (K : Kind) : h.ReachesOnly K [] :=
  fun slot hr => absurd hr (h.not_reaches_nil slot)

/-- What a run that is given some roots keeps of a heap on which they reach only a kind. -/
structure SparedOf (h : Heap) (K : Kind) (roots : List Slot) (now : Heap) : Prop extends Spared h roots now where
  kind : ∀ slot, h.Within roots now.size slot → K.has (now.payload slot)

theorem SparedOf.refl (hr : h.ReachesOnly K roots) : h.SparedOf K roots h := by
  refine ⟨.refl h roots, fun slot hs => ?_⟩
  rcases hs with ⟨hle, hlt⟩ | hs
  · exact absurd hlt (Nat.not_lt.2 hle)
  · exact hr slot hs

/-- The region of a run that is given some roots, all of a kind. -/
def regionOf (h : Heap) (K : Kind) (roots : List Slot) : Region where
  keeps := h.SparedOf K roots
  mem := h.Within roots
  mono := Within.mono
  fresh hs := (h.region roots).fresh hs.toSpared
  alloc {now p} hs hp := by
    refine ⟨hs.push hp, fun slot hw => ?_⟩
    rw [payload_push]
    split
    · exact K.plain hp
    · rename_i hne
      rw [size_push] at hw
      exact hs.kind slot (hw.imp (fun hf => ⟨hf.1, lt_of_le_of_ne (Nat.le_of_lt_succ hf.2) hne⟩) id)
  read hs hw hn := hs.closed _ _ _ hw hn
  write {now slot _ name _} hs hw hv ho := by
    refine ⟨hs.write name hw hv ho, fun other hother => ?_⟩
    rw [size_setPayload] at hother
    rw [payload_setPayload]
    split
    · exact K.object _
    · exact hs.kind other hother

/-- Where no function of a script is reached, none is called. -/
theorem matches_callNative (h : Heap) (roots : List Slot) (depth : Nat) :
    (h.regionOf .scriptless roots).Matches (Run.callWithin depth) Run.callNative := by
  intro n function args hf _
  unfold Run.callWithin
  refine Region.agrees_get fun now hk hn => ?_
  have hkind := hk.kind function (hf.mono hn)
  cases hp : now.payload function with
  | function b => rw [hp] at hkind; cases hkind
  | _ => rfl

/-- Where no function is reached, each call fails. -/
theorem matches_refuse (h : Heap) (roots : List Slot) (depth : Nat) :
    (h.regionOf .inert roots).Matches (Run.callWithin depth) Run.refuse := by
  intro n function args hf _ now hk hn
  unfold Run.callWithin
  rw [Region.run_get]
  have hkind := hk.kind function (hf.mono hn)
  cases hp : now.payload function with
  | function b => rw [hp] at hkind; cases hkind
  | moduleLookup modules => rw [hp] at hkind; cases hkind
  | _ => rfl

end Heap

/-! ## Calls and programs -/

namespace Engine

theorem runOut_of_shallow {r : Run Slot} (hr : r.Shallow) (e : Engine) :
    ∃ result e', runOut r e = .ok (result, e') := by
  have hend := hr e.heap
  rw [runOut_eq]
  generalize r.run e.heap = ended at hend ⊢
  rcases ended with ⟨(slot | _) | slot, heap⟩
  · exact ⟨_, _, rfl⟩
  · exact absurd rfl hend
  · exact ⟨_, _, rfl⟩

/-- Runs that come to the same are handed out the same. -/
theorem runOut_congr {r s : Run Slot} {e : Engine} (h : r.run e.heap = s.run e.heap) : runOut r e = runOut s e := by
  rw [runOut_eq, runOut_eq, h]

/-- The program of a blob, with the calls inside it those of a caller. -/
def blobProgramBy (call : Caller) (blob : Bytes) : Run Slot :=
  match Snapshot.records? blob with
  | none => Run.fail .badSnapshotHeader
  | some records => do
    let body ← compileBody "" (records.headD [])
    Run.programBy call body

theorem blobProgram_eq (depth : Nat) (blob : Bytes) :
    blobProgram depth blob = blobProgramBy (Run.callWithin depth) blob := rfl

theorem shallow_compileBody (params : String) (source : Bytes) : (compileBody params source).Shallow := by
  unfold compileBody
  split
  · exact Run.shallow_pure
  · exact Run.shallow_bind (Run.shallow_alloc _) fun _ => Run.shallow_throw

theorem shallow_blobProgramBy {call : Caller} (hc : ∀ function args, (call function args).Shallow) (blob : Bytes) :
    (blobProgramBy call blob).Shallow := by
  unfold blobProgramBy
  split
  · exact Run.shallow_fail _
  · exact Run.shallow_bind (shallow_compileBody _ _) (Run.shallow_programBy hc)

/-- One body is run: inside of it only functions of the host are called. -/
theorem applyFunction_once {function : Ref} {args : List Ref} {e : Engine} (hd : 0 < e.depth)
    (hs : e.heap.ReachesOnly .scriptless (args.map (·.slot))) :
    applyFunction function args e =
      runOut (Run.callBy Run.callNative function.slot (args.map (·.slot))) { e with calls := e.calls + 1 } := by
  obtain ⟨depth, hdepth⟩ := Nat.exists_eq_succ_of_ne_zero (Nat.ne_of_gt hd)
  rw [applyFunction_eq]
  refine runOut_congr (e := { e with calls := e.calls + 1 }) ?_
  rw [hdepth, Run.callWithin_succ]
  -- inside the region of the arguments the calls of the body go to functions of the host
  have hagrees : (e.heap.regionOf .scriptless (args.map (·.slot))).Agrees e.heap.size
      (Run.callBy (Run.callWithin depth) function.slot (args.map (·.slot)))
      (Run.callBy Run.callNative function.slot (args.map (·.slot))) :=
    Region.agrees_callBy (Region.admits_callWithin _ depth) (Heap.matches_callNative _ _ depth) function.slot
      fun slot hslot => .inr (.root hslot)
  exact hagrees e.heap (.refl hs) (le_refl _)

/-- A program calls nothing. -/
theorem runBlob_callless (blob : Bytes) (e : Engine) : runBlob blob e = runOut (blobProgramBy Run.refuse blob) e := by
  rw [runBlob_eq, blobProgram_eq]
  refine runOut_congr ?_
  unfold blobProgramBy
  cases Snapshot.records? blob with
  | none => rfl
  | some records =>
    refine Region.agrees_bind (R := e.heap.regionOf .inert []) (confines_compileBody _ e.heap.size _ _)
      (Region.agrees_refl _) (fun m body _ _ => ?_) e.heap (.refl (e.heap.reachesOnly_nil _)) (le_refl _)
    exact Region.agrees_programBy (Region.admits_callWithin _ e.depth) (Heap.matches_refuse _ _ e.depth) body

theorem exists_applyFunction (function : Ref) {args : List Ref} {e : Engine} (hd : 0 < e.depth)
    (hs : e.heap.ReachesOnly .scriptless (args.map (·.slot))) :
    ∃ result e', applyFunction function args e = .ok (result, e') := by
  rw [applyFunction_once hd hs]
  exact runOut_of_shallow (Run.shallow_callBy Run.shallow_callNative _ _) _

theorem exists_runBlob (blob : Bytes) (e : Engine) : ∃ result e', runBlob blob e = .ok (result, e') := by
  rw [runBlob_callless]
  exact runOut_of_shallow (shallow_blobProgramBy Run.shallow_refuse blob) e

end Engine

end ScriptHost
