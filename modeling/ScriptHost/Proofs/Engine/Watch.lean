/-
Watched runs. A watched run is a run that keeps a record: each time the heap may have changed, and each time
a slot is read, bound, passed or come to, it notes the heap and the slots it has in hand. Main result: on a
closed heap a watched run does what the run does, and at each moment it notes the heap is closed, the slots in
hand are cells of it, and the heap has evolved from what it was at any moment before.

The watched interpreter is the interpreter with notes, clause by clause. That slots stay within the heap is
known of runs already (the region of a closed heap), so what is proved here in step with the interpreter is
only that notes do not disturb it.
-/
import ScriptHost.Proofs.Engine.Evolution

namespace ScriptHost

open Script

/-- The heap at some time in a run, with slots that the run has in hand then. -/
structure Moment where
  heap : Heap
  held : List Slot

/-- A run that keeps a record of moments, the latest one last. -/
abbrev Watch := ExceptT Stop (StateM (Heap × List Moment))

/-! ## The interpreter with notes -/

namespace Watch

/-- Notes the heap and some slots. -/
def note (held : List Slot) : Watch Unit :=
  modify fun s => (s.1, s.2 ++ [⟨s.1, held⟩])

/-- A single step of the interpreter, with the slots in hand before it. -/
def act {α : Type} (held : List Slot) (r : Run α) : Watch α := do
  note held
  ExceptT.mk fun s => match r.run s.1 with
    | (out, heap) => (out, (heap, s.2))

/-- A step that comes to a slot. -/
def find (held : List Slot) (r : Run Slot) : Watch Slot := do
  let slot ← act held r
  note (slot :: held)
  return slot

def alloc (payload : Payload) : Watch Slot := find [] (Run.alloc payload)

def fail {α : Type} (error : RuntimeError) : Watch α := act [] (Run.fail error)

def readProperty (object : Slot) (name : String) : Watch Slot := find [object] (Run.readProperty object name)

def writeProperty (object : Slot) (name : String) (value : Slot) : Watch Unit := do
  act [object, value] (Run.writeProperty object name value)
  note [object, value]

def readPath (locals : Locals) : List String → Watch Slot
  | [] => fail .emptyPath
  | first :: rest =>
    match locals.lookup first with
    | some slot => rest.foldlM readProperty slot
    | none => fail (.notDefined first)

mutual

def eval (call : Slot → List Slot → Watch Slot) (locals : Locals) : Expr → Watch Slot
  | .undefined => alloc .undefined
  | .bool value => alloc (.bool value)
  | .number value => alloc (.number value)
  | .text value => alloc (.text value)
  | .object => alloc .emptyObject
  | .error message => alloc (.error message)
  | .path names => readPath locals names
  | .call callee args => do
    let function ← readPath locals callee
    note [function]
    let slots ← evalAll call locals args
    note (function :: slots)
    call function slots

def evalAll (call : Slot → List Slot → Watch Slot) (locals : Locals) : List Expr → Watch (List Slot)
  | [] => return []
  | arg :: args => do
    let slot ← eval call locals arg
    note [slot]
    let slots ← evalAll call locals args
    note (slot :: slots)
    return slot :: slots

end

def assign (locals : Locals) (value : Slot) : List String → Watch Locals
  | [] => fail .emptyTarget
  | [name] => return (name, value) :: locals
  | first :: second :: rest => do
    let names := first :: second :: rest
    let object ← readPath locals names.dropLast
    writeProperty object (names.getLastD "") value
    return locals

/-- What a body has in hand between two statements. -/
def inHand (p : Run.Progress) : List Slot := p.locals.map (·.2) ++ p.last.toList

def step (call : Slot → List Slot → Watch Slot) (p : Run.Progress) (s : Statement) : Watch Run.Flow := do
  note (inHand p)
  match s with
  | .assign target expr =>
    let value ← eval call p.locals expr
    note [value]
    let locals ← assign p.locals value target
    return .next { p with locals := locals }
  | .throw expr =>
    let value ← eval call p.locals expr
    note [value]
    throw (.thrown value)
  | .return (some expr) =>
    let value ← eval call p.locals expr
    note [value]
    return .returned value
  | .return none =>
    let value ← alloc .undefined
    return .returned value
  | .expr expr =>
    let value ← eval call p.locals expr
    note [value]
    return .next { p with last := some value }

def steps (call : Slot → List Slot → Watch Slot) : Run.Progress → List Statement → Watch Run.Flow
  | p, [] => do
    note (inHand p)
    return .next p
  | p, statement :: rest => do
    match ← step call p statement with
    | .next p => steps call p rest
    | .returned value => return .returned value

def bindParams : Locals → List String → List Slot → Watch Locals
  | locals, [], _ => return locals
  | locals, param :: params, [] => do
    let slot ← alloc .undefined
    bindParams ((param, slot) :: locals) params []
  | locals, param :: params, arg :: args => bindParams ((param, arg) :: locals) params args

def body (call : Slot → List Slot → Watch Slot) (b : Body) (args : List Slot) : Watch Run.Flow := do
  note args
  let locals ← bindParams [] b.params args
  steps call ⟨locals, none⟩ b.statements

def callWithin (depth : Nat) (function : Slot) (args : List Slot) : Watch Slot := do
  note (function :: args)
  match (← get).1.payload function with
  | .function b =>
    match depth with
    | 0 => throw .tooDeep
    | depth + 1 =>
      match ← body (callWithin depth) b args with
      | .returned value => return value
      | .next _ => alloc .undefined
  | .moduleLookup modules => find args (Run.lookUpModule modules args)
  | _ => fail .notFunction

def program (depth : Nat) (b : Body) : Watch Slot := do
  match ← body (callWithin depth) b [] with
  | .returned value => return value
  | .next p =>
    match p.last with
    | some value => return value
    | none => alloc .undefined

end Watch

/-! ## The course of a run -/

/-- The heap is closed, and the slots in hand are cells of it. -/
structure Moment.Sound (m : Moment) : Prop where
  closed : m.heap.Closed
  held : ∀ slot ∈ m.held, slot < m.heap.size

/-- From one heap to another, all moments between them are sound, and of each two heaps on the way the later has
evolved from the earlier. -/
structure Course (h : Heap) (seen : List Moment) (h' : Heap) : Prop where
  sound : ∀ m ∈ seen, m.Sound
  evolves : (h :: (seen.map (·.heap) ++ [h'])).Pairwise Heap.Evolves

namespace Course

variable {h h' h'' : Heap} {seen more : List Moment}

theorem direct (he : h.Evolves h') : Course h [] h' :=
  ⟨fun _ hm => absurd hm List.not_mem_nil, List.pairwise_pair.2 he⟩

theorem append (hc : Course h seen h') (hc' : Course h' more h'') : Course h (seen ++ more) h'' := by
  obtain ⟨hfirst, -, hend⟩ := List.pairwise_append.1 (List.cons_append .. ▸ hc.evolves)
  obtain ⟨hstart, hsecond⟩ := List.pairwise_cons.1 hc'.evolves
  refine ⟨fun m hm => (List.mem_append.1 hm).elim (hc.sound m) (hc'.sound m), ?_⟩
  rw [List.map_append, List.append_assoc, ← List.cons_append]
  refine List.pairwise_append.2 ⟨hfirst, hsecond, fun x hx y hy => ?_⟩
  exact (hend x hx h' List.mem_cons_self).trans (hstart y hy)

theorem note (hc : h.Closed) {held : List Slot} (hh : ∀ slot ∈ held, slot < h.size) : Course h [⟨h, held⟩] h := by
  refine ⟨fun m hm => ?_, ?_⟩
  · rw [List.mem_singleton.1 hm]
    exact ⟨hc, hh⟩
  · have hrefl : h.Evolves h := .refl h
    simp [hrefl]

end Course

/-! ## Composing watched runs -/

/-- The whole of a closed heap. -/
def Heap.closedRegion : Region where
  keeps := Heap.Closed
  mem n slot := slot < n
  mono hn hs := lt_of_lt_of_le hs hn
  fresh _ := Nat.lt_succ_self _
  alloc hc hp := hc.push hp.properties_eq
  read hc _ hn := hc _ _ _ hn
  write hc _ hv ho := hc.write _ hv ho

namespace Watch

open Heap (closedRegion)

variable {α β : Type} {n m : Nat}

/-- From any closed heap of at least `n` cells the watched run does what the run does, and what it has noted is
the course of the run. -/
def Tracks (n : Nat) (w : Watch α) (r : Run α) : Prop :=
  ∀ h log, h.Closed → n ≤ h.size → ∃ seen,
    w.run (h, log) = ((r.run h).1, ((r.run h).2, log ++ seen)) ∧ Course h seen (r.run h).2

theorem tracks_pure (a : α) : Tracks n (pure a : Watch α) (pure a : Run α) :=
  fun h log _ _ => ⟨[], by rw [List.append_nil]; rfl, .direct (.refl h)⟩

theorem tracks_throw (stop : Stop) : Tracks n (throw stop : Watch α) (throw stop : Run α) :=
  fun h log _ _ => ⟨[], by rw [List.append_nil]; rfl, .direct (.refl h)⟩

theorem tracks_bind {w : Watch α} {x : Run α} {wf : α → Watch β} {f : α → Run β} {mid : Nat → α → Prop}
    (hw : Tracks n w x) (hx : closedRegion.Confines n x mid) (hf : ∀ m a, n ≤ m → mid m a → Tracks m (wf a) (f a)) :
    Tracks n (w >>= wf) (x >>= f) := by
  intro h log hc hn
  obtain ⟨seen, hrun, hcourse⟩ := hw h log hc hn
  rw [Region.run_bind, Region.run_bind, hrun]
  rcases hxr : x.run h with ⟨stop | a, h₁⟩
  · rw [hxr] at hcourse
    exact ⟨seen, rfl, hcourse⟩
  · rw [hxr] at hcourse
    obtain ⟨hc₁, hle, ha⟩ := hx h hc hn _ _ hxr
    -- what comes next starts where the first part ended, and adds to what it noted
    obtain ⟨more, hrun', hcourse'⟩ := hf _ a (le_trans hn hle) ha h₁ (log ++ seen) hc₁ (le_refl _)
    refine ⟨seen ++ more, ?_, hcourse.append hcourse'⟩
    rw [← List.append_assoc]
    exact hrun'

/-- A note of cells does not disturb what comes after it. -/
theorem tracks_note {held : List Slot} {w : Watch α} {r : Run α} (hh : ∀ slot ∈ held, slot < n) (hw : Tracks n w r) :
    Tracks n (note held >>= fun _ => w) r := by
  intro h log hc hn
  obtain ⟨seen, hrun, hcourse⟩ := hw h (log ++ [⟨h, held⟩]) hc hn
  refine ⟨⟨h, held⟩ :: seen, ?_, ?_⟩
  · rw [List.append_cons]
    exact hrun
  · exact (Course.note hc fun slot hs => lt_of_lt_of_le (hh slot hs) hn).append hcourse

theorem tracks_get {wf : Heap × List Moment → Watch α} {f : Heap → Run α}
    (hf : ∀ h log, h.Closed → n ≤ h.size → ∃ seen,
      (wf (h, log)).run (h, log) = (((f h).run h).1, (((f h).run h).2, log ++ seen)) ∧ Course h seen ((f h).run h).2) :
    Tracks n (get >>= wf) (get >>= f) := hf

/-! ## Single steps -/

theorem tracks_act {held : List Slot} {r : Run α} {good : Heap → Nat → α → Prop} (hh : ∀ slot ∈ held, slot < n)
    (hr : ∀ h : Heap, h.evolving.Confines h.size r (good h)) : Tracks n (act held r) r := by
  refine tracks_note hh fun h log _ _ => ⟨[], ?_, .direct ?_⟩
  · rw [List.append_nil]
    rfl
  · exact (hr h h (.refl h) (le_refl _) _ _ rfl).1

theorem tracks_find {held : List Slot} {r : Run Slot} {good : Heap → Nat → Slot → Prop}
    (hh : ∀ slot ∈ held, slot < n) (hr : ∀ h : Heap, h.evolving.Confines h.size r (good h))
    (hin : closedRegion.Confines n r fun n slot => slot < n) : Tracks n (find held r) r := by
  -- there is a note behind the step, where the run does nothing
  have hfind : Tracks n (find held r) (r >>= pure) := by
    refine tracks_bind (tracks_act hh hr) hin fun m slot hm hslot => tracks_note ?_ (tracks_pure slot)
    exact List.forall_mem_cons.2 ⟨hslot, fun other ho => lt_of_lt_of_le (hh other ho) hm⟩
  rwa [bind_pure] at hfind

theorem tracks_alloc {p : Payload} (hp : p.Plain) : Tracks n (alloc p) (Run.alloc p) :=
  tracks_find (fun _ hs => by cases hs) (fun _ => Region.confines_alloc hp) (Region.confines_alloc hp)

theorem tracks_fail (error : RuntimeError) : Tracks n (fail error : Watch α) (Run.fail error : Run α) := by
  have hfail : ∀ h : Heap, h.evolving.Confines h.size (Run.fail error : Run α) fun _ _ => True :=
    fun _ => Region.confines_fail
  exact tracks_act (fun _ hs => by cases hs) hfail

theorem tracks_readProperty {object : Slot} (ho : object < n) (name : String) :
    Tracks n (readProperty object name) (Run.readProperty object name) :=
  tracks_find (fun _ hs => by rw [List.mem_singleton.1 hs]; exact ho)
    (fun _ => Region.confines_readProperty name trivial) (Region.confines_readProperty name ho)

theorem tracks_writeProperty {object value : Slot} (ho : object < n) (hv : value < n) (name : String) :
    Tracks n (writeProperty object name value) (Run.writeProperty object name value) := by
  have hheld : ∀ slot ∈ [object, value], slot < n := by
    intro slot hs
    rcases List.mem_cons.1 hs with rfl | hs
    · exact ho
    · rw [List.mem_singleton.1 hs]
      exact hv
  have hwrite : Tracks n (writeProperty object name value) (Run.writeProperty object name value >>= pure) := by
    refine tracks_bind (tracks_act hheld fun _ => Region.confines_writeProperty name trivial trivial)
      (Region.confines_writeProperty name ho hv) fun m _ hm _ => ?_
    have hnote := tracks_note (fun slot hs => lt_of_lt_of_le (hheld slot hs) hm) (tracks_pure (n := m) ())
    exact hnote
  rwa [bind_pure] at hwrite

/-! ## Expressions -/

theorem tracks_foldlM_readProperty : ∀ (names : List String) {n : Nat} {slot : Slot}, slot < n →
    Tracks n (names.foldlM readProperty slot) (names.foldlM Run.readProperty slot)
  | [], _, slot, _ => tracks_pure slot
  | name :: names, _, _, hs => by
    rw [List.foldlM_cons, List.foldlM_cons]
    exact tracks_bind (tracks_readProperty hs name) (Region.confines_readProperty name hs)
      fun _ _ _ hnext => tracks_foldlM_readProperty names hnext

theorem tracks_readPath {locals : Locals} (hl : closedRegion.Binds n locals) (names : List String) :
    Tracks n (readPath locals names) (Run.readPath locals names) := by
  cases names with
  | nil => exact tracks_fail _
  | cons first rest =>
    unfold readPath Run.readPath
    dsimp only
    cases hlookup : locals.lookup first with
    | none => exact tracks_fail _
    | some slot => exact tracks_foldlM_readProperty rest (hl.lookup hlookup)

/-- Calls within the heap are tracked. -/
def Follows (wcall : Slot → List Slot → Watch Slot) (call : Caller) : Prop :=
  ∀ n function args, function < n → closedRegion.Includes n args → Tracks n (wcall function args) (call function args)

theorem forall_mem_single {slot : Slot} (hs : slot < n) : ∀ other ∈ [slot], other < n :=
  fun _ ho => List.mem_singleton.1 ho ▸ hs

mutual

theorem tracks_eval {wcall : Slot → List Slot → Watch Slot} {call : Caller} (hc : closedRegion.Admits call)
    (hw : Follows wcall call) {locals : Locals} {n : Nat} (hl : closedRegion.Binds n locals) :
    ∀ e : Expr, Tracks n (eval wcall locals e) (Run.eval call locals e)
  | .undefined => tracks_alloc trivial
  | .bool _ => tracks_alloc trivial
  | .number _ => tracks_alloc trivial
  | .text _ => tracks_alloc trivial
  | .object => tracks_alloc (p := .emptyObject) rfl
  | .error _ => tracks_alloc trivial
  | .path names => tracks_readPath hl names
  | .call callee args => by
    unfold eval Run.eval
    refine tracks_bind (tracks_readPath hl callee) (Region.confines_readPath hl callee) fun m function hm hf => ?_
    refine tracks_note (forall_mem_single hf) ?_
    refine tracks_bind (tracks_evalAll hc hw (hl.mono hm) args) (Region.confines_evalAll hc (hl.mono hm) args) ?_
    intro k slots hk hs
    have hfunction : function < k := lt_of_lt_of_le hf hk
    exact tracks_note (List.forall_mem_cons.2 ⟨hfunction, hs⟩) (hw k function slots hfunction hs)

theorem tracks_evalAll {wcall : Slot → List Slot → Watch Slot} {call : Caller} (hc : closedRegion.Admits call)
    (hw : Follows wcall call) {locals : Locals} {n : Nat} (hl : closedRegion.Binds n locals) :
    ∀ args : List Expr, Tracks n (evalAll wcall locals args) (Run.evalAll call locals args)
  | [] => tracks_pure _
  | arg :: args => by
    unfold evalAll Run.evalAll
    refine tracks_bind (tracks_eval hc hw hl arg) (Region.confines_eval hc hl arg) fun m slot hm hs => ?_
    refine tracks_note (forall_mem_single hs) ?_
    refine tracks_bind (tracks_evalAll hc hw (hl.mono hm) args) (Region.confines_evalAll hc (hl.mono hm) args) ?_
    intro k slots hk hss
    exact tracks_note (List.forall_mem_cons.2 ⟨lt_of_lt_of_le hs hk, hss⟩) (tracks_pure _)

end

/-! ## Statements -/

theorem tracks_assign {locals : Locals} {value : Slot} (hl : closedRegion.Binds n locals) (hv : value < n) :
    ∀ target : List String, Tracks n (assign locals value target) (Run.assign locals value target)
  | [] => tracks_fail _
  | [name] => tracks_pure _
  | first :: second :: rest => by
    unfold assign Run.assign
    refine tracks_bind (tracks_readPath hl _) (Region.confines_readPath hl _) fun m object hm ho => ?_
    have hvalue : value < m := lt_of_lt_of_le hv hm
    exact tracks_bind (tracks_writeProperty ho hvalue _) (Region.confines_writeProperty _ ho hvalue)
      fun _ _ _ _ => tracks_pure locals

theorem inHand_lt {p : Run.Progress} (hp : closedRegion.Carries n p) : ∀ slot ∈ inHand p, slot < n := by
  intro slot hs
  rcases List.mem_append.1 hs with hs | hs
  · obtain ⟨binding, hb, rfl⟩ := List.mem_map.1 hs
    exact hp.locals binding hb
  · exact hp.last slot (Option.mem_toList.1 hs)

section Callers

variable {wcall : Slot → List Slot → Watch Slot} {call : Caller} (hc : closedRegion.Admits call)
  (hw : Follows wcall call)

include hc hw

theorem tracks_step {p : Run.Progress} (hp : closedRegion.Carries n p) :
    ∀ s : Statement, Tracks n (step wcall p s) (Run.step call p s)
  | .assign target e => by
    -- every statement notes what it starts with before it evaluates anything
    refine tracks_note (inHand_lt hp) ?_
    refine tracks_bind (tracks_eval hc hw hp.locals e) (Region.confines_eval hc hp.locals e) fun m value hm hv => ?_
    refine tracks_note (forall_mem_single hv) ?_
    exact tracks_bind (tracks_assign (hp.locals.mono hm) hv target)
      (Region.confines_assign (hp.locals.mono hm) hv target) fun _ _ _ _ => tracks_pure _
  | .throw e => by
    refine tracks_note (inHand_lt hp) ?_
    exact tracks_bind (tracks_eval hc hw hp.locals e) (Region.confines_eval hc hp.locals e)
      fun _ value _ hv => tracks_note (forall_mem_single hv) (tracks_throw _)
  | .return (some e) => by
    refine tracks_note (inHand_lt hp) ?_
    exact tracks_bind (tracks_eval hc hw hp.locals e) (Region.confines_eval hc hp.locals e)
      fun _ value _ hv => tracks_note (forall_mem_single hv) (tracks_pure _)
  | .return none => by
    refine tracks_note (inHand_lt hp) ?_
    exact tracks_bind (tracks_alloc trivial) (Region.confines_alloc trivial) fun _ _ _ _ => tracks_pure _
  | .expr e => by
    refine tracks_note (inHand_lt hp) ?_
    exact tracks_bind (tracks_eval hc hw hp.locals e) (Region.confines_eval hc hp.locals e)
      fun _ value _ hv => tracks_note (forall_mem_single hv) (tracks_pure _)

theorem tracks_steps : ∀ (statements : List Statement) {n : Nat} {p : Run.Progress}, closedRegion.Carries n p →
    Tracks n (steps wcall p statements) (Run.steps call p statements)
  | [], _, _, hp => tracks_note (inHand_lt hp) (tracks_pure _)
  | s :: rest, _, _, hp => by
    unfold steps Run.steps
    refine tracks_bind (tracks_step hc hw hp s) (Region.confines_step hc hp s) fun m flow _ hf => ?_
    cases flow with
    | next p => exact tracks_steps rest hf
    | returned value => exact tracks_pure _

end Callers

/-! ## Bodies and calls -/

theorem tracks_bindParams : ∀ (params : List String) (args : List Slot) {n : Nat} {locals : Locals},
    closedRegion.Binds n locals → closedRegion.Includes n args →
    Tracks n (bindParams locals params args) (Run.bindParams locals params args)
  | [], _, _, _, _, _ => by
    unfold bindParams Run.bindParams
    exact tracks_pure _
  | param :: params, [], _, _, hl, ha => by
    unfold bindParams Run.bindParams
    refine tracks_bind (tracks_alloc trivial) (Region.confines_alloc trivial) fun m slot hm hs => ?_
    exact tracks_bindParams params [] ((hl.mono hm).cons param hs) (ha.mono hm)
  | param :: params, arg :: args, _, _, hl, ha => by
    unfold bindParams Run.bindParams
    exact tracks_bindParams params args (hl.cons param (ha arg List.mem_cons_self))
      fun slot hs => ha slot (List.mem_cons_of_mem _ hs)

theorem tracks_body {wcall : Slot → List Slot → Watch Slot} {call : Caller} (hc : closedRegion.Admits call)
    (hw : Follows wcall call) (b : Body) {args : List Slot} (ha : closedRegion.Includes n args) :
    Tracks n (body wcall b args) (Run.body call b args) := by
  have hnil : closedRegion.Binds n [] := fun _ hb => by cases hb
  refine tracks_note ha ?_
  refine tracks_bind (tracks_bindParams b.params args hnil ha) (Region.confines_bindParams b.params args hnil ha)
    fun m locals _ hl => ?_
  exact tracks_steps hc hw b.statements ⟨hl, fun _ hs => by cases hs⟩

theorem tracks_lookUpModule (modules : Table Float) {args : List Slot} (ha : closedRegion.Includes n args) :
    Tracks n (find args (Run.lookUpModule modules args)) (Run.lookUpModule modules args) :=
  tracks_find ha (fun _ => Region.confines_lookUpModule modules args) (Region.confines_lookUpModule modules args)

theorem follows_callWithin : ∀ depth : Nat, Follows (callWithin depth) (Run.callWithin depth) := by
  intro depth
  -- as for the region of a run: the calls inside a body have one level less
  induction depth with
  | zero =>
    intro n function args hf ha
    unfold callWithin Run.callWithin
    refine tracks_note (List.forall_mem_cons.2 ⟨hf, ha⟩) (tracks_get fun h log hc hn => ?_)
    cases h.payload function with
    | function b => exact tracks_throw _ h log hc hn
    | moduleLookup modules => exact tracks_lookUpModule modules ha h log hc hn
    | _ => exact tracks_fail _ h log hc hn
  | succ depth ih =>
    intro n function args hf ha
    unfold callWithin Run.callWithin
    refine tracks_note (List.forall_mem_cons.2 ⟨hf, ha⟩) (tracks_get fun h log hc hn => ?_)
    cases h.payload function with
    | function b =>
      have hadmits := closedRegion.admits_callWithin depth
      refine tracks_bind (tracks_body hadmits ih b ha) (Region.confines_body hadmits b ha)
        (fun m flow _ _ => ?_) h log hc hn
      cases flow with
      | next p => exact tracks_alloc trivial
      | returned value => exact tracks_pure _
    | moduleLookup modules => exact tracks_lookUpModule modules ha h log hc hn
    | _ => exact tracks_fail _ h log hc hn

theorem tracks_program (depth n : Nat) (b : Body) : Tracks n (program depth b) (Run.program depth b) := by
  have hadmits := closedRegion.admits_callWithin depth
  have hnil : closedRegion.Includes n [] := fun _ hs => by cases hs
  refine tracks_bind (tracks_body hadmits (follows_callWithin depth) b hnil) (Region.confines_body hadmits b hnil)
    fun m flow _ _ => ?_
  cases flow with
  | returned value => exact tracks_pure _
  | next p =>
    dsimp only
    cases p.last with
    | some value => exact tracks_pure value
    | none => exact tracks_alloc trivial

end Watch

end ScriptHost
