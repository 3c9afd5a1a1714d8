/-
Runs that raise no syntax error. The interpreter fails where a path or the target of an assignment is empty.
Bodies that were read have no empty ones, and a run makes no other bodies. Main result: on a heap whose functions
were all read from texts it makes no difference what stands in those two places, and no error that a run makes is
a syntax error; so these are raised by the reader only.
-/
import ScriptHost.Proofs.Engine.Region
import ScriptHost.Proofs.Script.Paths
import ScriptHost.Proofs.Script.Program
import Mathlib.Tactic

namespace ScriptHost

open Script

/-! ## The interpreter with other ends of empty paths

Clause by clause the interpreter, but what is to happen at an empty path and at an empty target is a parameter.
-/

/-- What runs where a path is empty, and where a target is. -/
structure Gap where
  path : Run Slot
  target : Run Locals

namespace Gap

/-- What the interpreter has there. -/
def raise : Gap := ⟨Run.fail .emptyPath, Run.fail .emptyTarget⟩

variable (g : Gap)

def readPath (locals : Locals) : List String → Run Slot
  | [] => g.path
  | first :: rest => Run.readPath locals (first :: rest)

mutual

def eval (call : Caller) (locals : Locals) : Expr → Run Slot
  | .path names => g.readPath locals names
  | .call callee args => do
    let function ← g.readPath locals callee
    let slots ← evalAll call locals args
    call function slots
  | constant => Run.eval call locals constant

def evalAll (call : Caller) (locals : Locals) : List Expr → Run (List Slot)
  | [] => return []
  | arg :: args => do
    let slot ← eval call locals arg
    let slots ← evalAll call locals args
    return slot :: slots

end

def assign (locals : Locals) (value : Slot) : List String → Run Locals
  | [] => g.target
  | [name] => return (name, value) :: locals
  | first :: second :: rest => do
    let names := first :: second :: rest
    let object ← g.readPath locals names.dropLast
    Run.writeProperty object (names.getLastD "") value
    return locals

def step (call : Caller) (p : Run.Progress) : Statement → Run Run.Flow
  | .assign target expr => do
    let value ← g.eval call p.locals expr
    let locals ← g.assign p.locals value target
    return .next { p with locals := locals }
  | .throw expr => do
    let value ← g.eval call p.locals expr
    throw (.thrown value)
  | .return (some expr) => do
    let value ← g.eval call p.locals expr
    return .returned value
  | .return none => do
    let value ← Run.alloc .undefined
    return .returned value
  | .expr expr => do
    let value ← g.eval call p.locals expr
    return .next { p with last := some value }

def steps (call : Caller) : Run.Progress → List Statement → Run Run.Flow
  | p, [] => return .next p
  | p, statement :: rest => do
    match ← g.step call p statement with
    | .next p => steps call p rest
    | .returned value => return .returned value

def body (call : Caller) (b : Body) (args : List Slot) : Run Run.Flow := do
  let locals ← Run.bindParams [] b.params args
  g.steps call ⟨locals, none⟩ b.statements

def callWithin (depth : Nat) : Caller := fun function args => do
  match (← get).payload function with
  | .function b =>
    match depth with
    | 0 => throw .tooDeep
    | depth + 1 =>
      match ← g.body (callWithin depth) b args with
      | .returned value => return value
      | .next _ => Run.alloc .undefined
  | .moduleLookup modules => Run.lookUpModule modules args
  | _ => Run.fail .notFunction

def program (depth : Nat) (b : Body) : Run Slot := do
  match ← g.body (g.callWithin depth) b [] with
  | .returned value => return value
  | .next p =>
    match p.last with
    | some value => return value
    | none => Run.alloc .undefined

/-! ### With the ends that the interpreter has it is the interpreter -/

theorem raise_readPath (locals : Locals) (names : List String) :
    raise.readPath locals names = Run.readPath locals names := by
  cases names <;> rfl

mutual

theorem raise_eval (call : Caller) (locals : Locals) : ∀ e : Expr, raise.eval call locals e = Run.eval call locals e
  | .undefined | .bool _ | .number _ | .text _ | .object | .error _ => by rw [eval] <;> nofun
  | .path names => raise_readPath locals names
  | .call callee args => by
    rw [eval, Run.eval, raise_readPath, raise_evalAll]

theorem raise_evalAll (call : Caller) (locals : Locals) :
    ∀ args : List Expr, raise.evalAll call locals args = Run.evalAll call locals args
  | [] => rfl
  | arg :: args => by rw [evalAll, Run.evalAll, raise_eval, raise_evalAll]

end

theorem raise_assign (locals : Locals) (value : Slot) :
    ∀ target : List String, raise.assign locals value target = Run.assign locals value target
  | [] => rfl
  | [_] => rfl
  | first :: second :: rest => by
    rw [assign, Run.assign]
    simp only [raise_readPath]

theorem raise_step (call : Caller) (p : Run.Progress) (statement : Statement) :
    raise.step call p statement = Run.step call p statement := by
  cases statement with
  | assign target value => simp only [step, Run.step, raise_eval, raise_assign]
  | throw value => simp only [step, Run.step, raise_eval]
  | «return» value =>
    cases value with
    | none => rfl
    | some value => simp only [step, Run.step, raise_eval]
  | expr value => simp only [step, Run.step, raise_eval]

theorem raise_steps (call : Caller) : ∀ (statements : List Statement) (p : Run.Progress),
    raise.steps call p statements = Run.steps call p statements
  | [], _ => rfl
  | statement :: rest, p => by
    rw [steps, Run.steps, raise_step]
    congr
    funext flow
    cases flow with
    | next p => exact raise_steps call rest p
    | returned value => rfl

theorem raise_body (call : Caller) (b : Body) (args : List Slot) : raise.body call b args = Run.body call b args := by
  simp only [body, Run.body, raise_steps]

theorem raise_callWithin (depth : Nat) : raise.callWithin depth = Run.callWithin depth := by
  induction depth with
  | zero =>
    funext function args
    unfold callWithin Run.callWithin
    refine bind_congr fun h => ?_
    cases h.payload function <;> rfl
  | succ depth ih =>
    funext function args
    have hbody : ∀ b, raise.body (raise.callWithin depth) b args = Run.body (Run.callWithin depth) b args :=
      fun b => by rw [ih, raise_body]
    unfold callWithin Run.callWithin
    refine bind_congr fun h => ?_
    cases h.payload function with
    | function b => exact congrArg (· >>= _) (hbody b)
    | _ => rfl

theorem raise_program (depth : Nat) (b : Body) : raise.program depth b = Run.program depth b := by
  have hbody : raise.body (raise.callWithin depth) b [] = Run.body (Run.callWithin depth) b [] := by
    rw [raise_callWithin, raise_body]
  unfold program Run.program
  exact congrArg (· >>= _) hbody

end Gap

/-! ## Errors that are no syntax errors -/

/-- The message of a syntax error. -/
def IsSyntaxMessage (message : String) : Prop := "SyntaxError".toList <+: message.toList

/-- The message begins otherwise. -/
def StartsOther (message : String) : Prop := ∃ c rest, message.toList = c :: rest ∧ c ≠ 'S'

theorem StartsOther.append {message : String} (h : StartsOther message) (more : String) :
    StartsOther (message ++ more) := by
  obtain ⟨c, rest, hmessage, hc⟩ := h
  exact ⟨c, rest ++ more.toList, by rw [String.toList_append, hmessage, List.cons_append], hc⟩

theorem StartsOther.not_isSyntaxMessage {message : String} (h : StartsOther message) : ¬ IsSyntaxMessage message := by
  rintro ⟨more, hmore⟩
  obtain ⟨c, rest, hmessage, hc⟩ := h
  rw [hmessage] at hmore
  exact hc (List.cons.inj hmore).1.symm

theorem startsOther_of_isErrorMessage {message : String} (h : IsErrorMessage message) : StartsOther message := by
  obtain ⟨text, rfl⟩ := h
  exact .append ⟨'E', _, rfl, by decide⟩ text

/-- All errors of the interpreter but the two. -/
def RuntimeError.Other : RuntimeError → Prop
  | .emptyPath | .emptyTarget => False
  | _ => True

theorem RuntimeError.Other.startsOther {error : RuntimeError} (h : error.Other) : StartsOther error.message := by
  cases error with
  | emptyPath | emptyTarget => exact h.elim
  | notFunction | badSnapshotHeader | noSuchRecord => exact ⟨_, _, rfl, by decide⟩
  | notDefined name => exact .append (.append ⟨'R', _, rfl, by decide⟩ _) _
  | readOfUndefined name | writeToNonObject name => exact .append (.append ⟨'T', _, rfl, by decide⟩ _) _
  | noSuchModule name => exact .append (.append ⟨'E', _, rfl, by decide⟩ _) _

/-- Not a syntax error. -/
def Payload.SyntaxFree : Payload → Prop
  | .error message => ¬ IsSyntaxMessage message
  | _ => True

namespace Heap

/-- Every function of a script was read from a text. -/
def Scripted (h : Heap) : Prop :=
  ∀ slot b, h.payload slot = .function b → ∃ params source, Body.ofText params source = .ok b

/-- No value from slot `n` on is a syntax error. -/
def SyntaxFree (n : Nat) (h : Heap) : Prop :=
  ∀ slot message, n ≤ slot → h.payload slot = .error message → ¬ IsSyntaxMessage message

/-- What a run keeps. -/
structure Clean (n : Nat) (h : Heap) : Prop where
  scripted : h.Scripted
  syntaxFree : h.SyntaxFree n

theorem Clean.start {h : Heap} (hs : h.Scripted) : h.Clean h.size := by
  refine ⟨hs, fun slot message hslot hp => ?_⟩
  rw [payload_eq_undefined_of_le hslot] at hp
  cases hp

variable {h : Heap} {n : Nat}

theorem scripted_empty : empty.Scripted := fun _ _ hp => by cases hp

theorem Scripted.push {p : Payload} (hs : h.Scripted)
    (hp : ∀ b, p = .function b → ∃ params source, Body.ofText params source = .ok b) : (h.push p).Scripted := by
  intro slot b hb
  rw [payload_push] at hb
  split at hb
  · exact hp b hb
  · exact hs slot b hb

/-- The reader makes more functions. -/
theorem Scripted.push_function {params source : String} {b : Body} (hs : h.Scripted)
    (hb : Body.ofText params source = .ok b) : (h.push (.function b)).Scripted := by
  refine hs.push fun other ho => ?_
  cases ho
  exact ⟨params, source, hb⟩

theorem Clean.push {p : Payload} (hc : h.Clean n) (hplain : p.Plain) (hfree : p.SyntaxFree) : (h.push p).Clean n := by
  refine ⟨hc.scripted.push fun b hb => ?_, fun slot message hslot hp => ?_⟩
  · subst hb
    exact hplain.elim
  · rw [payload_push] at hp
    split at hp
    · subst hp
      exact hfree
    · exact hc.syntaxFree slot message hslot hp

theorem Clean.write {slot : Slot} (hc : h.Clean n) (properties : Table Slot) :
    (h.setPayload slot (.object properties)).Clean n := by
  refine ⟨fun other b hp => ?_, fun other message hother hp => ?_⟩
  · rw [payload_setPayload] at hp
    split at hp
    · cases hp
    · exact hc.scripted other b hp
  · rw [payload_setPayload] at hp
    split at hp
    · cases hp
    · exact hc.syntaxFree other message hother hp

end Heap

/-! ## Runs that come to the same -/

namespace Run

variable {α β : Type} {n : Nat}

/-- From any clean heap the two runs come to the same, and leave it clean. -/
def Agree (n : Nat) (r s : Run α) : Prop := ∀ h : Heap, h.Clean n → r.run h = s.run h ∧ (s.run h).2.Clean n

/-- Callers that come to the same. -/
def Alike (n : Nat) (call call' : Caller) : Prop := ∀ function args, Agree n (call function args) (call' function args)

theorem agree_pure (a : α) : Agree n (pure a : Run α) (pure a) := fun _ hc => ⟨rfl, hc⟩

theorem agree_throw (stop : Stop) : Agree n (throw stop : Run α) (throw stop) := fun _ hc => ⟨rfl, hc⟩

theorem agree_bind {x y : Run α} {f g : α → Run β} (hx : Agree n x y) (hf : ∀ a, Agree n (f a) (g a)) :
    Agree n (x >>= f) (y >>= g) := by
  intro h hc
  obtain ⟨hrun, hclean⟩ := hx h hc
  rw [Region.run_bind, Region.run_bind, hrun]
  rcases hy : y.run h with ⟨stop | a, h₁⟩
  · rw [hy] at hclean
    exact ⟨rfl, hclean⟩
  · rw [hy] at hclean
    exact hf a h₁ hclean

theorem agree_get {f g : Heap → Run α}
    (hf : ∀ h : Heap, h.Clean n → (f h).run h = (g h).run h ∧ ((g h).run h).2.Clean n) :
    Agree n (get >>= f) (get >>= g) := hf

/-! ### Single steps -/

theorem agree_alloc {p : Payload} (hplain : p.Plain) (hfree : p.SyntaxFree) : Agree n (alloc p) (alloc p) :=
  fun _ hc => ⟨rfl, hc.push hplain hfree⟩

theorem agree_fail (error : RuntimeError) (h : error.Other) : Agree n (fail error : Run α) (fail error) :=
  agree_bind (agree_alloc trivial h.startsOther.not_isSyntaxMessage) fun _ => agree_throw _

theorem agree_readProperty (object : Slot) (name : String) :
    Agree n (readProperty object name) (readProperty object name) := by
  refine agree_get fun h hc => ?_
  split
  · split
    · exact agree_pure _ h hc
    · exact agree_alloc (p := .undefined) trivial trivial h hc
  · exact agree_fail (.readOfUndefined name) trivial h hc
  · exact agree_alloc (p := .undefined) trivial trivial h hc

theorem agree_writeProperty (object : Slot) (name : String) (value : Slot) :
    Agree n (writeProperty object name value) (writeProperty object name value) := by
  refine agree_get fun h hc => ?_
  split
  · exact ⟨rfl, hc.write _⟩
  · exact agree_fail (.writeToNonObject name) trivial h hc

theorem agree_foldlM_readProperty : ∀ (names : List String) (slot : Slot),
    Agree n (names.foldlM readProperty slot) (names.foldlM readProperty slot)
  | [], _ => agree_pure _
  | name :: names, slot => by
    rw [List.foldlM_cons]
    exact agree_bind (agree_readProperty slot name) (agree_foldlM_readProperty names)

/-- The one place where a path has to have names. -/
theorem agree_readPath (g : Gap) (locals : Locals) {names : List String} (hn : names ≠ []) :
    Agree n (g.readPath locals names) (readPath locals names) := by
  obtain ⟨first, rest, rfl⟩ := List.exists_cons_of_ne_nil hn
  unfold Gap.readPath readPath
  dsimp only
  cases locals.lookup first with
  | some slot => exact agree_foldlM_readProperty rest slot
  | none => exact agree_fail (.notDefined first) trivial

/-! ### Expressions -/

variable {g : Gap} {call call' : Caller}

mutual

theorem agree_eval (hc : Alike n call call') (locals : Locals) :
    ∀ e : Expr, IsRead e.paths e.messages → Agree n (g.eval call locals e) (eval call' locals e)
  | .undefined, _ => agree_alloc (p := .undefined) trivial trivial
  | .bool value, _ => agree_alloc (p := .bool value) trivial trivial
  | .number value, _ => agree_alloc (p := .number value) trivial trivial
  | .text value, _ => agree_alloc (p := .text value) trivial trivial
  | .object, _ => agree_alloc (p := .emptyObject) rfl trivial
  | .error message, hr =>
    have hmessage := startsOther_of_isErrorMessage (hr.message message List.mem_cons_self)
    agree_alloc (p := .error message) trivial hmessage.not_isSyntaxMessage
  | .path names, hr => agree_readPath g locals (hr.path names List.mem_cons_self).ne_nil
  | .call callee args, hr => by
    unfold Gap.eval eval
    refine agree_bind (agree_readPath g locals (hr.path callee List.mem_cons_self).ne_nil) fun function => ?_
    exact agree_bind (agree_evalAll hc locals args hr.tail) (hc function)

theorem agree_evalAll (hc : Alike n call call') (locals : Locals) :
    ∀ args : List Expr, IsRead (pathsOf args) (messagesOf args) →
      Agree n (g.evalAll call locals args) (evalAll call' locals args)
  | [], _ => agree_pure _
  | arg :: args, hr => by
    unfold Gap.evalAll evalAll
    refine agree_bind (agree_eval hc locals arg hr.left) fun slot => ?_
    exact agree_bind (agree_evalAll hc locals args hr.right) fun slots => agree_pure _

end

/-! ### Statements -/

theorem agree_assign (g : Gap) (locals : Locals) (value : Slot) :
    ∀ {target : List String}, target ≠ [] → Agree n (g.assign locals value target) (assign locals value target)
  | [], hn => absurd rfl hn
  | [_], _ => agree_pure _
  | first :: second :: rest, _ => by
    unfold Gap.assign assign
    refine agree_bind (agree_readPath g locals (by simp)) fun object => ?_
    exact agree_bind (agree_writeProperty object _ value) fun _ => agree_pure _

theorem agree_step (hc : Alike n call call') (p : Progress) :
    ∀ {statement : Statement}, IsRead statement.paths statement.messages →
      Agree n (g.step call p statement) (step call' p statement)
  | .assign target value, hr => by
    refine agree_bind (agree_eval hc p.locals value hr.tail) fun slot => ?_
    exact agree_bind (agree_assign g p.locals slot (hr.path target List.mem_cons_self).ne_nil) fun _ => agree_pure _
  | .throw value, hr => agree_bind (agree_eval hc p.locals value hr) fun _ => agree_throw _
  | .return (some value), hr => by
    have hvalue : IsRead value.paths value.messages := by
      simpa [Statement.paths, Statement.messages] using hr
    exact agree_bind (agree_eval hc p.locals value hvalue) fun _ => agree_pure _
  | .return none, _ => agree_bind (agree_alloc (p := .undefined) trivial trivial) fun _ => agree_pure _
  | .expr value, hr => agree_bind (agree_eval hc p.locals value hr) fun _ => agree_pure _

theorem agree_steps (hc : Alike n call call') : ∀ {statements : List Statement},
    (∀ statement ∈ statements, IsRead statement.paths statement.messages) → ∀ p : Progress,
      Agree n (g.steps call p statements) (steps call' p statements)
  | [], _, p => agree_pure _
  | statement :: rest, hr, p => by
    obtain ⟨hstatement, hrest⟩ := List.forall_mem_cons.1 hr
    unfold Gap.steps steps
    refine agree_bind (agree_step hc p hstatement) fun flow => ?_
    cases flow with
    | next p => exact agree_steps hc hrest p
    | returned value => exact agree_pure _

theorem agree_bindParams : ∀ (params : List String) (args : List Slot) (locals : Locals),
    Agree n (bindParams locals params args) (bindParams locals params args)
  | [], _, _ => by
    unfold bindParams
    exact agree_pure _
  | param :: params, [], _ => by
    unfold bindParams
    exact agree_bind (agree_alloc (p := .undefined) trivial trivial) fun _ => agree_bindParams params [] _
  | param :: params, arg :: args, _ => by
    unfold bindParams
    exact agree_bindParams params args _

/-! ### Bodies and calls -/

theorem agree_body (hc : Alike n call call') {b : Body} (hb : IsRead b.paths b.messages) (args : List Slot) :
    Agree n (g.body call b args) (body call' b args) :=
  agree_bind (agree_bindParams b.params args []) fun locals => agree_steps hc (Body.isRead_iff.1 hb) ⟨locals, none⟩

theorem agree_lookUpModule (modules : Table Float) (args : List Slot) :
    Agree n (lookUpModule modules args) (lookUpModule modules args) := by
  refine agree_get fun h hc => ?_
  dsimp only
  split
  next value _ => exact agree_alloc (p := .number value) trivial trivial h hc
  next => exact agree_fail (.noSuchModule _) trivial h hc

theorem alike_callWithin (g : Gap) (n depth : Nat) : Alike n (g.callWithin depth) (callWithin depth) := by
  -- a body calls with one level less
  induction depth with
  | zero =>
    intro function args
    unfold Gap.callWithin callWithin
    refine agree_get fun h hc => ?_
    cases h.payload function with
    | function b => exact agree_throw .tooDeep h hc
    | moduleLookup modules => exact agree_lookUpModule modules args h hc
    | _ => exact agree_fail .notFunction trivial h hc
  | succ depth ih =>
    intro function args
    unfold Gap.callWithin callWithin
    refine agree_get fun h hc => ?_
    cases hp : h.payload function with
    | function b =>
      obtain ⟨params, source, hb⟩ := hc.scripted function b hp
      refine agree_bind (agree_body ih (Body.isRead_of_ofText hb) args) (fun flow => ?_) h hc
      cases flow with
      | next p => exact agree_alloc (p := .undefined) trivial trivial
      | returned value => exact agree_pure value
    | moduleLookup modules => exact agree_lookUpModule modules args h hc
    | _ => exact agree_fail .notFunction trivial h hc

theorem agree_program (g : Gap) (n depth : Nat) {b : Body} (hb : IsRead b.paths b.messages) :
    Agree n (g.program depth b) (program depth b) := by
  refine agree_bind (agree_body (alike_callWithin g n depth) hb []) fun flow => ?_
  cases flow with
  | returned value => exact agree_pure value
  | next p =>
    dsimp only
    cases p.last with
    | some value => exact agree_pure value
    | none => exact agree_alloc (p := .undefined) trivial trivial

/-! ## Where syntax errors are raised -/

/-- From this heap the run comes to no empty path and no empty target, whatever was to happen there. It leaves
functions only that were read from texts, and nothing that it makes is a syntax error. -/
structure Faultless (h : Heap) (r : Gap → Run α) (s : Run α) : Prop where
  untaken : ∀ g, (r g).run h = s.run h
  scripted : (s.run h).2.Scripted
  syntaxFree : (s.run h).2.SyntaxFree h.size

theorem faultless_of_agree {h : Heap} (hs : h.Scripted) {r : Gap → Run α} {s : Run α}
    (ha : ∀ g, Agree h.size (r g) s) : Faultless h r s := by
  obtain ⟨-, hclean⟩ := ha .raise h (.start hs)
  exact ⟨fun g => (ha g h (.start hs)).1, hclean.scripted, hclean.syntaxFree⟩

/-- The paths of a body that was read are not empty and made of identifiers. Where all functions were read from
texts, no call and no program comes to an empty path or target, and none makes a syntax error. -/
theorem syntax_errors_only_read {params source : String} {b : Body} (hb : Body.ofText params source = .ok b) :
    (∀ names ∈ b.paths, IsPath names) ∧
    ∀ depth, Gap.raise.callWithin depth = callWithin depth ∧ Gap.raise.program depth b = program depth b ∧
      ∀ h : Heap, h.Scripted →
        (∀ function args, Faultless h (fun g => g.callWithin depth function args) (callWithin depth function args)) ∧
        Faultless h (fun g => g.program depth b) (program depth b) := by
  have hread := Body.isRead_of_ofText hb
  refine ⟨hread.path, fun depth => ⟨Gap.raise_callWithin depth, Gap.raise_program depth b, fun h hs => ⟨?_, ?_⟩⟩⟩
  · intro function args
    exact faultless_of_agree hs fun g => alike_callWithin g h.size depth function args
  · exact faultless_of_agree hs fun g => agree_program g h.size depth hread

/-- A call makes an error that the script asks for, and one of its own. -/
theorem syntax_errors_only_read_call : ∃ (b : Body) (h : Heap),
    Body.ofText "o" "o.x = new Error(\"Syntax\")\nreturn f(o.x)" = .ok b ∧
    b.paths = [["o", "x"], ["f"], ["o", "x"]] ∧ h.Scripted ∧ h.payload 1 = .function b ∧
    Faultless h (fun g => g.callWithin 1 1 [0]) (callWithin 1 1 [0]) ∧
    [2, 3].map (fun slot => (((callWithin 1 1 [0]).run h).2.payload slot).message) =
      ["Error: Syntax", "ReferenceError: f is not defined"] := by
  have hassign : Statement.Written (.assign ["o", "x"] (.error "Error: Syntax")) "o.x = new Error(\"Syntax\")".toList :=
    .assign (by decide) (by decide) (@Expr.Written.error "Syntax" _ rfl)
  have hreturn : Statement.Written (.return (some (.call ["f"] [.path ["o", "x"]]))) "return f(o.x)".toList :=
    .returnValue (@Expr.Written.call ["f"] [(.path ["o", "x"], "o.x".toList)] (by decide)
      (List.forall_mem_singleton.2 (.path (by decide))))
  have hb := Body.ofText_of_written "o" "o.x = new Error(\"Syntax\")\nreturn f(o.x)"
    (.cons (.inl rfl) hassign (.single hreturn))
  have hs := (Heap.scripted_empty.push (p := .emptyObject) nofun).push_function hb
  obtain ⟨-, hruns⟩ := syntax_errors_only_read hb
  obtain ⟨-, -, hcalls⟩ := hruns 1
  exact ⟨_, _, hb, rfl, hs, rfl, (hcalls _ hs).1 1 [0], by decide +kernel⟩

end Run

end ScriptHost
