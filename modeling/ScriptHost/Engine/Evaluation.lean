/-
Running bodies. A run changes the heap and ends with a value, with a thrown value, or because too
many calls were nested; what it did to the heap before a throw stays. What happens at a call is a
parameter of the evaluation of expressions and statements, and tied up at the end by counting how
deeply calls may nest.
-/
import ScriptHost.Engine.Heap

namespace ScriptHost

open Script

inductive Stop where
  | thrown (value : Slot)
  | tooDeep

abbrev Run := ExceptT Stop (StateM Heap)

namespace Run

/-! ## Single steps -/

def alloc (payload : Payload) : Run Slot := do
  let h ← get
  set (h.push payload)
  return h.size

def fail {α : Type} (error : RuntimeError) : Run α := do
  let slot ← alloc (.error error.message)
  throw (.thrown slot)

/-- Reads a property. A missing one is `undefined`, and so is any property of a value that has none;
only `undefined` itself cannot be read from. -/
def readProperty (object : Slot) (name : String) : Run Slot := do
  match (← get).payload object with
  | .object properties =>
    match properties.get? name with
    | some slot => return slot
    | none => alloc .undefined
  | .undefined => fail (.readOfUndefined name)
  | _ => alloc .undefined

def writeProperty (object : Slot) (name : String) (value : Slot) : Run Unit := do
  let h ← get
  match h.payload object with
  | .object properties => set (h.setPayload object (.object (properties.insert name value)))
  | _ => fail (.writeToNonObject name)

end Run

/-- Names and their values, the latest binding first. -/
abbrev Locals := List (String × Slot)

abbrev Caller := Slot → List Slot → Run Slot

namespace Run

/-! ## Expressions -/

def readPath (locals : Locals) : List String → Run Slot
  | [] => fail .emptyPath
  | first :: rest =>
    match locals.lookup first with
    | some slot => rest.foldlM readProperty slot
    | none => fail (.notDefined first)

mutual

def eval (call : Caller) (locals : Locals) : Expr → Run Slot
  | .undefined => alloc .undefined
  | .bool value => alloc (.bool value)
  | .number value => alloc (.number value)
  | .text value => alloc (.text value)
  | .object => alloc .emptyObject
  | .error message => alloc (.error message)
  | .path names => readPath locals names
  | .call callee args => do
    let function ← readPath locals callee
    let slots ← evalAll call locals args
    call function slots

/-- The values of expressions, from left to right. -/
def evalAll (call : Caller) (locals : Locals) : List Expr → Run (List Slot)
  | [] => return []
  | arg :: args => do
    let slot ← eval call locals arg
    let slots ← evalAll call locals args
    return slot :: slots

end

/-! ## Statements -/

/-- Where a body stands between two statements: its locals and the value of the latest statement
that is an expression. -/
structure Progress where
  locals : Locals
  last : Option Slot

/-- Binds a local or writes the property at the end of a path. -/
def assign (locals : Locals) (value : Slot) : List String → Run Locals
  | [] => fail .emptyTarget
  | [name] => return (name, value) :: locals
  | first :: second :: rest => do
    let names := first :: second :: rest
    let object ← readPath locals names.dropLast
    writeProperty object (names.getLastD "") value
    return locals

/-- How a statement ends: the next one follows, or the body returns a value. -/
inductive Flow where
  | next (progress : Progress)
  | returned (value : Slot)

def step (call : Caller) (p : Progress) : Statement → Run Flow
  | .assign target expr => do
    let value ← eval call p.locals expr
    let locals ← assign p.locals value target
    return .next { p with locals := locals }
  | .throw expr => do
    let value ← eval call p.locals expr
    throw (.thrown value)
  | .return (some expr) => do
    let value ← eval call p.locals expr
    return .returned value
  | .return none => do
    let value ← alloc .undefined
    return .returned value
  | .expr expr => do
    let value ← eval call p.locals expr
    return .next { p with last := some value }

def steps (call : Caller) : Progress → List Statement → Run Flow
  | p, [] => return .next p
  | p, statement :: rest => do
    match ← step call p statement with
    | .next p => steps call p rest
    | .returned value => return .returned value

/-! ## Bodies and calls -/

/-- Binds parameters to arguments; what has no argument is `undefined`, and arguments too many are
left out. -/
def bindParams : Locals → List String → List Slot → Run Locals
  | locals, [], _ => return locals
  | locals, param :: params, [] => do
    let slot ← alloc .undefined
    bindParams ((param, slot) :: locals) params []
  | locals, param :: params, arg :: args => bindParams ((param, arg) :: locals) params args

def body (call : Caller) (b : Body) (args : List Slot) : Run Flow := do
  let locals ← bindParams [] b.params args
  steps call ⟨locals, none⟩ b.statements

def lookUpModule (modules : Table Float) (args : List Slot) : Run Slot := do
  let h ← get
  let name := args.head?.bind h.text?
  match name.bind modules.get? with
  | some value => alloc (.number value)
  | none => fail (.noSuchModule (name.getD ""))

/-- Calls a value, where up to `depth` bodies may run inside each other. -/
def callWithin (depth : Nat) : Caller := fun function args => do
  match (← get).payload function with
  | .function b =>
    match depth with
    | 0 => throw .tooDeep
    | depth + 1 =>
      match ← body (callWithin depth) b args with
      | .returned value => return value
      -- unlike a program, a function does not pass on its last value
      | .next _ => alloc .undefined
  | .moduleLookup modules => lookUpModule modules args
  | _ => fail .notFunction

/-- Runs a body as a program: its value is what it returns, else the value of its last expression. -/
def program (depth : Nat) (b : Body) : Run Slot := do
  match ← body (callWithin depth) b [] with
  | .returned value => return value
  | .next p =>
    match p.last with
    | some value => return value
    | none => alloc .undefined

end Run

end ScriptHost
