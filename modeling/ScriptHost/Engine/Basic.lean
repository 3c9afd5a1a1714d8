/-
The engine as its host sees it. Every value that the host gets is a reference that it has to give
back once; the engine counts what it hands out and what comes back. Giving back more than was
handed out, and nesting calls too deeply, halts the engine.
-/
import ScriptHost.Decimal.Layout
import ScriptHost.Engine.Evaluation
import ScriptHost.Engine.Snapshot
import ScriptHost.Script.Factory
import ScriptHost.Script.Parser

namespace ScriptHost

/-- A reference of the host to a value. References are numbered from one in the order in which they
are handed out. -/
structure Ref where
  slot : Slot
  serial : Nat
  deriving Repr, DecidableEq

structure ParseRequest where
  name : String
  params : String
  deriving Repr, DecidableEq

structure Engine where
  heap : Heap
  parses : Array ParseRequest
  calls : Nat
  releases : Nat
  /-- References handed out so far. -/
  issued : Nat
  /-- How many bodies may run inside each other. -/
  depth : Nat

/-- Why the engine cannot go on. -/
inductive Halt where
  | tooDeep
  | overReleased (slot : Slot)
  deriving Repr, DecidableEq

abbrev EngineM := StateT Engine (Except Halt)

namespace Engine

def new (depth : Nat) : Engine := ⟨.empty, #[], 0, 0, 0, depth⟩

def heldRefs (e : Engine) : Nat := e.heap.heldRefs

/-! ## References -/

def issue (slot : Slot) : EngineM Ref := do
  let e ← get
  let ref : Ref := ⟨slot, e.issued + 1⟩
  set { e with heap := e.heap.setRefs slot (e.heap.refs slot + 1), issued := e.issued + 1 }
  return ref

def issueResult : Except Slot Slot → EngineM (Except Ref Ref)
  | .ok slot => .ok <$> issue slot
  | .error slot => .error <$> issue slot

def acquire (ref : Ref) : EngineM Ref := issue ref.slot

def release (ref : Ref) : EngineM Unit := do
  let e ← get
  match e.heap.refs ref.slot with
  | 0 => throw (.overReleased ref.slot)
  | refs + 1 => set { e with heap := e.heap.setRefs ref.slot refs, releases := e.releases + 1 }

/-! ## Runs -/

def run {α : Type} (r : Run α) : EngineM (Except Slot α) := fun e =>
  match r.run e.heap with
  | (.ok value, heap) => .ok (.ok value, { e with heap := heap })
  | (.error (.thrown slot), heap) => .ok (.error slot, { e with heap := heap })
  | (.error .tooDeep, _) => .error .tooDeep

/-- A run that ends with a value, handed out on both sides. -/
def runOut (r : Run Slot) : EngineM (Except Ref Ref) := do
  issueResult (← run r)

/-- Compiles a body; a syntax error is thrown as a value. -/
def compileBody (params : String) (source : Bytes) : Run Script.Body :=
  match Script.Body.ofBytes params source with
  | .ok body => return body
  | .error error => do
    let slot ← Run.alloc (.error error.message)
    throw (.thrown slot)

def allocFunction (params : String) (source : Bytes) : Run Slot := do
  let body ← compileBody params source
  Run.alloc (.function body)

/-- Compiles a function, and remembers that it was asked to. -/
def compileFunction (name params : String) (source : Bytes) : EngineM (Except Ref Ref) := do
  modify fun e => { e with parses := e.parses.push ⟨name, params⟩ }
  runOut (allocFunction params source)

/-- Compiles one record of a blob as a factory, without running it. -/
def loadRecord (blob : Bytes) (index : UInt32) : EngineM (Except Ref Ref) :=
  runOut <|
    match Snapshot.records? blob with
    | none => Run.fail .badSnapshotHeader
    | some records =>
      match records[index.toNat]? with
      | none => Run.fail .noSuchRecord
      | some record => allocFunction Factory.signature record

/-- Runs the first record of a blob as a program. -/
def runBlob (blob : Bytes) : EngineM (Except Ref Ref) := do
  let depth := (← get).depth
  runOut <|
    match Snapshot.records? blob with
    | none => Run.fail .badSnapshotHeader
    | some records => do
      let body ← compileBody "" (records.headD [])
      Run.program depth body

def runSource (source : Bytes) : EngineM (Except Ref Ref) :=
  runBlob (Snapshot.ofProgram source)

def applyFunction (function : Ref) (args : List Ref) : EngineM (Except Ref Ref) := do
  modify fun e => { e with calls := e.calls + 1 }
  let depth := (← get).depth
  runOut (Run.callWithin depth function.slot (args.map (·.slot)))

/-! ## New values -/

def alloc (payload : Payload) : EngineM Slot := do
  let e ← get
  set { e with heap := e.heap.push payload }
  return e.heap.size

def create (payload : Payload) : EngineM Ref := do
  issue (← alloc payload)

def newUndefined : EngineM Ref := create .undefined

def newObject : EngineM Ref := create .emptyObject

def newBool (value : Bool) : EngineM Ref := create (.bool value)

def newNumber (value : Float) : EngineM Ref := create (.number value)

def newError (message : String) : EngineM Ref := create (.error message)

/-- A function that answers the names of modules with numbers. -/
def newModuleLookup (modules : Table Float) : EngineM Ref := create (.moduleLookup modules)

/-- A module object, with its id and an empty object of exports. -/
def newModule (id : String) : EngineM Ref := do
  let idSlot ← alloc (.text id)
  let exportsSlot ← alloc .emptyObject
  create (.object (.ofList [("id", idSlot), ("exports", exportsSlot)]))

/-! ## Reading and writing values -/

def readProperty (object : Ref) (name : String) : EngineM (Except Ref Ref) :=
  runOut (Run.readProperty object.slot name)

def writeProperty (object : Ref) (name : String) (value : Ref) : EngineM (Except Ref Unit) := do
  match ← run (Run.writeProperty object.slot name value.slot) with
  | .ok () => return .ok ()
  | .error slot => .error <$> issue slot

def textOf? (e : Engine) (value : Ref) : Option String := e.heap.text? value.slot

end Engine

/-- How the engine writes numbers: all digits in their places, a whole number without a point, and of
two equally near decimals the one further from zero. -/
def Engine.numberFormat : Decimal.Format := ⟨fun _ => true, false, .away⟩

def Payload.message : Payload → String
  | .undefined => "undefined"
  | .bool value => if value then "true" else "false"
  | .number value => Engine.numberFormat.render value
  | .text value => value
  | .object _ => "[object Object]"
  | .error message => message
  | .function _ => "function"
  | .moduleLookup _ => "function"

namespace Engine

/-- The message of an error value, or the text of any other. -/
def messageOf (e : Engine) (value : Ref) : String := (e.heap.payload value.slot).message

def keys (e : Engine) (object : Ref) : List String := (e.heap.properties object.slot).names

/-- The value at the end of a dotted path of properties. -/
def at? (e : Engine) (object : Ref) (path : String) : Option Slot :=
  e.heap.follow object.slot ((Script.splitOnChar '.' path.toList).map String.ofList)

def numberAt? (e : Engine) (object : Ref) (path : String) : Option Float :=
  (e.at? object path).bind e.heap.number?

def textAt? (e : Engine) (object : Ref) (path : String) : Option String :=
  (e.at? object path).bind e.heap.text?

/-- Whether nothing, or `undefined`, stands at the end of a path. -/
def undefinedAt (e : Engine) (object : Ref) (path : String) : Bool :=
  match e.at? object path with
  | none => true
  | some slot =>
    match e.heap.payload slot with
    | .undefined => true
    | _ => false

/-- Whether the value at the end of a path is the one that a reference is to. -/
def sameAt (e : Engine) (object : Ref) (path : String) (value : Ref) : Bool :=
  e.at? object path == some value.slot

end Engine

end ScriptHost
