/-
A host of the engine. All calls of the engine go through here: they are written into a transcript,
and properties with guarded names fail. Events are collected in their order.
-/
import ScriptHost.Engine.Basic
import ScriptHost.Error
import ScriptHost.Host.Event

namespace ScriptHost

inductive EngineCall where
  | compileFunction (name params : String) (length : Nat) (result : Except Ref Ref)
  | loadRecord (length : Nat) (index : UInt32) (result : Except Ref Ref)
  | runBlob (length : Nat) (result : Except Ref Ref)
  | applyFunction (function this : Ref) (args : List Ref) (result : Except Ref Ref)
  | newUndefined (result : Ref)
  | newObject (result : Ref)
  | newBool (value : Bool) (result : Ref)
  | newError (message : String) (result : Ref)
  | readProperty (object : Ref) (name : String) (result : Except Ref Ref)
  | writeProperty (object : Ref) (name : String) (value : Ref) (result : Except Ref Unit)
  | textOf (value : Ref) (result : Option String)
  | messageOf (error : Ref) (result : String)
  | acquire (value result : Ref)
  | release (value : Ref)

/-- Names of properties that cannot be read, and of properties that cannot be written. -/
structure Guards where
  reads : List String
  writes : List String

structure Host where
  engine : Engine
  guards : Guards
  transcript : Array EngineCall
  log : Array Event

abbrev HostM := StateT Host (Except Halt)

/-- A computation of the host that may fail for a reason of its own. -/
abbrev Attempt := ExceptT HostError HostM

namespace Host

def new (depth : Nat) (guards : Guards) : Host := ⟨.new depth, guards, #[], #[]⟩

def emit (event : Event) : HostM Unit :=
  modify fun h => { h with log := h.log.push event }

/-- Works on the engine without a trace. -/
def onEngine {α : Type} (op : EngineM α) : HostM α := fun h =>
  match op h.engine with
  | .ok (value, engine) => .ok (value, { h with engine := engine })
  | .error halt => .error halt

/-- Calls the engine and writes down the call. -/
def call {α : Type} (op : EngineM α) (entry : α → EngineCall) : HostM α := do
  let value ← onEngine op
  modify fun h => { h with transcript := h.transcript.push (entry value) }
  return value

/-! ## Calls of the engine -/

def compileFunction (name params : String) (source : Bytes) : HostM (Except Ref Ref) :=
  call (Engine.compileFunction name params source) (.compileFunction name params source.length)

def loadRecord (blob : Bytes) (index : UInt32) : HostM (Except Ref Ref) :=
  call (Engine.loadRecord blob index) (.loadRecord blob.length index)

def runBlob (blob : Bytes) : HostM (Except Ref Ref) :=
  call (Engine.runBlob blob) (.runBlob blob.length)

def runSource (source : Bytes) : HostM (Except Ref Ref) :=
  runBlob (Snapshot.ofProgram source)

/-- Calls a function. Scripts cannot see what it is called on. -/
def applyFunction (function this : Ref) (args : List Ref) : HostM (Except Ref Ref) :=
  call (Engine.applyFunction function args) (.applyFunction function this args)

def newUndefined : HostM Ref := call Engine.newUndefined .newUndefined

def newObject : HostM Ref := call Engine.newObject .newObject

def newBool (value : Bool) : HostM Ref :=
  call (Engine.newBool value) (.newBool value)

def newError (message : String) : HostM Ref :=
  call (Engine.newError message) (.newError message)

/-- Reads a property, unless its name is guarded. -/
def readProperty (object : Ref) (name : String) : HostM (Except Ref Ref) := do
  let op : EngineM (Except Ref Ref) :=
    if name ∈ (← get).guards.reads then
      .error <$> Engine.newError ("TypeError: getter '" ++ name ++ "' failed")
    else Engine.readProperty object name
  call op (.readProperty object name)

def writeProperty (object : Ref) (name : String) (value : Ref) : HostM (Except Ref Unit) := do
  let op : EngineM (Except Ref Unit) :=
    if name ∈ (← get).guards.writes then
      .error <$> Engine.newError ("TypeError: '" ++ name ++ "' is read-only")
    else Engine.writeProperty object name value
  call op (.writeProperty object name value)

def textOf (value : Ref) : HostM (Option String) :=
  call (return (← get).textOf? value) (.textOf value)

def messageOf (error : Ref) : HostM String :=
  call (return (← get).messageOf error) (.messageOf error)

def acquire (value : Ref) : HostM Ref := call (Engine.acquire value) (.acquire value)

def release (value : Ref) : HostM Unit := call (Engine.release value) fun _ => .release value

def releaseAll (values : List Ref) : HostM Unit := values.forM release

end Host

/-! ## Holding references -/

/-- Works with a reference and gives it back at the end, whether the work failed or not. -/
def holding {m : Type → Type} [Monad m] [MonadLiftT HostM m] {α : Type} (ref : Ref)
    (work : ExceptT HostError m α) : ExceptT HostError m α :=
  ExceptT.mk do
    let outcome ← work.run
    Host.release ref
    return outcome

end ScriptHost
