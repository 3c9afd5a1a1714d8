/-
The bridge: what a host offers to its scripts. Each operation resolves a module, compiles its code
and runs it, or says why not; whatever references it takes on the way it gives back.
-/
import ScriptHost.Config.Basic
import ScriptHost.Debugger.Gate
import ScriptHost.Files.Basic
import ScriptHost.Host.Factory
import ScriptHost.Registry.Basic

namespace ScriptHost

structure Bridge where
  registry : Registry
  config : Config
  gate : Option Debugger.Gate
  files : Files

abbrev BridgeM := ExceptT HostError (StateT Bridge HostM)

/-- The code that an id stands for: that of a builtin module, or the exports of a native one. -/
inductive Resolved where
  | builtin (code : Code)
  | native (exports : Ref)

def Resolved.debug : Resolved → String
  | .builtin (.snapshot index) => "Snapshot(" ++ toString index.toNat ++ ")"
  | .builtin (.source text) => "BuiltinSource(" ++ toString text.length ++ " bytes)"
  | .native _ => "Native"

namespace Bridge

def version : String := "0.1.0"

def attempt {α : Type} (work : Attempt α) : BridgeM α :=
  ExceptT.mk (liftM work.run)

def outcomeOf {α : Type} (work : BridgeM α) : BridgeM (Except HostError α) :=
  ExceptT.mk do return .ok (← work.run)

/-! ## Resolving -/

/-- The exports of a native module. -/
def native (id : String) : BridgeM (Option Ref) := do
  let b ← get
  let (result, natives) ← liftM (b.registry.natives.get id)
  set { b with registry := { b.registry with natives := natives } }
  liftExcept result
where
  liftExcept {α : Type} (result : Except HostError α) : BridgeM α := ExceptT.mk (pure result)

/-- What an id stands for: a builtin module first, then a native one. -/
def resolve (id : String) : BridgeM Resolved := do
  match (← get).registry.builtins.get? id with
  | some code =>
    Host.emit ⟨.debug, "resolved builtin module",
      [("module", id), ("origin", (Resolved.builtin code).debug)]⟩
    return .builtin code
  | none =>
    match ← native id with
    | some exports =>
      Host.emit ⟨.debug, "resolved native module", [("module", id)]⟩
      return .native exports
    | none =>
      Host.emit ⟨.debug, "module not found", [("module", id)]⟩
      throw (.moduleNotFound id)

/-! ## Properties of module objects -/

/-- The error of a property that the engine does not let us have. -/
def refuseProperty {α : Type} (name : String) (error : Ref) : Attempt α :=
  holding error do
    let message ← Host.messageOf error
    throw (.invalidModule ("cannot access '" ++ name ++ "': " ++ message))

def readProperty (object : Ref) (name : String) : Attempt Ref := do
  match ← Host.readProperty object name with
  | .ok value => return value
  | .error error => refuseProperty name error

def writeProperty (object : Ref) (name : String) (value : Ref) : Attempt Unit := do
  match ← Host.writeProperty object name value with
  | .ok () => return ()
  | .error error => refuseProperty name error

/-- The id of a module object, which has to be a string. -/
def idOf (module : Ref) : Attempt String := do
  let id ← readProperty module "id"
  holding id do
    match ← Host.textOf id with
    | some text => return text
    | none => throw (.invalidModule "module.id must be a string")

/-! ## Loading modules -/

def compileBuiltin (id : String) (blob : Bytes) : Code → Attempt Factory
  | .snapshot index => Factory.ofRecord id blob index
  | .source text => Factory.compile id text

/-- Reports a load. How long it took is not kept; a star stands in its place. -/
def reportLoad (id : String) (succeeded : Bool) : BridgeM Unit := do
  if (← get).config.loadstat then
    Host.emit ⟨.info, "module loaded",
      [("module", id), ("elapsed_us", "*"), ("ok", if succeeded then "true" else "false")]⟩

/-- Runs the factory of a builtin module on the exports of the module object. -/
def loadBuiltin (id : String) (code : Code) (module require : Ref) : BridgeM Ref := do
  let counterpart ← native id
  let native ← match counterpart with
    | some native => pure native
    | none => liftM Host.newUndefined
  holding native do
    let exports ← attempt (readProperty module "exports")
    holding exports do
      let blob := (← get).registry.builtins.blob
      let result ← outcomeOf <| attempt do
        let compiled ← liftM (compileBuiltin id blob code).run
        Factory.call compiled ⟨exports, require, module, native⟩
      -- a load that failed is reported too
      reportLoad id result.isOk
      ExceptT.mk (pure result)

/-- Loads the module that a module object names, into the exports of the object. A native module has
its exports assigned and nothing is run. -/
def loadModule (module require : Ref) : BridgeM Ref := do
  let id ← attempt (idOf module)
  match ← resolve id with
  | .native exports =>
    holding exports do
      attempt (writeProperty module "exports" exports)
      liftM Host.newUndefined
  | .builtin code => loadBuiltin id code module require

/-! ## Compiling what users and debuggers send -/

/-- Compiles source of the user. With a debugger the program is stopped first. -/
def compileSource (name : String) (source : Bytes) : BridgeM Factory := do
  let b ← get
  if b.config.debugger.isSome then set { b with gate := b.gate.map Debugger.Gate.stop }
  attempt (Factory.compile name source)

def awaitSource : BridgeM Debugger.Source := do
  let b ← get
  match b.gate with
  | none => throw .debuggerUnavailable
  | some gate =>
    let waited := gate.wait
    set { b with gate := some waited.gate }
    waited.events.forM fun event => liftM (Host.emit event)
    ExceptT.mk (pure waited.outcome)

/-- Waits for source from the debugger, and compiles it under the name that came with it. -/
def compileFromDebugger : BridgeM Factory := do
  let source ← awaitSource
  attempt (Factory.compile source.name source.source)

/-! ## Files and libraries -/

def sourceText (path : String) : BridgeM String := do
  ExceptT.mk (pure ((← get).files.readText path))

/-- Runs a snapshot file and returns its completion value. -/
def runBlobFile (files : Files) (path : String) : Attempt Ref := do
  if files.isRegular path then
    match files.read path with
    | .error error =>
      Host.emit ⟨.debug, "snapshot read failed", [("path", path), ("error", error.message)]⟩
      throw (.corruptSnapshot unloadable)
    | .ok [] => throw (.corruptSnapshot unloadable)
    | .ok blob =>
      Host.emit ⟨.debug, "executing snapshot file",
        [("path", path), ("len", toString blob.length)]⟩
      Factory.orCorrupt (← Host.runBlob blob)
  else throw (.notRegularFile path)
where
  unloadable := "Could not load the snapshot source."

def runSnapshot (path : String) : BridgeM Ref := do
  attempt (runBlobFile (← get).files path)

def loadLibrary (location : String) : BridgeM Ref := do
  attempt ((← get).registry.natives.loadLibrary location)

/-! ## Listings -/

def setEach (target flag : Ref) : List String → Attempt Unit
  | [] => return ()
  | name :: names => do
    writeProperty target name flag
    setEach target flag names

def listInto (target : Ref) (names : List String) : BridgeM Unit := do
  let flag ← liftM (Host.newBool true)
  holding flag (attempt (setEach target flag names))

def listModules (target : Ref) : BridgeM Unit := do
  listInto target (← get).registry.moduleNames

def listBuiltins (target : Ref) : BridgeM Unit := do
  listInto target (← get).registry.builtins.names

def close (b : Bridge) : HostM Unit := b.registry.natives.close

end Bridge

end ScriptHost
