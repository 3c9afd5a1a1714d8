/-
Native modules: modules of the host, whose exports are built by a function of the host when they are
first asked for. The table keeps a reference to what was built, and everybody who asks gets one of
their own; what fails is built anew the next time.
-/
import ScriptHost.Host.Basic

namespace ScriptHost

/-- Builds the exports of a native module, told how often it ran before. -/
abbrev ExportsBuilder := Nat → HostM (Except Ref Ref)

/-- Puts the exports of a library into an object, or says why it cannot. -/
abbrev Loader := String → Ref → HostM (Except String Unit)

structure NativeModule where
  init : ExportsBuilder
  /-- How often `init` has run. -/
  runs : Nat
  /-- The reference of the table to the exports, once they are built. -/
  exports : Option Ref

structure NativeTable where
  entries : Table NativeModule
  loader : Option Loader
  /-- How often exports of each name were built or tried, over all registrations. -/
  runs : Table Nat

namespace NativeTable

def empty : NativeTable := ⟨.empty, none, .empty⟩

def contains (t : NativeTable) (id : String) : Bool := t.entries.contains id

def names (t : NativeTable) : List String := t.entries.names

def debug (t : NativeTable) : String :=
  "NativeModuleTable \x7b modules: [" ++ ", ".intercalate (t.names.map Text.quoted)
    ++ "], loader: " ++ (if t.loader.isSome then "true" else "false") ++ " \x7d"

/-- Registers a module in place of an older one of the same name, whose exports are given back. -/
def register (t : NativeTable) (name : String) (init : ExportsBuilder) : HostM NativeTable := do
  if let some exports := (t.entries.get? name).bind (·.exports) then Host.release exports
  return { t with entries := t.entries.insert name ⟨init, 0, none⟩ }

def withLoader (t : NativeTable) (loader : Loader) : NativeTable := { t with loader := some loader }

/-- The entry of a name after one more run, with what it built. -/
def afterRun (t : NativeTable) (id : String) (entry : NativeModule) (exports : Option Ref) :
    NativeTable :=
  { t with
    entries := t.entries.insert id { entry with runs := entry.runs + 1, exports := exports }
    runs := t.runs.insert id ((t.runs.get? id).getD 0 + 1) }

/-- The exports of a module, built if need be. An unknown id has none. -/
def get (t : NativeTable) (id : String) : HostM (Except HostError (Option Ref) × NativeTable) := do
  match t.entries.get? id with
  | none => return (.ok none, t)
  | some entry =>
    match entry.exports with
    | some exports =>
      let handle ← Host.acquire exports
      return (.ok (some handle), t)
    | none =>
      match ← entry.init entry.runs with
      | .ok exports =>
        Host.emit ⟨.debug, "constructed native module", [("module", id)]⟩
        -- the table keeps what was built, and whoever asks gets a reference of its own
        let handle ← Host.acquire exports
        return (.ok (some handle), t.afterRun id entry (some exports))
      | .error error =>
        let reason ← Host.messageOf error
        Host.emit ⟨.warn, "native module init failed", [("module", id), ("reason", reason)]⟩
        Host.release error
        return (.error (.nativeLoad id reason), t.afterRun id entry none)

/-- Loads the library at a location into a fresh object. -/
def loadLibrary (t : NativeTable) (location : String) : Attempt Ref := do
  match t.loader with
  | none => throw (.nativeLoad location "dynamic loading is not available")
  | some load =>
    let exports ← Host.newObject
    match ← load location exports with
    | .ok () => return exports
    | .error reason =>
      Host.emit ⟨.warn, "dlopen failed", [("module", location), ("reason", reason)]⟩
      Host.release exports
      throw (.nativeLoad location reason)

def close (t : NativeTable) : HostM Unit :=
  Host.releaseAll (t.entries.rows.filterMap (·.2.exports))

end NativeTable

/-! ## Scripted modules and libraries -/

/-- Exports made by scripts: a run evaluates the next of them, the last one again and again. Without
scripts they are an empty object. -/
def ExportsBuilder.ofPrograms (programs : List Bytes) : ExportsBuilder := fun run =>
  match programs with
  | [] => .ok <$> Host.newObject
  | first :: rest => Host.runSource ((first :: rest).getD run (rest.getLastD first))

def loadProperty (exports : Ref) (name : String) (program : Bytes) : HostM (Except String Unit) := do
  match ← Host.runSource program with
  | .error error =>
    let reason ← Host.messageOf error
    Host.release error
    return .error reason
  | .ok value =>
    match ← Host.writeProperty exports name value with
    | .ok () =>
      Host.release value
      return .ok ()
    | .error error =>
      let reason ← Host.messageOf error
      Host.release error
      Host.release value
      return .error reason

/-- Sets properties until one fails. -/
def loadProperties (exports : Ref) : List (String × Bytes) → HostM (Except String Unit)
  | [] => return .ok ()
  | (name, program) :: rest => do
    match ← loadProperty exports name program with
    | .ok () => loadProperties exports rest
    | .error reason => return .error reason

def Loader.ofLibraries (libraries : Table (List (String × Bytes))) : Loader :=
  fun location exports =>
    match libraries.get? location with
    | some properties => loadProperties exports properties
    | none => return .error ("cannot open shared object " ++ location)

end ScriptHost
