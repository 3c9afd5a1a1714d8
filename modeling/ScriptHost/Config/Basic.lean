/-
The configuration of a host, and the keys and environment variables that change it.
-/
import ScriptHost.Decimal.Word
import ScriptHost.Text.Lowercase

namespace ScriptHost

structure DebuggerSettings where
  /-- The port that the debug server listens on. -/
  port : UInt16
  /-- The name of the transport. -/
  channel : String
  /-- Whether the client sends the program. -/
  waitSource : Bool
  /-- Whether the engine starts afresh when the client leaves. -/
  contextReset : Bool
  deriving Repr, DecidableEq

structure Config where
  /-- Without settings there is no debugger. -/
  debugger : Option DebuggerSettings
  /-- Whether loads are reported. -/
  loadstat : Bool
  deriving Repr, DecidableEq

namespace DebuggerSettings

def defaultPort : UInt16 := 5001

def default : DebuggerSettings := ⟨defaultPort, "websocket", false, false⟩

end DebuggerSettings

namespace Config

def default : Config := ⟨none, false⟩

def waitsForSource (c : Config) : Bool := c.debugger.any (·.waitSource)

/-! ## Keys -/

inductive Key where
  | debugger
  | port
  | channel
  | waitSource
  | contextReset
  | loadstat
  deriving Repr, DecidableEq

def Key.ofName? : String → Option Key
  | "debugger" => some .debugger
  | "debugger-port" => some .port
  | "debugger-channel" => some .channel
  | "debugger-wait-source" => some .waitSource
  | "debugger-context-reset" => some .contextReset
  | "loadstat" => some .loadstat
  | _ => none

/-- The words that switch something on; every other word switches it off. -/
def isOn (value : String) : Bool :=
  value = "1" || value = "true" || value = "yes" || value = "on"

/-- Changes the settings of the debugger, from the defaults when there are none. -/
def updateDebugger (c : Config) (change : DebuggerSettings → DebuggerSettings) : Config :=
  { c with debugger := some (change (c.debugger.getD .default)) }

/-- Sets what a key stands for. A port that cannot be read changes nothing. -/
def assign (c : Config) (key : Key) (value : String) : Config :=
  match key with
  | .debugger => if isOn value then c.updateDebugger id else { c with debugger := none }
  | .port =>
    match Decimal.readWord value.toList with
    | .ok port => c.updateDebugger fun d => { d with port := port }
    | .error _ => c
  | .channel => c.updateDebugger fun d => { d with channel := value }
  | .waitSource => c.updateDebugger fun d => { d with waitSource := isOn value }
  | .contextReset => c.updateDebugger fun d => { d with contextReset := isOn value }
  | .loadstat => { c with loadstat := isOn value }

/-- Sets a value by the name of its key. An unknown name changes nothing. -/
def set (c : Config) (name value : String) : Config :=
  match Key.ofName? name with
  | some key => c.assign key value
  | none => c

/-! ## Environment -/

abbrev Variable := String × String

def environmentStart : String := "SPACEY_"

/-- The name of the key that a variable addresses: what follows the start in lower case, with
hyphens for underscores. -/
def keyName? (name : String) : Option String :=
  (environmentStart.toList.isPrefixOf? name.toList).map fun rest =>
    String.ofList ((Text.lowercase (String.ofList rest)).toList.map fun c =>
      if c = '_' then '-' else c)

/-- The names of keys and the values that variables give them, in order. -/
def assignments (environment : List Variable) : List (String × String) :=
  environment.filterMap fun v => (keyName? v.1).map fun name => (name, v.2)

/-- Sets what the variables address, from first to last. -/
def withEnvironment (c : Config) (environment : List Variable) : Config :=
  (assignments environment).foldl (fun c a => c.set a.1 a.2) c

def ofEnv (environment : List Variable) : Config := default.withEnvironment environment

/-- The names among the assignments that no key has. -/
def unknownNames (assignments : List (String × String)) : List String :=
  (assignments.map (·.1)).filter fun name => (Key.ofName? name).isNone

/-- An environment after one more variable is set: a known variable keeps its place. -/
def setVariable (environment : List Variable) (v : Variable) : List Variable :=
  if environment.any (·.1 = v.1) then environment.map fun w => if w.1 = v.1 then v else w
  else environment ++ [v]

end Config

end ScriptHost
