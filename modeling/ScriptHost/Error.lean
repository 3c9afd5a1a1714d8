/-
What can go wrong between the host and its modules.
-/
import ScriptHost.Config.Error

namespace ScriptHost

/-- A failure of the file system: its kind and its text. -/
structure FileError where
  kind : String
  message : String
  deriving Repr, DecidableEq

inductive HostError where
  /-- No table has the module. -/
  | moduleNotFound (id : String)
  /-- The source of a module is no body. -/
  | compile (module message : String)
  /-- The factory of a module threw. -/
  | execution (module message : String)
  /-- A blob, or a place in it, is refused. -/
  | corruptSnapshot (text : String)
  /-- Somebody else is waiting for source. -/
  | alreadyWaiting
  /-- The client of the debugger left before it sent source. -/
  | connectionClosed
  /-- There is no debugger. -/
  | debuggerUnavailable
  /-- A native module could not be built. -/
  | nativeLoad (module reason : String)
  | notRegularFile (path : String)
  /-- The object of a module is not what it should be. -/
  | invalidModule (text : String)
  | io (error : FileError)
  | config (error : Config.ReadError)
  /-- The transport of the debugger broke down. -/
  | wireFailure (text : String)
  deriving Repr

namespace HostError

def message : HostError → String
  | .moduleNotFound _ => "Unknown native module"
  | .compile module message => module ++ ": " ++ message
  | .execution module message => module ++ ": " ++ message
  | .corruptSnapshot text => "Corrupt snapshot: " ++ text
  | .alreadyWaiting => "Debugger is already waiting for client source"
  | .connectionClosed => "Debugger connection closed"
  | .debuggerUnavailable => "No debugger is attached"
  | .nativeLoad module reason => "Failed to load native module '" ++ module ++ "': " ++ reason
  | .notRegularFile _ => "ReadSource error, not a regular file"
  | .invalidModule text => "Invalid module object: " ++ text
  | .io error => "File system error: " ++ error.message
  | .config error => "Invalid configuration: " ++ error.message
  | .wireFailure text => text

open Text (quoted)

/-- One field in brackets behind a name. -/
def debugOne (name field : String) : String := name ++ "(" ++ quoted field ++ ")"

/-- Two named fields in braces behind a name. -/
def debugTwo (name first firstValue second secondValue : String) : String :=
  name ++ " \x7b " ++ first ++ ": " ++ quoted firstValue ++ ", " ++ second ++ ": "
    ++ quoted secondValue ++ " \x7d"

/-- The error as developers see it. Failures of files and documents show their message. -/
def debug : HostError → String
  | .moduleNotFound id => debugOne "ModuleNotFound" id
  | .compile module message => debugTwo "Compile" "module" module "message" message
  | .execution module message => debugTwo "Execution" "module" module "message" message
  | .corruptSnapshot text => debugOne "CorruptSnapshot" text
  | .alreadyWaiting => "AlreadyWaiting"
  | .connectionClosed => "ConnectionClosed"
  | .debuggerUnavailable => "DebuggerUnavailable"
  | .nativeLoad module reason => debugTwo "NativeLoad" "module" module "reason" reason
  | .notRegularFile path => debugOne "NotRegularFile" path
  | .invalidModule text => debugOne "InvalidModule" text
  | .io error => debugOne "Io" error.message
  | .config error => debugOne "Config" error.message
  | .wireFailure text => debugOne "WireFailure" text

end HostError

end ScriptHost
