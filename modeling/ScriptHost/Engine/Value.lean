/-
What a cell of the heap holds, and the errors that the engine raises by itself.
-/
import ScriptHost.Script.Syntax
import ScriptHost.Table

namespace ScriptHost

/-- The place of a value on the heap. -/
abbrev Slot := Nat

inductive Payload where
  | undefined
  | bool (value : Bool)
  | number (value : Float)
  | text (value : String)
  | object (properties : Table Slot)
  | error (message : String)
  | function (body : Script.Body)
  /-- A function of the host that answers the name of a module with a number. -/
  | moduleLookup (modules : Table Float)

def Payload.emptyObject : Payload := .object .empty

inductive RuntimeError where
  | notDefined (name : String)
  | readOfUndefined (name : String)
  | writeToNonObject (name : String)
  | notFunction
  | noSuchModule (name : String)
  | emptyPath
  | emptyTarget
  | badSnapshotHeader
  | noSuchRecord
  deriving Repr, DecidableEq

def RuntimeError.message : RuntimeError → String
  | .notDefined name => s!"ReferenceError: {name} is not defined"
  | .readOfUndefined name => s!"TypeError: Cannot read properties of undefined (reading '{name}')"
  | .writeToNonObject name => s!"TypeError: Cannot set properties of non-object (setting '{name}')"
  | .notFunction => "TypeError: value is not a function"
  | .noSuchModule name => s!"Error: Cannot find module '{name}'"
  | .emptyPath => "SyntaxError: empty path"
  | .emptyTarget => "SyntaxError: empty assignment target"
  | .badSnapshotHeader => "RangeError: invalid snapshot header"
  | .noSuchRecord => "RangeError: snapshot function index out of range"

end ScriptHost
