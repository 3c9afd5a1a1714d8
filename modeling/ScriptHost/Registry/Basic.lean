/-
The modules of a host: builtin and native ones. A builtin module hides a native one of the same id.
-/
import ScriptHost.Registry.Builtin
import ScriptHost.Registry.Native

namespace ScriptHost

inductive Origin where
  | native
  | builtin (code : Code)
  deriving Repr, DecidableEq

structure Descriptor where
  id : String
  origin : Origin
  deriving Repr, DecidableEq

structure Registry where
  builtins : BuiltinTable
  natives : NativeTable

namespace Registry

def descriptor (r : Registry) (id : String) : Option Descriptor :=
  match r.builtins.get? id with
  | some code => some ⟨id, .builtin code⟩
  | none => if r.natives.contains id then some ⟨id, .native⟩ else none

/-- All descriptors, those of builtin modules first. -/
def descriptors (r : Registry) : List Descriptor :=
  r.builtins.codes.rows.map (fun row => ⟨row.1, .builtin row.2⟩)
    ++ (r.natives.names.filter fun id => !r.builtins.contains id).map fun id => ⟨id, .native⟩

/-- Every id once, in increasing order. -/
def moduleNames (r : Registry) : List String :=
  (Table.ofList ((r.builtins.names ++ r.natives.names).map fun name => (name, ()))).names

end Registry

end ScriptHost
