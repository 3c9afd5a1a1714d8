/-
Module code is the body of a function, the factory of the module. A call passes the first four
arguments; the last two parameters are declared and stay `undefined`.
-/

namespace ScriptHost.Factory

/-- The parameters, in the order of a call. -/
def params : List String :=
  ["exports", "require", "module", "native", "__filename", "__dirname"]

def signature : String := "exports, require, module, native, __filename, __dirname"

example : ", ".intercalate params = signature := by decide

end ScriptHost.Factory
