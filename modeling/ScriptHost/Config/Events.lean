/-
Names without a key are reported, and otherwise ignored.
-/
import ScriptHost.Config.Basic
import ScriptHost.Host.Event

namespace ScriptHost.Config

/-- One event for each name that no key has. -/
def unknownKeyEvents (assignments : List (String × String)) : List Event :=
  (unknownNames assignments).map fun name =>
    ⟨.trace, "ignoring unknown configuration key", [("key", name)]⟩

end ScriptHost.Config
