/-
What the host reports while it works.
-/

namespace ScriptHost

inductive Level where
  | trace
  | debug
  | info
  | warn
  deriving Repr, DecidableEq

/-- An event: a level, a text, and named values as texts. -/
structure Event where
  level : Level
  text : String
  fields : List (String × String)
  deriving Repr, DecidableEq

end ScriptHost
