/-
Assertions for tests of the host. An assertion that holds yields the interesting half of a value; one
that fails yields the text of its report, which quotes the expression as it was written.
-/
import ScriptHost.Text.Quoted

namespace ScriptHost.Assertion

/-- Words in back quotes. -/
def spelt (expression : String) : String := "`" ++ expression ++ "`"

def expectOk {ε α : Type} (expression : String) (debug : ε → String) : Except ε α → Except String α
  | .ok value => .ok value
  | .error error =>
    .error ("expected Ok from " ++ spelt expression ++ ", got Err\n  error: " ++ debug error)

def expectError {ε α : Type} (expression : String) (debug : α → String) : Except ε α → Except String ε
  | .ok value =>
    .error ("expected Err from " ++ spelt expression ++ ", got Ok\n  value: " ++ debug value)
  | .error error => .ok error

def occursIn (needle : List Char) : List Char → Bool
  | [] => needle.isEmpty
  | c :: rest => needle.isPrefixOf (c :: rest) || occursIn needle rest

def expectContains (expression haystack needle : String) : Except String Unit :=
  if occursIn needle.toList haystack.toList then .ok ()
  else .error (spelt expression ++ " does not contain " ++ spelt needle
    ++ "\n  string: " ++ Text.quoted haystack)

/-- A value that has to have a shape, given as it was written and as a test. -/
def expectMatch {α : Type} (expression pattern : String) (debug : α → String) (fits : α → Bool)
    (value : α) : Except String Unit :=
  if fits value then .ok ()
  else .error (spelt expression ++ " does not match " ++ spelt pattern
    ++ "\n  value: " ++ debug value)

def debugOption {α : Type} (debug : α → String) : Option α → String
  | some value => "Some(" ++ debug value ++ ")"
  | none => "None"

end ScriptHost.Assertion
