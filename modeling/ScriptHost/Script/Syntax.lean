/-
The script language: a body is a list of parameters and a list of statements. Values are read
through dotted paths, the first name of which is a local.
-/

namespace ScriptHost.Script

inductive Expr where
  | undefined
  | bool (value : Bool)
  | number (value : Float)
  | text (value : String)
  /-- A fresh object without properties. -/
  | object
  | error (message : String)
  | path (names : List String)
  | call (callee : List String) (args : List Expr)

inductive Statement where
  /-- A path of one name binds a local; a longer one writes a property. -/
  | assign (target : List String) (value : Expr)
  | throw (value : Expr)
  | return (value : Option Expr)
  | expr (value : Expr)

structure Body where
  params : List String
  statements : List Statement

inductive SyntaxError where
  | endOfInput
  | invalidNumber (text : String)
  | unexpectedToken (text : String)
  | unexpectedIn (statement : String)
  | invalidTarget (text : String)
  /-- The bytes are no text. -/
  | notText
  deriving Repr, DecidableEq

def SyntaxError.message : SyntaxError → String
  | .endOfInput => "SyntaxError: Unexpected end of input"
  | .invalidNumber text => s!"SyntaxError: Invalid number '{text}'"
  | .unexpectedToken text => s!"SyntaxError: Unexpected token '{text}'"
  | .unexpectedIn statement => s!"SyntaxError: Unexpected token in '{statement}'"
  | .invalidTarget text => s!"SyntaxError: Invalid left-hand side in assignment '{text}'"
  | .notText => "SyntaxError: Invalid or unexpected token"

end ScriptHost.Script
