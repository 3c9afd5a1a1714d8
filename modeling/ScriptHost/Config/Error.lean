/-
Why a document is no configuration.
-/
import ScriptHost.Decimal.Layout
import ScriptHost.Text.Quoted

namespace ScriptHost.Config

/-- What was expected where a value of another kind stands. -/
inductive Expected where
  | config
  | debugger
  | flag
  | text
  | port
  deriving Repr, DecidableEq

def Expected.message : Expected → String
  | .config => "struct BridgeConfig"
  | .debugger => "struct DebuggerConfig"
  | .flag => "a boolean"
  | .text => "a string"
  | .port => "u16"

/-- A value that is neither a list nor an object. -/
inductive Scalar where
  | null
  | bool (value : Bool)
  | integer (value : Int)
  | float (value : Float)
  | text (value : String)
  deriving Repr

/-- How numbers are written in messages: positionally from a hundred-thousandth up to ten to the
sixteenth and then with at least one decimal, and of two equally near decimals the even one. -/
def numberFormat : Decimal.Format := ⟨fun e => -5 ≤ e && e < 16, true, .even⟩

def Scalar.message : Scalar → String
  | .null => "null"
  | .bool value => "boolean `" ++ (if value then "true" else "false") ++ "`"
  | .integer value => "integer `" ++ toString value ++ "`"
  | .float value => "floating point `" ++ numberFormat.render value ++ "`"
  | .text value => "string " ++ Text.quoted value

inductive Found where
  | scalar (value : Scalar)
  | list
  | object
  deriving Repr

def Found.message : Found → String
  | .scalar value => value.message
  | .list => "sequence"
  | .object => "map"

inductive ReadError where
  | endOfValue
  | endOfList
  | endOfObject
  | endOfString
  | expectedValue
  | expectedWord
  | expectedColon
  | expectedListEnd
  | expectedObjectEnd
  | keyNotString
  | trailingComma
  | trailingCharacters
  | invalidNumber
  | numberOutOfRange
  | controlCharacter
  | invalidEscape
  | cutSurrogate
  | loneSurrogate
  | wrongType (found : Found) (expected : Expected)
  | portOutOfRange (value : Int)
  | duplicateField (name : String)
  deriving Repr

namespace ReadError

def message : ReadError → String
  | .endOfValue => "EOF while parsing a value"
  | .endOfList => "EOF while parsing a list"
  | .endOfObject => "EOF while parsing an object"
  | .endOfString => "EOF while parsing a string"
  | .expectedValue => "expected value"
  | .expectedWord => "expected ident"
  | .expectedColon => "expected `:`"
  | .expectedListEnd => "expected `,` or `]`"
  | .expectedObjectEnd => "expected `,` or `\x7d`"
  | .keyNotString => "key must be a string"
  | .trailingComma => "trailing comma"
  | .trailingCharacters => "trailing characters"
  | .invalidNumber => "invalid number"
  | .numberOutOfRange => "number out of range"
  | .controlCharacter => "control character (\\u0000-\\u001F) found while parsing a string"
  | .invalidEscape => "invalid escape"
  | .cutSurrogate => "unexpected end of hex escape"
  | .loneSurrogate => "lone leading surrogate in hex escape"
  | .wrongType found expected =>
    "invalid type: " ++ found.message ++ ", expected " ++ expected.message
  | .portOutOfRange value =>
    "invalid value: integer `" ++ toString value ++ "`, expected " ++ Expected.port.message
  | .duplicateField name => "duplicate field `" ++ name ++ "`"

inductive Category where
  /-- The document ends too early. -/
  | ending
  /-- A well-formed value that does not fit. -/
  | data
  | grammar
  deriving Repr, DecidableEq

def category : ReadError → Category
  | .endOfValue => .ending
  | .endOfList => .ending
  | .endOfObject => .ending
  | .endOfString => .ending
  | .wrongType _ _ => .data
  | .portOutOfRange _ => .data
  | .duplicateField _ => .data
  | _ => .grammar

end ReadError

end ScriptHost.Config
