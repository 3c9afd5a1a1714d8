/-
Writing a configuration as a document: an object without white space, every field in its place.
-/
import ScriptHost.Config.Basic

namespace ScriptHost.Config

def hexDigit (n : Nat) : Char :=
  if n < 10 then Char.ofNat ('0'.toNat + n) else Char.ofNat ('a'.toNat + n - 10)

/-- A character of a string. Quotes, backslashes and the characters below the blank are escaped, and
everything else stands for itself. -/
def writeChar (c : Char) : List Char :=
  if c = '"' then ['\\', '"']
  else if c = '\\' then ['\\', '\\']
  else if c = '\x08' then ['\\', 'b']
  else if c = '\x0c' then ['\\', 'f']
  else if c = '\n' then ['\\', 'n']
  else if c = '\r' then ['\\', 'r']
  else if c = '\t' then ['\\', 't']
  else if c.toNat < 0x20 then
    ['\\', 'u', '0', '0', hexDigit (c.toNat / 16), hexDigit (c.toNat % 16)]
  else [c]

def writeString (text : List Char) : List Char :=
  '"' :: (text.flatMap writeChar ++ ['"'])

def writeBool (b : Bool) : List Char := (if b then "true" else "false").toList

/-- A member of an object, its name without characters that are escaped. -/
def writeMember (name : String) (value : List Char) : List Char :=
  '"' :: (name.toList ++ '"' :: ':' :: value)

def writeObject (members : List (List Char)) : List Char :=
  '\x7b' :: ([','].intercalate members ++ ['\x7d'])

def writeDebugger (d : DebuggerSettings) : List Char :=
  writeObject [writeMember "port" (Nat.toDigits 10 d.port.toNat),
    writeMember "channel" (writeString d.channel.toList),
    writeMember "wait_source" (writeBool d.waitSource),
    writeMember "context_reset" (writeBool d.contextReset)]

def write (c : Config) : List Char :=
  writeObject [
    writeMember "debugger" (match c.debugger with
      | none => "null".toList
      | some d => writeDebugger d),
    writeMember "loadstat" (writeBool c.loadstat)]

def toJson (c : Config) : String := String.ofList c.write

end ScriptHost.Config
