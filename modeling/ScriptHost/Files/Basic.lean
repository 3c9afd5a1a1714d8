/-
What the host needs of a file system: which paths are regular files, and what is in them.
-/
import ScriptHost.Error
import ScriptHost.Table
import ScriptHost.Text.Utf8

namespace ScriptHost

structure Files where
  /-- A path that cannot be looked at is no regular file. -/
  isRegular : String → Bool
  read : String → Except FileError Bytes

namespace Files

/-- A regular file of a listing: its content, or why it cannot be read. -/
abbrev Entry := Except FileError Bytes

def ofEntries (entries : Table Entry) : Files where
  isRegular path := entries.contains path
  read path := (entries.get? path).getD (.error ⟨"NotFound", "entity not found"⟩)

def readText (files : Files) (path : String) : Except HostError String :=
  if files.isRegular path then
    match files.read path with
    | .error error => .error (.io error)
    | .ok bytes =>
      match Text.decode bytes with
      | .ok text => .ok text
      | .error error => .error (.io ⟨"InvalidData", error.message⟩)
  else .error (.notRegularFile path)

end Files

end ScriptHost
