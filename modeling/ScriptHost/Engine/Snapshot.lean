/-
Snapshot blobs: a four-byte header, then records between separator bytes. A blob with the header
has at least one record, possibly an empty one.
-/
import ScriptHost.Text.Utf8

namespace ScriptHost.Snapshot

/-- The bytes that every blob starts with. -/
def header : Bytes := [0x53, 0x4E, 0x41, 0x50]

/-- The byte between two records. -/
def separator : UInt8 := 0x1E

def split : Bytes → List Bytes
  | [] => [[]]
  | byte :: bytes =>
    if byte = separator then [] :: split bytes
    else
      match split bytes with
      | [] => [[byte]]
      | first :: more => (byte :: first) :: more

def join : List Bytes → Bytes
  | [] => []
  | [record] => record
  | record :: more => record ++ separator :: join more

/-- The records of a blob; bytes without the header are no blob. -/
def records? (blob : Bytes) : Option (List Bytes) :=
  (header.isPrefixOf? blob).map split

def ofRecords (records : List Bytes) : Bytes := header ++ join records

def ofProgram (source : Bytes) : Bytes := ofRecords [source]

end ScriptHost.Snapshot
