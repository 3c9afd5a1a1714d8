/-
Builtin modules: script modules that come with the host, each as source text and as a record of one
snapshot blob. Which of the two forms is used is decided once for the whole table.
-/
import ScriptHost.Table
import ScriptHost.Text.Utf8

namespace ScriptHost

/-- A builtin module: its id, its source, and the place of its factory in the blob. -/
structure BuiltinRow where
  name : String
  source : Bytes
  index : UInt32
  deriving Repr, DecidableEq

inductive Strategy where
  | source
  | snapshot
  deriving Repr, DecidableEq

/-- The strategy of a host that does not choose one. -/
def Strategy.standard : Strategy := .source

inductive Code where
  | source (text : Bytes)
  | snapshot (index : UInt32)
  deriving Repr, DecidableEq

def BuiltinRow.code (row : BuiltinRow) : Strategy → Code
  | .source => .source row.source
  | .snapshot => .snapshot row.index

structure BuiltinTable where
  codes : Table Code
  blob : Bytes
  strategy : Strategy

namespace BuiltinTable

/-- The table of the given rows; the last row of a name counts. -/
def ofRows (rows : List BuiltinRow) (blob : Bytes) (strategy : Strategy) : BuiltinTable :=
  ⟨.ofList (rows.map fun row => (row.name, row.code strategy)), blob, strategy⟩

def empty : BuiltinTable := ofRows [] [] .standard

def get? (t : BuiltinTable) (id : String) : Option Code := t.codes.get? id

def contains (t : BuiltinTable) (id : String) : Bool := t.codes.contains id

def names (t : BuiltinTable) : List String := t.codes.names

end BuiltinTable

end ScriptHost
