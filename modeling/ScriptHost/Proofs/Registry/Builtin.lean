/-
Builtin modules by their rows. The last row of an id counts, whichever form of the code is used; and
where rows are numbered by their positions, the number of a row leads to its source in the blob that
is made of all sources.
-/
import ScriptHost.Proofs.Engine.Snapshot
import ScriptHost.Proofs.Table
import ScriptHost.Registry.Builtin

namespace ScriptHost

/-- Each row has its position as its number. -/
def Numbered (rows : List BuiltinRow) : Prop :=
  ∀ (i : Nat) (h : i < rows.length), rows[i].index.toNat = i

/-- The blob of the sources of rows. -/
def blobOf (rows : List BuiltinRow) : Bytes := Snapshot.ofRecords (rows.map (·.source))

theorem lookup_map_pair {α β : Type} (key : α → String) (value : α → β) (name : String) : ∀ rows : List α,
    (rows.map fun row => (key row, value row)).lookup name = (rows.find? fun row => name == key row).map value
  | [] => rfl
  | row :: rest => by
    rw [List.map_cons, List.lookup_cons, List.find?_cons, lookup_map_pair key value name rest]
    split <;> rfl

/-- The code of an id is that of the last row with this id. -/
theorem BuiltinTable.get?_ofRows (rows : List BuiltinRow) (blob : Bytes) (strategy : Strategy) (id : String) :
    (ofRows rows blob strategy).get? id = (rows.reverse.find? fun row => id == row.name).map (·.code strategy) := by
  show (Table.ofList (rows.map fun row => (row.name, row.code strategy))).get? id = _
  rw [Table.get?_ofList, ← List.map_reverse, lookup_map_pair]

theorem source_of_numbered {rows : List BuiltinRow} (hn : Numbered rows) {row : BuiltinRow} (hr : row ∈ rows) :
    (rows.map (·.source))[row.index.toNat]? = some row.source := by
  obtain ⟨i, hi, rfl⟩ := List.mem_iff_getElem.1 hr
  rw [hn i hi, List.getElem?_map, List.getElem?_eq_getElem hi]
  rfl

theorem records?_blobOf {rows : List BuiltinRow} {row : BuiltinRow} (hr : row ∈ rows)
    (hs : ∀ row ∈ rows, Snapshot.separator ∉ row.source) :
    Snapshot.records? (blobOf rows) = some (rows.map (·.source)) := by
  refine Snapshot.records?_ofRecords ?_ fun record hrecord => ?_
  · exact List.ne_nil_of_mem (List.mem_map_of_mem hr)
  · obtain ⟨row, hrow, rfl⟩ := List.mem_map.1 hrecord
    exact hs row hrow

end ScriptHost
