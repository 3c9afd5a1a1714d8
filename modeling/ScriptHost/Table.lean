/-
Tables keyed by name. The rows are kept in increasing order of their names, so listing a table is
reading its rows, and two tables with the same rows are equal. The order of names is the order of
their characters by code point.
-/

namespace ScriptHost

/-- Rows in strictly increasing order of name. -/
structure Table (α : Type) where
  rows : List (String × α)
  sorted : rows.Pairwise fun a b => a.1 < b.1

namespace Table

variable {α : Type}

/-! ## Reading -/

def empty : Table α := ⟨[], .nil⟩

instance : Inhabited (Table α) := ⟨empty⟩

def get? (t : Table α) (name : String) : Option α := t.rows.lookup name

def contains (t : Table α) (name : String) : Bool := (t.get? name).isSome

/-- The names, in increasing order. -/
def names (t : Table α) : List String := t.rows.map (·.1)

/-! ## Writing -/

/-- Puts a row in its place and drops an older row of the same name. -/
def insertRow (name : String) (value : α) : List (String × α) → List (String × α)
  | [] => [(name, value)]
  | row :: rows =>
    if name < row.1 then (name, value) :: row :: rows
    else if name = row.1 then (name, value) :: rows
    else row :: insertRow name value rows

theorem mem_insertRow {name : String} {value : α} {row : String × α} :
    ∀ {rows : List (String × α)}, row ∈ insertRow name value rows → row = (name, value) ∨ row ∈ rows
  | [], h => .inl (List.mem_singleton.1 h)
  | first :: rows, h => by
    unfold insertRow at h
    split at h
    · exact (List.mem_cons.1 h).imp id id
    · split at h
      · exact (List.mem_cons.1 h).imp id (List.mem_cons_of_mem _)
      · rcases List.mem_cons.1 h with rfl | h
        · exact .inr List.mem_cons_self
        · exact (mem_insertRow h).imp id (List.mem_cons_of_mem _)

theorem insertRow_sorted (name : String) (value : α) :
    ∀ {rows : List (String × α)}, rows.Pairwise (fun a b => a.1 < b.1) →
      (insertRow name value rows).Pairwise fun a b => a.1 < b.1
  | [], _ => List.pairwise_singleton _ _
  | first :: rows, h => by
    have ⟨hfirst, hrows⟩ := List.pairwise_cons.1 h
    unfold insertRow
    split
    next hlt =>
      refine List.pairwise_cons.2 ⟨fun row hrow => ?_, h⟩
      rcases List.mem_cons.1 hrow with rfl | hrow
      · exact hlt
      · exact String.lt_trans hlt (hfirst row hrow)
    next hnlt =>
      split
      next heq => exact List.pairwise_cons.2 ⟨fun row hrow => heq ▸ hfirst row hrow, hrows⟩
      next hne =>
        refine List.pairwise_cons.2 ⟨fun row hrow => ?_, insertRow_sorted name value hrows⟩
        rcases mem_insertRow hrow with rfl | hrow
        · have hle : first.1 ≤ name := String.not_lt.1 hnlt
          rcases Decidable.em (first.1 < name) with hlt | hnot
          · exact hlt
          · exact absurd (String.le_antisymm (String.not_lt.1 hnot) hle) hne
        · exact hfirst row hrow

/-- Stores `value` under `name`; the last value stored under a name is the one it keeps. -/
def insert (t : Table α) (name : String) (value : α) : Table α :=
  ⟨insertRow name value t.rows, insertRow_sorted name value t.sorted⟩

def erase (t : Table α) (name : String) : Table α :=
  ⟨t.rows.filter fun row => row.1 ≠ name, t.sorted.filter _⟩

def ofList (rows : List (String × α)) : Table α :=
  rows.foldl (fun t row => t.insert row.1 row.2) empty

end Table

end ScriptHost
