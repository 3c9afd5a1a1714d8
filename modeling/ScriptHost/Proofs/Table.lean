/-
Laws of tables: what is read after a write, for one name and for all rows. A name has at most one
row, so reading a name and finding its row are the same, and rows in another order read alike.
-/
import ScriptHost.Table
import Mathlib.Tactic

namespace ScriptHost.Table

variable {α : Type}

@[simp] theorem get?_empty (name : String) : (empty : Table α).get? name = none := rfl

theorem lookup_cons_self (name : String) (value : α) (rows : List (String × α)) :
    List.lookup name ((name, value) :: rows) = some value := by
  rw [List.lookup_cons, beq_self_eq_true]

theorem lookup_cons_ne {name : String} {row : String × α} (h : name ≠ row.1) (rows : List (String × α)) :
    List.lookup name (row :: rows) = rows.lookup name := by
  rw [List.lookup_cons, beq_false_of_ne h]

theorem lookup_insertRow (name other : String) (value : α) : ∀ rows : List (String × α),
    (insertRow name value rows).lookup other = if other = name then some value else rows.lookup other
  | [] => by
    unfold insertRow
    split
    · rename_i h; subst h; rw [lookup_cons_self]
    · rename_i h; rw [lookup_cons_ne h]
  | row :: rows => by
    have ih := lookup_insertRow name other value rows
    -- the name that is looked for is the one that is stored, or a row decides as it did before
    unfold insertRow
    by_cases h : other = name
    · subst h
      rw [if_pos rfl] at ih ⊢
      split
      · rw [lookup_cons_self]
      · split
        · rw [lookup_cons_self]
        · rename_i hne; rw [lookup_cons_ne hne, ih]
    · rw [if_neg h] at ih ⊢
      split
      · rw [lookup_cons_ne h]
      · split
        · rename_i heq; rw [lookup_cons_ne h, lookup_cons_ne (heq ▸ h)]
        · rw [List.lookup_cons, ih, List.lookup_cons]

/-- Reading after a write. -/
theorem get?_insert (t : Table α) (name other : String) (value : α) :
    (t.insert name value).get? other = if other = name then some value else t.get? other :=
  lookup_insertRow name other value t.rows

@[simp] theorem get?_insert_self (t : Table α) (name : String) (value : α) :
    (t.insert name value).get? name = some value := by
  rw [get?_insert, if_pos rfl]

theorem get?_insert_ne (t : Table α) {name other : String} (value : α) (h : other ≠ name) :
    (t.insert name value).get? other = t.get? other := by
  rw [get?_insert, if_neg h]

theorem lookup_eq_some_of_mem : ∀ {rows : List (String × α)} {row : String × α},
    rows.Pairwise (fun a b => a.1 < b.1) → row ∈ rows → rows.lookup row.1 = some row.2
  | first :: rows, row, hs, h => by
    obtain ⟨hfirst, hs⟩ := List.pairwise_cons.1 hs
    rcases List.mem_cons.1 h with rfl | h
    · rw [lookup_cons_self]
    · have hne : row.1 ≠ first.1 := fun e => String.lt_irrefl _ (e ▸ hfirst row h)
      rw [lookup_cons_ne hne, lookup_eq_some_of_mem hs h]

theorem mem_of_lookup_eq_some : ∀ {rows : List (String × α)} {name : String} {value : α},
    rows.lookup name = some value → (name, value) ∈ rows
  | first :: rows, name, value, h => by
    rw [List.lookup_cons] at h
    split at h
    · rename_i heq
      cases h
      rw [beq_iff_eq.1 heq]
      exact List.mem_cons_self
    · exact List.mem_cons_of_mem _ (mem_of_lookup_eq_some h)

/-- The rows of a table are what can be read from it. -/
theorem get?_eq_some_iff (t : Table α) (name : String) (value : α) :
    t.get? name = some value ↔ (name, value) ∈ t.rows :=
  ⟨mem_of_lookup_eq_some, fun h => lookup_eq_some_of_mem t.sorted h⟩

/-- The rows of a name: the one with its value, if there is a value. -/
theorem filter_rows (t : Table α) (name : String) :
    t.rows.filter (fun row => row.1 = name) = ((t.get? name).map fun value => (name, value)).toList := by
  obtain ⟨rows, hs⟩ := t
  show rows.filter _ = ((rows.lookup name).map _).toList
  induction rows with
  | nil => rfl
  | cons first rest ih =>
    obtain ⟨key, value⟩ := first
    obtain ⟨hfirst, hrest⟩ := List.pairwise_cons.1 hs
    by_cases h : key = name
    · -- the names behind are greater
      have hnil : rest.filter (fun row => row.1 = name) = [] := by
        rw [List.filter_eq_nil_iff]
        intro row hrow he
        have hlt := hfirst row hrow
        rw [of_decide_eq_true he, h] at hlt
        exact String.lt_irrefl _ hlt
      subst h
      rw [lookup_cons_self]
      simp [hnil]
    · rw [lookup_cons_ne (Ne.symm h), ← ih hrest]
      simp [h]

theorem mem_names (t : Table α) (name : String) : name ∈ t.names ↔ (t.get? name).isSome := by
  rw [Option.isSome_iff_exists]
  constructor
  · intro h
    obtain ⟨row, hrow, rfl⟩ := List.mem_map.1 h
    exact ⟨row.2, (get?_eq_some_iff ..).2 hrow⟩
  · rintro ⟨value, h⟩
    exact List.mem_map_of_mem ((get?_eq_some_iff ..).1 h)

/-- The rows of a table are among those that were stored. -/
theorem mem_of_mem_ofList {rows : List (String × α)} {row : String × α} (h : row ∈ (ofList rows).rows) :
    row ∈ rows := by
  have hfold : ∀ (rows : List (String × α)) (t : Table α),
      row ∈ (rows.foldl (fun t row => t.insert row.1 row.2) t).rows → row ∈ rows ∨ row ∈ t.rows := by
    intro rows
    induction rows with
    | nil => exact fun t h => .inr h
    | cons first rest ih =>
      intro t h
      rcases ih _ h with h | h
      · exact .inl (List.mem_cons_of_mem _ h)
      · rcases mem_insertRow h with rfl | h
        · exact .inl List.mem_cons_self
        · exact .inr h
  rcases hfold rows empty h with h | h
  · exact h
  · cases h

theorem lookup_append (name : String) (second : List (String × α)) : ∀ first : List (String × α),
    (first ++ second).lookup name = (first.lookup name).or (second.lookup name)
  | [] => rfl
  | row :: rest => by
    rw [List.cons_append, List.lookup_cons, List.lookup_cons, lookup_append name second rest]
    split <;> rfl

/-- The last value that was stored under a name is the one that is read. -/
theorem get?_ofList (rows : List (String × α)) (name : String) :
    (ofList rows).get? name = rows.reverse.lookup name := by
  -- for any table to begin with: what is stored later is found earlier
  have hfold : ∀ (rows : List (String × α)) (t : Table α),
      (rows.foldl (fun t row => t.insert row.1 row.2) t).get? name = (rows.reverse.lookup name).or (t.get? name) := by
    intro rows
    induction rows with
    | nil => exact fun t => rfl
    | cons first rest ih =>
      intro t
      rw [List.foldl_cons, ih, get?_insert, List.reverse_cons, lookup_append, Option.or_assoc]
      by_cases h : name = first.1
      · subst h; rw [if_pos rfl, lookup_cons_self]; rfl
      · rw [if_neg h, lookup_cons_ne h]; rfl
  unfold ofList
  rw [hfold, get?_empty, Option.or_none]

/-- Storing another value under a name replaces its row and no other. -/
theorem insertRow_of_mem : ∀ {rows : List (String × α)} {name : String} {old : α},
    rows.Pairwise (fun a b => a.1 < b.1) → (name, old) ∈ rows → ∃ before after,
      rows = before ++ (name, old) :: after ∧
      ∀ value, insertRow name value rows = before ++ (name, value) :: after
  | first :: rows, name, old, hs, h => by
    obtain ⟨hfirst, hs⟩ := List.pairwise_cons.1 hs
    rcases List.mem_cons.1 h with rfl | h
    · refine ⟨[], rows, rfl, fun value => ?_⟩
      rw [insertRow, if_neg (String.lt_irrefl _), if_pos rfl, List.nil_append]
    · obtain ⟨before, after, rfl, hins⟩ := insertRow_of_mem hs h
      have hlt : first.1 < name := hfirst _ h
      refine ⟨first :: before, after, rfl, fun value => ?_⟩
      rw [insertRow, if_neg (String.lt_asymm hlt), if_neg fun e => String.lt_irrefl _ (e ▸ hlt), hins]
      rfl

/-- Storing a value under a new name adds a row. -/
theorem insertRow_of_lookup_none {name : String} : ∀ {rows : List (String × α)}, rows.lookup name = none →
    ∃ before after, rows = before ++ after ∧ ∀ value, insertRow name value rows = before ++ (name, value) :: after
  | [], _ => ⟨[], [], rfl, fun _ => rfl⟩
  | first :: rows, h => by
    have hne : name ≠ first.1 := by
      rintro rfl
      rw [lookup_cons_self] at h
      cases h
    by_cases hlt : name < first.1
    · exact ⟨[], first :: rows, rfl, fun value => by rw [insertRow, if_pos hlt]; rfl⟩
    · rw [lookup_cons_ne hne] at h
      obtain ⟨before, after, rfl, hins⟩ := insertRow_of_lookup_none h
      refine ⟨first :: before, after, rfl, fun value => ?_⟩
      rw [insertRow, if_neg hlt, if_neg hne, hins]
      rfl

/-- A value that takes the place of another one adds no name. -/
theorem names_insert_of_get? {t : Table α} {name : String} {old : α} (h : t.get? name = some old) (value : α) :
    (t.insert name value).names = t.names := by
  obtain ⟨before, after, hrows, hins⟩ := insertRow_of_mem t.sorted ((get?_eq_some_iff ..).1 h)
  show (insertRow name value t.rows).map (·.1) = t.rows.map (·.1)
  rw [hins, hrows, List.map_append, List.map_append]
  rfl

/-! ## Rows in another order -/

section Rows

open scoped List

theorem filter_insertRow (name : String) (value : α) : ∀ rows : List (String × α),
    (insertRow name value rows).filter (fun row => row.1 ≠ name) = rows.filter fun row => row.1 ≠ name
  | [] => by simp [insertRow]
  | row :: rows => by
    unfold insertRow
    split_ifs with hlt heq
    · simp
    · simp [heq]
    · simp only [List.filter_cons, filter_insertRow name value rows]

theorem erase_insert (t : Table α) (name : String) (value : α) : (t.insert name value).erase name = t.erase name := by
  simp only [erase, insert, filter_insertRow]

/-- Nothing stands under the name that is dropped, and nothing new under any other. -/
theorem get?_erase_eq_none {t : Table α} {name other : String} (h : other = name ∨ t.get? other = none) :
    (t.erase name).get? other = none := by
  by_contra hsome
  obtain ⟨value, hvalue⟩ := Option.ne_none_iff_exists'.1 hsome
  rw [get?_eq_some_iff] at hvalue
  obtain ⟨hrow, hne⟩ := List.mem_filter.1 hvalue
  rcases h with rfl | hnone
  · simp at hne
  · rw [(get?_eq_some_iff ..).2 hrow] at hnone
    cases hnone

theorem rows_erase (t : Table α) (name : String) :
    t.rows ~ ((t.get? name).map fun value => (name, value)).toList ++ (t.erase name).rows := by
  have hrows := (List.filter_append_perm (fun row => decide (row.1 = name)) t.rows).symm
  rw [filter_rows] at hrows
  simpa [erase] using hrows

/-- Reading a name in rows of another order. -/
theorem get?_eq_lookup {t : Table α} {rows : List (String × α)} (h : t.rows ~ rows) (name : String) :
    t.get? name = rows.lookup name := by
  cases hrow : rows.lookup name with
  | some value => exact (get?_eq_some_iff ..).2 (h.mem_iff.2 (mem_of_lookup_eq_some hrow))
  | none =>
    rw [Option.eq_none_iff_forall_ne_some]
    intro value hvalue
    have hmem : (name, value) ∈ rows := h.mem_iff.1 ((get?_eq_some_iff ..).1 hvalue)
    simpa using List.lookup_eq_none_iff.1 hrow _ hmem

variable [DecidableEq α]

/-- Rows less the one that is read under a name. -/
def without (name : String) (rows : List (String × α)) : List (String × α) :=
  match rows.lookup name with
  | some value => rows.erase (name, value)
  | none => rows

theorem without_of_lookup {name : String} {value : α} {rows : List (String × α)} (h : rows.lookup name = some value) :
    without name rows = rows.erase (name, value) := by
  rw [without, h]

theorem without_of_lookup_none {name : String} {rows : List (String × α)} (h : rows.lookup name = none) :
    without name rows = rows := by
  rw [without, h]

theorem perm_without (name : String) (rows : List (String × α)) :
    rows ~ ((rows.lookup name).map fun value => (name, value)).toList ++ without name rows := by
  unfold without
  cases hrow : rows.lookup name with
  | none => exact .refl rows
  | some value => exact List.perm_cons_erase (mem_of_lookup_eq_some hrow)

theorem rows_erase_perm {t : Table α} {rows : List (String × α)} (h : t.rows ~ rows) (name : String) :
    (t.erase name).rows ~ without name rows := by
  have hboth := ((t.rows_erase name).symm.trans h).trans (perm_without name rows)
  rw [get?_eq_lookup h] at hboth
  exact (List.perm_append_left_iff _).1 hboth

theorem rows_insert_perm {t : Table α} {rows : List (String × α)} (h : t.rows ~ rows) (name : String) (value : α) :
    (t.insert name value).rows ~ (name, value) :: without name rows := by
  have hnew := (t.insert name value).rows_erase name
  rw [get?_insert_self, erase_insert] at hnew
  exact hnew.trans ((rows_erase_perm h name).cons _)

end Rows

end ScriptHost.Table
