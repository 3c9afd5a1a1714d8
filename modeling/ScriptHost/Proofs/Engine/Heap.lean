/-
Laws of the heap: what each of its three changes does to the number of cells, to what the cells hold
and to their references. A heap is closed when the properties of its objects lead to its own cells.
-/
import ScriptHost.Engine.Heap
import ScriptHost.Proofs.Table

namespace ScriptHost

/-- Nothing in the payload leads to another cell: all that scripts allocate is of this kind. -/
def Payload.Plain : Payload → Prop
  | .undefined => True
  | .bool _ => True
  | .number _ => True
  | .text _ => True
  | .object properties => properties = .empty
  | .error _ => True
  | .function _ => False
  | .moduleLookup _ => False

/-- The properties of an object; any other payload has none. -/
def Payload.properties : Payload → Table Slot
  | .object properties => properties
  | _ => .empty

theorem Payload.Plain.properties_eq {p : Payload} (hp : p.Plain) : p.properties = .empty := by
  cases p <;> first | rfl | exact hp

namespace Heap

variable (h : Heap) (slot other : Slot) (p : Payload) (n : Nat)

/-! ## The number of cells -/

@[simp] theorem size_push : (h.push p).size = h.size + 1 := by simp [push, size]

theorem size_lt_push : h.size < (h.push p).size := by
  rw [size_push]; exact Nat.lt_succ_self _

@[simp] theorem size_setPayload : (h.setPayload slot p).size = h.size := by simp [setPayload, size]

@[simp] theorem size_setRefs : (h.setRefs slot n).size = h.size := by simp [setRefs, size]

/-! ## Payloads -/

theorem payload_push : (h.push p).payload slot = if slot = h.size then p else h.payload slot := by
  unfold payload push size
  rw [Array.getElem?_push]
  by_cases hs : slot = h.cells.size <;> simp [hs]

theorem payload_push_of_lt {h : Heap} {slot : Slot} (hs : slot < h.size) (p : Payload) :
    (h.push p).payload slot = h.payload slot := by
  rw [payload_push, if_neg (Nat.ne_of_lt hs)]

theorem payload_setPayload : (h.setPayload slot p).payload other =
    if other = slot ∧ slot < h.size then p else h.payload other := by
  unfold payload setPayload size
  rw [Array.getElem?_modify]
  by_cases hs : slot = other
  · subst hs
    by_cases hl : slot < h.cells.size
    · simp [hl]
    · simp [hl]
  · simp [hs, Ne.symm hs]

@[simp] theorem payload_setRefs : (h.setRefs slot n).payload other = h.payload other := by
  unfold payload setRefs
  rw [Array.getElem?_modify]
  by_cases hs : slot = other
  · subst hs
    cases h.cells[slot]? <;> simp
  · simp [hs]

theorem payload_eq_undefined_of_le {h : Heap} {slot : Slot} (hs : h.size ≤ slot) :
    h.payload slot = .undefined := by
  unfold payload
  rw [Array.getElem?_eq_none hs]

theorem lt_size_of_payload_ne {h : Heap} {slot : Slot} (hne : h.payload slot ≠ .undefined) : slot < h.size := by
  by_contra hle
  exact hne (payload_eq_undefined_of_le (Nat.not_lt.1 hle))

/-! ## Properties -/

theorem properties_eq : h.properties slot = (h.payload slot).properties := by
  unfold properties Payload.properties
  cases h.payload slot <;> rfl

theorem properties_of_object {h : Heap} {slot : Slot} {properties : Table Slot}
    (ho : h.payload slot = .object properties) : h.properties slot = properties := by
  rw [properties_eq, ho]; rfl

theorem properties_push : (h.push p).properties slot =
    if slot = h.size then p.properties else h.properties slot := by
  rw [properties_eq, payload_push, properties_eq]
  split <;> rfl

theorem properties_setPayload : (h.setPayload slot p).properties other =
    if other = slot ∧ slot < h.size then p.properties else h.properties other := by
  rw [properties_eq, payload_setPayload, properties_eq]
  split <;> rfl

@[simp] theorem properties_setRefs : (h.setRefs slot n).properties other = h.properties other := by
  rw [properties_eq, payload_setRefs, ← properties_eq]

/-! ## References -/

@[simp] theorem refs_push : (h.push p).refs slot = h.refs slot := by
  unfold refs push
  rw [Array.getElem?_push]
  by_cases hs : slot = h.cells.size
  · subst hs; simp
  · simp [hs]

@[simp] theorem refs_setPayload : (h.setPayload slot p).refs other = h.refs other := by
  unfold refs setPayload
  rw [Array.getElem?_modify]
  by_cases hs : slot = other
  · subst hs
    cases h.cells[slot]? <;> simp
  · simp [hs]

theorem refs_setRefs : (h.setRefs slot n).refs other =
    if other = slot ∧ slot < h.size then n else h.refs other := by
  unfold refs setRefs size
  rw [Array.getElem?_modify]
  by_cases hs : slot = other
  · subst hs
    by_cases hl : slot < h.cells.size
    · simp [hl]
    · simp [hl]
  · simp [hs, Ne.symm hs]

theorem refs_eq_zero_of_le {h : Heap} {slot : Slot} (hs : h.size ≤ slot) : h.refs slot = 0 := by
  unfold refs
  rw [Array.getElem?_eq_none hs]

/-- A cell is its payload and its references. -/
theorem cells_eq_of_parts {a b : Heap} {slot : Slot} (ha : slot < a.size) (hb : slot < b.size)
    (hp : a.payload slot = b.payload slot) (hr : a.refs slot = b.refs slot) :
    a.cells[slot]? = b.cells[slot]? := by
  unfold payload at hp
  unfold refs at hr
  rw [Array.getElem?_eq_getElem ha, Array.getElem?_eq_getElem hb] at *
  congr 1
  generalize a.cells[slot] = x at *
  generalize b.cells[slot] = y at *
  cases x; cases y
  simp_all

/-! ## Closed heaps -/

/-- Every property of an object is a cell of the heap. -/
def Closed : Prop :=
  ∀ slot name next, (h.properties slot).get? name = some next → next < h.size

theorem closed_of_rows {h : Heap} (hr : ∀ slot < h.size, ∀ row ∈ (h.properties slot).rows, row.2 < h.size) :
    h.Closed := by
  intro slot name next hn
  rcases Nat.lt_or_ge slot h.size with hs | hs
  · exact hr slot hs _ ((Table.get?_eq_some_iff ..).1 hn)
  · rw [properties_eq, payload_eq_undefined_of_le hs] at hn
    cases hn

namespace Closed

variable {h : Heap} {slot : Slot} {p : Payload}

theorem push_of_lt (hc : h.Closed) (hp : ∀ name next, p.properties.get? name = some next → next < h.size) :
    (h.push p).Closed := by
  intro other name next hn
  rw [size_push]
  rw [properties_push] at hn
  split at hn
  · exact Nat.lt_succ_of_lt (hp name next hn)
  · exact Nat.lt_succ_of_lt (hc other name next hn)

theorem push (hc : h.Closed) (hp : p.properties = .empty) : (h.push p).Closed := by
  refine hc.push_of_lt fun name next hn => ?_
  rw [hp] at hn
  cases hn

theorem write (hc : h.Closed) {value : Slot} {properties : Table Slot} (name : String) (hv : value < h.size)
    (ho : h.payload slot = .object properties) :
    (h.setPayload slot (.object (properties.insert name value))).Closed := by
  intro other key next hn
  rw [size_setPayload]
  rw [properties_setPayload] at hn
  split at hn
  · -- under the name that is written stands the value, and elsewhere what stood there
    change (properties.insert name value).get? key = some next at hn
    rw [Table.get?_insert] at hn
    split at hn
    · cases hn; exact hv
    · exact hc slot key next (by rw [properties_of_object ho]; exact hn)
  · exact hc other key next hn

theorem setRefs (hc : h.Closed) (slot : Slot) (n : Nat) : (h.setRefs slot n).Closed := by
  intro other name next hn
  rw [size_setRefs]
  exact hc other name next (by rw [← properties_setRefs]; exact hn)

end Closed

end Heap

end ScriptHost
