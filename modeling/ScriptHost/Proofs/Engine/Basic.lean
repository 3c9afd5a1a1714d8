/-
What an operation of the engine that hands out a reference leaves behind: a run works on the heap,
and one reference to the slot that it ends with is counted on the cell of that slot.
-/
import ScriptHost.Engine.Basic
import ScriptHost.Proofs.Engine.Heap

namespace ScriptHost

section Ends

variable {ε α β : Type} {x : Except ε α}

theorem exists_of_map_ok {f : α → β} {b : β} (h : x.map f = .ok b) : ∃ a, x = .ok a ∧ f a = b := by
  cases x with
  | error e => cases h
  | ok a => cases h; exact ⟨a, rfl, rfl⟩

theorem exists_of_bind_ok {f : α → Except ε β} {b : β} (h : x.bind f = .ok b) : ∃ a, x = .ok a ∧ f a = .ok b := by
  cases x with
  | error e => cases h
  | ok a => exact ⟨a, rfl, h⟩

/-- A computation whose value is known ends in some state. -/
theorem exists_of_map_fst {x : Except ε (α × β)} {a : α} (h : x.map (·.1) = .ok a) : ∃ b, x = .ok (a, b) := by
  obtain ⟨⟨_, b⟩, hx, rfl⟩ := exists_of_map_ok h
  exact ⟨b, hx⟩

/-- Every value in a list that was made one by one comes from one of the list before. -/
theorem forall₂_of_mapM_ok {f : α → Except ε β} : ∀ {as : List α} {bs : List β}, as.mapM f = .ok bs →
    List.Forall₂ (fun a b => f a = .ok b) as bs
  | [], bs, h => by
    cases h
    exact .nil
  | a :: as, bs, h => by
    rw [List.mapM_cons] at h
    obtain ⟨b, hb, h⟩ := exists_of_bind_ok h
    obtain ⟨bs, hbs, h⟩ := exists_of_bind_ok h
    cases h
    exact .cons hb (forall₂_of_mapM_ok hbs)

theorem exists_of_mem_mapM {f : α → Except ε β} {as : List α} {bs : List β} (h : as.mapM f = .ok bs) {b : β}
    (hb : b ∈ bs) : ∃ a, f a = .ok b := by
  have hall := forall₂_of_mapM_ok h
  clear h
  induction hall with
  | nil => cases hb
  | cons hhead _ ih =>
    rcases List.mem_cons.1 hb with rfl | hb
    · exact ⟨_, hhead⟩
    · exact ih hb

end Ends

namespace Engine

/-- The reference that comes back, on whichever side it does. -/
def refOf : Except Ref Ref → Ref
  | .ok ref => ref
  | .error ref => ref

/-- The engine on a heap after one more reference to a slot was handed out. -/
def handOut (e : Engine) (h : Heap) (slot : Slot) : Engine :=
  { e with heap := h.setRefs slot (h.refs slot + 1), issued := e.issued + 1 }

@[simp] theorem size_handOut (e : Engine) (h : Heap) (slot : Slot) : (e.handOut h slot).heap.size = h.size :=
  Heap.size_setRefs ..

@[simp] theorem payload_handOut (e : Engine) (h : Heap) (slot other : Slot) :
    (e.handOut h slot).heap.payload other = h.payload other := Heap.payload_setRefs ..

/-- Only the slot that is handed out has a reference more. -/
theorem refs_handOut (e : Engine) {h : Heap} {slot other : Slot} (hs : other < h.size) :
    (e.handOut h slot).heap.refs other = h.refs other + if other = slot then 1 else 0 := by
  show (h.setRefs slot (h.refs slot + 1)).refs other = _
  rw [Heap.refs_setRefs]
  by_cases he : other = slot
  · subst he; simp [hs]
  · simp [he]

/-! A fresh value that is handed out. -/

theorem payload_handOut_fresh (e : Engine) (p : Payload) :
    (e.handOut (e.heap.push p) e.heap.size).heap.payload e.heap.size = p := by
  rw [payload_handOut, Heap.payload_push, if_pos rfl]

theorem payload_handOut_push (e : Engine) (p : Payload) {slot : Slot} (hs : slot < e.heap.size) :
    (e.handOut (e.heap.push p) e.heap.size).heap.payload slot = e.heap.payload slot := by
  rw [payload_handOut, Heap.payload_push_of_lt hs]

theorem held_handOut_fresh (e : Engine) (p : Payload) :
    0 < (e.handOut (e.heap.push p) e.heap.size).heap.refs e.heap.size := by
  rw [refs_handOut _ (e.heap.size_lt_push p), if_pos rfl]
  exact Nat.succ_pos _

/-! ## What operations come to -/

/-- A reference to a cell that has none is not given back. -/
theorem release_of_zero {ref : Ref} {e : Engine} (hn : e.heap.refs ref.slot = 0) :
    release ref e = .error (.overReleased ref.slot) := by
  unfold release
  simp only [bind, StateT.bind, get, getThe, MonadStateOf.get, StateT.get, pure, Except.pure, Except.bind]
  rw [hn]
  rfl

theorem release_of_succ {ref : Ref} {e : Engine} {n : Nat} (hn : e.heap.refs ref.slot = n + 1) :
    release ref e = .ok ((), { e with heap := e.heap.setRefs ref.slot n, releases := e.releases + 1 }) := by
  unfold release
  simp only [bind, StateT.bind, get, getThe, MonadStateOf.get, StateT.get, pure, Except.pure, Except.bind]
  rw [hn]
  rfl

theorem exists_of_held {ref : Ref} {e : Engine} (h : 0 < e.heap.refs ref.slot) :
    ∃ e', release ref e = .ok ((), e') := by
  obtain ⟨n, hn⟩ := Nat.exists_eq_succ_of_ne_zero (Nat.ne_of_gt h)
  exact ⟨_, release_of_succ hn⟩

/-- What a run that is handed out does to the engine. -/
theorem runOut_eq (r : Run Slot) (e : Engine) : runOut r e = match r.run e.heap with
    | (.ok slot, heap) => .ok (.ok ⟨slot, e.issued + 1⟩, e.handOut heap slot)
    | (.error (.thrown slot), heap) => .ok (.error ⟨slot, e.issued + 1⟩, e.handOut heap slot)
    | (.error .tooDeep, _) => .error .tooDeep := by
  show (run r e >>= fun x => issueResult x.1 x.2) = _
  unfold run
  rcases r.run e.heap with ⟨(slot | _) | slot, heap⟩ <;> rfl

theorem writeProperty_eq (object : Ref) (name : String) (value : Ref) (e : Engine) :
    writeProperty object name value e = match (Run.writeProperty object.slot name value.slot).run e.heap with
    | (.ok (), heap) => .ok (.ok (), { e with heap := heap })
    | (.error (.thrown slot), heap) => .ok (.error ⟨slot, e.issued + 1⟩, e.handOut heap slot)
    | (.error .tooDeep, _) => .error .tooDeep := by
  show (run (Run.writeProperty object.slot name value.slot) e >>= fun x => _) = _
  unfold run
  rcases (Run.writeProperty object.slot name value.slot).run e.heap with ⟨(slot | _) | _, heap⟩ <;> rfl

/-- How a run that is handed out ends, unless it nests calls too deeply. -/
theorem runOut_ok {r : Run Slot} {e e' : Engine} {result : Except Ref Ref}
    (h : runOut r e = .ok (result, e')) : ∃ out heap, r.run e.heap = (out, heap) ∧
      (out = .ok (refOf result).slot ∨ out = .error (.thrown (refOf result).slot)) ∧
      e' = e.handOut heap (refOf result).slot := by
  rw [runOut_eq] at h
  split at h
  · rename_i slot heap hr
    cases h
    exact ⟨_, heap, hr, .inl rfl, rfl⟩
  · rename_i slot heap hr
    cases h
    exact ⟨_, heap, hr, .inr rfl, rfl⟩
  · cases h

theorem loadRecord_of_records? {blob : Bytes} {records : List Bytes} (hb : Snapshot.records? blob = some records)
    (index : UInt32) (e : Engine) : loadRecord blob index e = runOut (match records[index.toNat]? with
      | none => Run.fail .noSuchRecord
      | some record => allocFunction Factory.signature record) e := by
  unfold loadRecord
  generalize Snapshot.records? blob = found at hb
  subst hb
  rfl

/-- What `runBlob` runs. -/
def blobProgram (depth : Nat) (blob : Bytes) : Run Slot :=
  match Snapshot.records? blob with
  | none => Run.fail .badSnapshotHeader
  | some records => do
    let body ← compileBody "" (records.headD [])
    Run.program depth body

theorem runBlob_eq (blob : Bytes) (e : Engine) : runBlob blob e = runOut (blobProgram e.depth blob) e := rfl

theorem applyFunction_eq (function : Ref) (args : List Ref) (e : Engine) :
    applyFunction function args e = runOut (Run.callWithin e.depth function.slot (args.map (·.slot)))
      { e with calls := e.calls + 1 } := rfl

end Engine

end ScriptHost
