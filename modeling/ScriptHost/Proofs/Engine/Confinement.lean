/-
Confinement of scripts: a script reaches the heap only through its arguments. What it cannot reach
from them by following properties keeps its payload, the one reference that is counted is the one to
the result, and the result is a cell of the run or was reachable before.

The proof is the region of the run: the cells allocated since it began and the slots that its
arguments reached when it began. It is closed under properties because a write stores a slot of the
region in a cell of the region.
-/
import ScriptHost.Proofs.Engine.Basic
import ScriptHost.Proofs.Engine.Region

namespace ScriptHost

namespace Heap

/-- The slots that properties lead to from some roots. -/
inductive Reaches (h : Heap) (roots : List Slot) : Slot → Prop where
  | root {slot : Slot} : slot ∈ roots → Reaches h roots slot
  | step {slot next : Slot} {name : String} : Reaches h roots slot →
      (h.properties slot).get? name = some next → Reaches h roots next

theorem not_reaches_nil (h : Heap) (slot : Slot) : ¬ h.Reaches [] slot := by
  intro hr
  induction hr with
  | root hs => cases hs
  | step _ _ ih => exact ih

/-- The cells allocated since a heap was `h`, and what the roots reached in it. -/
def Within (h : Heap) (roots : List Slot) (n : Nat) (slot : Slot) : Prop :=
  (h.size ≤ slot ∧ slot < n) ∨ h.Reaches roots slot

/-- What a run that is given some roots keeps of a heap that was `h` when it began. -/
structure Spared (h : Heap) (roots : List Slot) (now : Heap) : Prop where
  grown : h.size ≤ now.size
  payload : ∀ slot < h.size, ¬ h.Reaches roots slot → now.payload slot = h.payload slot
  refs : ∀ slot, now.refs slot = h.refs slot
  closed : ∀ slot name next, h.Within roots now.size slot →
    (now.properties slot).get? name = some next → h.Within roots now.size next

theorem Within.mono {h : Heap} {roots : List Slot} {n m : Nat} {slot : Slot} (hn : n ≤ m)
    (hs : h.Within roots n slot) : h.Within roots m slot :=
  hs.imp (fun hf => ⟨hf.1, lt_of_lt_of_le hf.2 hn⟩) id

theorem Spared.refl (h : Heap) (roots : List Slot) : h.Spared roots h := by
  refine ⟨le_refl _, fun _ _ _ => rfl, fun _ => rfl, fun slot name next hs hp => ?_⟩
  rcases hs with ⟨hle, hlt⟩ | hr
  · exact absurd hlt (Nat.not_lt.2 hle)
  · exact .inr (hr.step hp)

theorem Spared.push {h now : Heap} {roots : List Slot} (hs : h.Spared roots now) {p : Payload}
    (hp : p.Plain) : h.Spared roots (now.push p) := by
  refine ⟨?_, fun slot hlt hr => ?_, fun slot => ?_, fun slot name next hw hn => ?_⟩
  · rw [size_push]; exact Nat.le_succ_of_le hs.grown
  · rw [payload_push_of_lt (lt_of_lt_of_le hlt hs.grown)]; exact hs.payload slot hlt hr
  · rw [refs_push]; exact hs.refs slot
  · -- the new cell leads nowhere, and an older one leads where it did
    rw [size_push] at hw ⊢
    rw [properties_push] at hn
    split at hn
    · rw [hp.properties_eq] at hn; cases hn
    · rename_i hne
      refine (hs.closed slot name next ?_ hn).mono (Nat.le_succ _)
      exact hw.imp (fun hf => ⟨hf.1, lt_of_le_of_ne (Nat.le_of_lt_succ hf.2) hne⟩) id

theorem Spared.write {h now : Heap} {roots : List Slot} (hs : h.Spared roots now) {slot value : Slot}
    {properties : Table Slot} (name : String) (hw : h.Within roots now.size slot)
    (hv : h.Within roots now.size value) (ho : now.payload slot = .object properties) :
    h.Spared roots (now.setPayload slot (.object (properties.insert name value))) := by
  refine ⟨?_, fun other hlt hr => ?_, fun other => ?_, fun other key next hother hn => ?_⟩
  · rw [size_setPayload]; exact hs.grown
  · have hne : other ≠ slot := by
      rintro rfl
      rcases hw with ⟨hle, -⟩ | hw
      · exact absurd hlt (Nat.not_lt.2 hle)
      · exact hr hw
    rw [payload_setPayload, if_neg fun hc => hne hc.1]
    exact hs.payload other hlt hr
  · rw [refs_setPayload]; exact hs.refs other
  · -- under the name that is written stands the value, and elsewhere what stood there
    rw [size_setPayload] at hother ⊢
    rw [properties_setPayload] at hn
    split at hn
    · rename_i hc
      obtain ⟨rfl, -⟩ := hc
      change (properties.insert name value).get? key = some next at hn
      rw [Table.get?_insert] at hn
      split at hn
      · cases hn; exact hv
      · exact hs.closed other key next hother (by rw [properties_of_object ho]; exact hn)
    · exact hs.closed other key next hother hn

/-- The region of a run that is given some roots. -/
def region (h : Heap) (roots : List Slot) : Region where
  keeps := h.Spared roots
  mem := h.Within roots
  mono := Within.mono
  fresh hs := .inl ⟨hs.grown, Nat.lt_succ_self _⟩
  alloc hs hp := hs.push hp
  read hs hw hn := hs.closed _ _ _ hw hn
  write hs hw hv ho := hs.write _ hw hv ho

/-- What an operation that is given some roots does to the heap when it hands out `result`. -/
structure Confined (h : Heap) (roots : List Slot) (result : Slot) (after : Heap) : Prop where
  grown : h.size ≤ after.size
  /-- What the roots do not reach keeps its payload. -/
  payload : ∀ slot < h.size, ¬ h.Reaches roots slot → after.payload slot = h.payload slot
  /-- One reference is counted, to the result. -/
  refs : ∀ slot < after.size, after.refs slot = h.refs slot + if slot = result then 1 else 0
  /-- The result is a new cell or was reachable. -/
  origin : (h.size ≤ result ∧ result < after.size) ∨ h.Reaches roots result

end Heap

namespace Engine

/-- A run that stays in the region of its roots is confined when its result is handed out. -/
theorem runOut_confined {r : Run Slot} {roots : List Slot} {e e' : Engine} {result : Except Ref Ref}
    (hr : (e.heap.region roots).Confines e.heap.size r (e.heap.Within roots))
    (h : runOut r e = .ok (result, e')) : e.heap.Confined roots (refOf result).slot e'.heap := by
  obtain ⟨out, heap, hrun, hout, rfl⟩ := runOut_ok h
  obtain ⟨hs, hle, hend⟩ := hr e.heap (Heap.Spared.refl ..) (le_refl _) out heap hrun
  have hw : e.heap.Within roots heap.size (refOf result).slot := by
    rcases hout with rfl | rfl <;> exact hend
  refine ⟨?_, fun slot hlt hn => ?_, fun slot hlt => ?_, ?_⟩
  · rw [size_handOut]; exact hle
  · rw [payload_handOut]; exact hs.payload slot hlt hn
  · rw [size_handOut] at hlt
    rw [refs_handOut _ hlt, hs.refs]
  · rw [size_handOut]; exact hw

theorem confines_compileBody (R : Region) (n : Nat) (params : String) (source : Bytes) :
    R.Confines n (compileBody params source) fun _ _ => True := by
  unfold compileBody
  split
  · exact Region.confines_pure fun _ _ => trivial
  · exact Region.confines_bind (Region.confines_alloc trivial) fun _ _ _ hs => Region.confines_throw hs

theorem confines_blobProgram (R : Region) (n depth : Nat) (blob : Bytes) :
    R.Confines n (blobProgram depth blob) R.mem := by
  unfold blobProgram
  split
  · exact Region.confines_fail
  · exact Region.confines_bind (confines_compileBody R n _ _) fun m body _ _ =>
      Region.confines_program R depth m body

theorem applyFunction_confined {function : Ref} {args : List Ref} {e e' : Engine} {result : Except Ref Ref}
    (h : applyFunction function args e = .ok (result, e')) :
    e.heap.Confined (args.map (·.slot)) (refOf result).slot e'.heap := by
  rw [applyFunction_eq] at h
  refine runOut_confined (e := { e with calls := e.calls + 1 }) ?_ h
  exact Region.admits_callWithin _ e.depth _ _ _ fun slot hs => .inr (.root hs)

theorem runBlob_confined {blob : Bytes} {e e' : Engine} {result : Except Ref Ref}
    (h : runBlob blob e = .ok (result, e')) : e.heap.Confined [] (refOf result).slot e'.heap :=
  runOut_confined (confines_blobProgram _ _ e.depth blob) (by rw [← runBlob_eq]; exact h)

/-- A call changes the payload of nothing that its arguments do not reach, a program of a blob changes
no cell at all, and neither changes a reference count other than that of its result, which is a new
cell or was reachable from the arguments. -/
theorem scripts_confined (e e' : Engine) (result : Except Ref Ref) :
    (∀ function args, applyFunction function args e = .ok (result, e') →
      e.heap.Confined (args.map (·.slot)) (refOf result).slot e'.heap) ∧
    ∀ blob, runBlob blob e = .ok (result, e') →
      e.heap.Confined [] (refOf result).slot e'.heap ∧
      ∀ slot < e.heap.size, e'.heap.cells[slot]? = e.heap.cells[slot]? := by
  refine ⟨fun function args h => applyFunction_confined h, fun blob h => ?_⟩
  have hc := runBlob_confined h
  refine ⟨hc, fun slot hlt => ?_⟩
  -- nothing is reachable without arguments, so the result is a new cell
  have hne : slot ≠ (refOf result).slot := by
    rintro rfl
    rcases hc.origin with ⟨hle, -⟩ | hr
    · exact absurd hlt (Nat.not_lt.2 hle)
    · exact e.heap.not_reaches_nil _ hr
  have hlt' := lt_of_lt_of_le hlt hc.grown
  refine Heap.cells_eq_of_parts hlt' hlt (hc.payload slot hlt (e.heap.not_reaches_nil slot)) ?_
  rw [hc.refs slot hlt', if_neg hne, Nat.add_zero]

/-- A module object, its exports, an object apart, and a function that writes to the exports of its
argument and returns them. -/
def confinedEngine : Engine where
  heap := ⟨#[⟨.object (.ofList [("exports", 1)]), 1⟩, ⟨.emptyObject, 0⟩, ⟨.emptyObject, 1⟩,
    ⟨.function ⟨["m"], [.assign ["m", "exports", "x"] .object, .return (some (.path ["m", "exports"]))]⟩, 1⟩]⟩
  parses := #[]
  calls := 0
  releases := 0
  issued := 3
  depth := 1

/-- The call returns the exports, which it changed; the program makes an object that holds itself. -/
theorem scripts_confined_exports :
    (∃ e', applyFunction ⟨3, 3⟩ [⟨0, 1⟩] confinedEngine = .ok (.ok ⟨1, 4⟩, e') ∧
      confinedEngine.heap.Confined [0] 1 e'.heap) ∧
    ∃ e', runBlob (Snapshot.ofProgram "x = \x7b\x7d\nx.me = x\nx".toUTF8.toList) confinedEngine =
        .ok (.ok ⟨4, 4⟩, e') ∧
      ∀ slot < 4, e'.heap.cells[slot]? = confinedEngine.heap.cells[slot]? := by
  constructor
  · obtain ⟨e', h⟩ := exists_of_map_fst (x := applyFunction ⟨3, 3⟩ [⟨0, 1⟩] confinedEngine)
      (a := .ok ⟨1, 4⟩) (by decide +kernel)
    exact ⟨e', h, (scripts_confined confinedEngine e' _).1 _ _ h⟩
  · obtain ⟨e', h⟩ := exists_of_map_fst (a := .ok ⟨4, 4⟩)
      (x := runBlob (Snapshot.ofProgram "x = \x7b\x7d\nx.me = x\nx".toUTF8.toList) confinedEngine)
      (by decide +kernel)
    exact ⟨e', h, ((scripts_confined confinedEngine e' _).2 _ h).2⟩

end Engine

end ScriptHost
