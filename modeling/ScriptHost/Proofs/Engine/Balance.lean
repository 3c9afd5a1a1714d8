/-
The balance of the engine: how many references the host holds to each slot. A balanced heap counts
exactly these, and its properties lead nowhere but to its own cells. Every operation of the engine
moves the balance by the references that it hands out or takes back, and by nothing else; and a
reference that is held can be given back.

A run keeps the balance because it never counts a reference: the region of the run is the whole heap.
-/
import ScriptHost.Proofs.Engine.Basic
import ScriptHost.Proofs.Engine.Confinement
import ScriptHost.Proofs.Engine.Triple

namespace ScriptHost

/-! ## Counts -/

/-- How many references are held to each slot. -/
abbrev Counts := Slot → Nat

/-- One reference to a slot. -/
def one (slot : Slot) : Counts := Pi.single slot 1

theorem one_self (slot : Slot) : one slot slot = 1 := Pi.single_eq_same ..

theorem one_of_ne {slot other : Slot} (h : other ≠ slot) : one slot other = 0 := Pi.single_eq_of_ne h 1

/-- How many of some references are to each slot. -/
def tally : List Ref → Counts
  | [] => 0
  | ref :: refs => tally refs + one ref.slot

@[simp] theorem tally_nil : tally [] = 0 := rfl

@[simp] theorem tally_cons (ref : Ref) (refs : List Ref) : tally (ref :: refs) = tally refs + one ref.slot := rfl

@[simp] theorem tally_append (first second : List Ref) :
    tally (first ++ second) = tally first + tally second := by
  induction first with
  | nil => rw [List.nil_append, tally_nil, zero_add]
  | cons ref refs ih => rw [List.cons_append, tally_cons, tally_cons, ih, add_right_comm]

theorem tally_perm {first second : List Ref} (h : first.Perm second) : tally first = tally second := by
  induction h with
  | nil => rfl
  | cons ref _ ih => rw [tally_cons, tally_cons, ih]
  | swap ref other refs => simp only [tally_cons, add_right_comm]
  | trans _ _ ih ih' => exact ih.trans ih'

theorem tally_pos {refs : List Ref} {ref : Ref} (h : ref ∈ refs) : 0 < tally refs ref.slot := by
  induction refs with
  | nil => cases h
  | cons first rest ih =>
    rw [tally_cons, Pi.add_apply]
    rcases List.mem_cons.1 h with rfl | h
    · rw [one_self]; exact Nat.succ_pos _
    · exact Nat.add_pos_left (ih h) _

/-- A slot that is known to be on the heap: it was there at the beginning, or a reference to it is held. -/
def Known (lo : Nat) (counts : Counts) (slot : Slot) : Prop := slot < lo ∨ 0 < counts slot

theorem known_one {lo : Nat} {counts : Counts} {slot : Slot} : Known lo (counts + one slot) slot := by
  refine .inr ?_
  rw [Pi.add_apply, one_self]
  exact Nat.succ_pos _

theorem Known.add {lo : Nat} {counts : Counts} {slot : Slot} (h : Known lo counts slot) (more : Counts) :
    Known lo (counts + more) slot :=
  h.imp id fun hp => Nat.add_pos_left hp _

/-! ## Balanced heaps -/

/-- A heap of at least `lo` cells on which the host holds just these references. -/
structure Heap.Balanced (lo : Nat) (counts : Counts) (h : Heap) : Prop where
  closed : h.Closed
  grown : lo ≤ h.size
  refs : ∀ slot, h.refs slot = counts slot

namespace Heap.Balanced

variable {lo : Nat} {counts : Counts} {h : Heap} {slot : Slot} {p : Payload}

theorem lt_size (hb : h.Balanced lo counts) (hs : Known lo counts slot) : slot < h.size := by
  rcases hs with hs | hs
  · exact lt_of_lt_of_le hs hb.grown
  · by_contra hlt
    rw [← hb.refs, refs_eq_zero_of_le (Nat.not_lt.1 hlt)] at hs
    exact Nat.lt_irrefl 0 hs

theorem push_of_lt (hb : h.Balanced lo counts)
    (hp : ∀ name next, p.properties.get? name = some next → next < h.size) : (h.push p).Balanced lo counts := by
  refine ⟨hb.closed.push_of_lt hp, ?_, fun other => ?_⟩
  · rw [size_push]; exact Nat.le_succ_of_le hb.grown
  · rw [refs_push]; exact hb.refs other

theorem push (hb : h.Balanced lo counts) (hp : p.properties = .empty) : (h.push p).Balanced lo counts := by
  refine hb.push_of_lt fun name next hn => ?_
  rw [hp] at hn
  cases hn

theorem write (hb : h.Balanced lo counts) {value : Slot} {properties : Table Slot} (name : String)
    (hv : value < h.size) (ho : h.payload slot = .object properties) :
    (h.setPayload slot (.object (properties.insert name value))).Balanced lo counts := by
  refine ⟨hb.closed.write name hv ho, ?_, fun other => ?_⟩
  · rw [size_setPayload]; exact hb.grown
  · rw [refs_setPayload]; exact hb.refs other

/-- One more reference to a cell. -/
theorem issue (hb : h.Balanced lo counts) (hs : slot < h.size) :
    (h.setRefs slot (h.refs slot + 1)).Balanced lo (counts + one slot) := by
  refine ⟨hb.closed.setRefs slot _, ?_, fun other => ?_⟩
  · rw [size_setRefs]; exact hb.grown
  · rw [refs_setRefs, Pi.add_apply]
    by_cases he : other = slot
    · subst he; rw [if_pos ⟨rfl, hs⟩, one_self, hb.refs]
    · rw [if_neg fun hc => he hc.1, one_of_ne he, hb.refs, Nat.add_zero]

/-- One reference less to a cell to which one is held. -/
theorem release (hb : h.Balanced lo (counts + one slot)) : ∃ n, h.refs slot = n + 1 ∧
    (h.setRefs slot n).Balanced lo counts := by
  have hn : h.refs slot = counts slot + 1 := by rw [hb.refs, Pi.add_apply, one_self]
  refine ⟨counts slot, hn, hb.closed.setRefs slot _, ?_, fun other => ?_⟩
  · rw [size_setRefs]; exact hb.grown
  · rw [refs_setRefs]
    by_cases he : other = slot
    · subst he; rw [if_pos ⟨rfl, hb.lt_size known_one⟩]
    · rw [if_neg fun hc => he hc.1, hb.refs, Pi.add_apply, one_of_ne he, Nat.add_zero]

/-- The whole of a balanced heap. -/
def region (lo : Nat) (counts : Counts) : Region where
  keeps := Heap.Balanced lo counts
  mem n slot := slot < n
  mono hn hs := lt_of_lt_of_le hs hn
  fresh _ := Nat.lt_succ_self _
  alloc hb hp := hb.push hp.properties_eq
  read hb _ hn := hb.closed _ _ _ hn
  write hb _ hv ho := hb.write _ hv ho

end Heap.Balanced

/-! ## Operations of the engine -/

namespace Engine

/-- The host holds just these references. -/
abbrev Balanced (lo : Nat) (counts : Counts) (e : Engine) : Prop := e.heap.Balanced lo counts

variable {lo : Nat} {counts : Counts}

/-- A fresh value that is handed out has this one reference. -/
theorem refs_handOut_fresh (e : Engine) (p : Payload) (slot : Slot) :
    (e.handOut (e.heap.push p) e.heap.size).heap.refs slot = e.heap.refs slot + one e.heap.size slot := by
  rw [handOut, Heap.refs_setRefs]
  by_cases he : slot = e.heap.size
  · subst he
    rw [if_pos ⟨rfl, e.heap.size_lt_push p⟩, Heap.refs_push, one_self]
  · rw [if_neg fun hc => he hc.1, Heap.refs_push, one_of_ne he, Nat.add_zero]

theorem triple_issue {slot : Slot} : Triple (fun e => e.Balanced lo counts ∧ slot < e.heap.size) (issue slot)
    fun ref e => e.Balanced lo (counts + one ref.slot) :=
  fun _ ⟨hb, hs⟩ => hb.issue hs

theorem triple_acquire {ref : Ref} (hs : Known lo counts ref.slot) :
    Triple (Balanced lo counts) (acquire ref) fun copy e => e.Balanced lo (counts + one copy.slot) :=
  fun e hb => triple_issue e ⟨hb, hb.lt_size hs⟩

theorem release_ok {ref : Ref} {e : Engine} (hb : e.Balanced lo (counts + one ref.slot)) :
    ∃ e', release ref e = .ok ((), e') ∧ e'.Balanced lo counts := by
  obtain ⟨n, hn, hb'⟩ := hb.release
  exact ⟨_, release_of_succ hn, hb'⟩

theorem create_balanced {p : Payload} {e : Engine} (hb : e.Balanced lo counts)
    (hp : ∀ name next, p.properties.get? name = some next → next < e.heap.size) :
    EndsWell (fun r => r.2.Balanced lo (counts + one r.1.slot)) (create p e) :=
  triple_issue { e with heap := e.heap.push p } ⟨hb.push_of_lt hp, e.heap.size_lt_push p⟩

theorem triple_create {p : Payload} (hp : p.properties = .empty) :
    Triple (Balanced lo counts) (create p) fun ref e => e.Balanced lo (counts + one ref.slot) := by
  refine fun e hb => create_balanced hb fun name next hn => ?_
  rw [hp] at hn
  cases hn

/-- A run of the whole heap, handed out. -/
theorem runOut_balanced {r : Run Slot} {e : Engine} (hb : e.Balanced lo counts)
    (hr : (Heap.Balanced.region lo counts).Confines e.heap.size r fun n slot => slot < n) :
    EndsWell (fun x => x.2.Balanced lo (counts + one (refOf x.1).slot)) (runOut r e) := by
  rw [runOut_eq]
  rcases hrun : r.run e.heap with ⟨(slot | _) | slot, heap⟩
  · obtain ⟨hb', -, hend⟩ := hr e.heap hb (le_refl _) _ _ hrun
    exact hb'.issue hend
  · trivial
  · obtain ⟨hb', -, hend⟩ := hr e.heap hb (le_refl _) _ _ hrun
    exact hb'.issue hend

theorem confines_allocFunction (n : Nat) (params : String) (source : Bytes) :
    (Heap.Balanced.region lo counts).Confines n (allocFunction params source) fun n slot => slot < n :=
  Region.confines_bind (confines_compileBody _ n params source) fun _ _ _ _ =>
    Region.confines_alloc_of fun hb => hb.push rfl

theorem triple_compileFunction (name params : String) (source : Bytes) :
    Triple (Balanced lo counts) (compileFunction name params source) fun result e =>
      e.Balanced lo (counts + one (refOf result).slot) := by
  intro e hb
  exact runOut_balanced (e := { e with parses := e.parses.push ⟨name, params⟩ }) hb
    (confines_allocFunction _ params source)

theorem triple_loadRecord (blob : Bytes) (index : UInt32) :
    Triple (Balanced lo counts) (loadRecord blob index) fun result e =>
      e.Balanced lo (counts + one (refOf result).slot) := by
  intro e hb
  refine runOut_balanced hb ?_
  split
  · exact Region.confines_fail
  · split
    · exact Region.confines_fail
    · exact confines_allocFunction _ _ _

theorem triple_runBlob (blob : Bytes) :
    Triple (Balanced lo counts) (runBlob blob) fun result e =>
      e.Balanced lo (counts + one (refOf result).slot) := by
  intro e hb
  rw [runBlob_eq]
  exact runOut_balanced hb (confines_blobProgram _ _ e.depth blob)

/-- The function itself may be any value, only the arguments have to be known. -/
theorem triple_applyFunction {function : Ref} {args : List Ref} (ha : ∀ ref ∈ args, Known lo counts ref.slot) :
    Triple (Balanced lo counts) (applyFunction function args) fun result e =>
      e.Balanced lo (counts + one (refOf result).slot) := by
  intro e hb
  rw [applyFunction_eq]
  refine runOut_balanced (e := { e with calls := e.calls + 1 }) hb ?_
  refine Region.admits_callWithin _ e.depth _ _ _ fun slot hs => ?_
  obtain ⟨ref, href, rfl⟩ := List.mem_map.1 hs
  exact hb.lt_size (ha ref href)

theorem triple_readProperty {object : Ref} (ho : Known lo counts object.slot) (name : String) :
    Triple (Balanced lo counts) (readProperty object name) fun result e =>
      e.Balanced lo (counts + one (refOf result).slot) := by
  intro e hb
  exact runOut_balanced hb (Region.confines_readProperty name (hb.lt_size ho))

/-- The references in an answer that may be an error value. -/
def errorOf : Except Ref Unit → Counts
  | .ok () => 0
  | .error ref => one ref.slot

theorem triple_writeProperty {object value : Ref} (ho : Known lo counts object.slot)
    (hv : Known lo counts value.slot) (name : String) :
    Triple (Balanced lo counts) (writeProperty object name value) fun result e =>
      e.Balanced lo (counts + errorOf result) := by
  intro e hb
  have hc := Region.confines_writeProperty (R := Heap.Balanced.region lo counts) name (hb.lt_size ho) (hb.lt_size hv)
  rw [writeProperty_eq]
  rcases hrun : (Run.writeProperty object.slot name value.slot).run e.heap with ⟨(slot | _) | _, heap⟩
  · obtain ⟨hb', -, hend⟩ := hc e.heap hb (le_refl _) _ _ hrun
    exact hb'.issue hend
  · trivial
  · exact (hc e.heap hb (le_refl _) _ _ hrun).1

end Engine

end ScriptHost
