/-
How the heap may change. It never shrinks, and what a cell holds stays what it is, but that objects get
properties, or others in the place of those they had. Every single change is such a one, and so is what
comes of any number of them: a run, an operation of the engine, or a session of a host.
-/
import ScriptHost.Proofs.Engine.Quiet

namespace ScriptHost

/-! ## Payloads and heaps -/

/-- What a payload may become: itself, or if it is an object one that has its properties and maybe others. -/
inductive Payload.Becomes : Payload → Payload → Prop where
  | same (p : Payload) : Becomes p p
  | object {properties properties' : Table Slot} :
      (∀ name, (properties.get? name).isSome → (properties'.get? name).isSome) →
      Becomes (.object properties) (.object properties')

theorem Payload.Becomes.trans {p q r : Payload} (h : p.Becomes q) (h' : q.Becomes r) : p.Becomes r := by
  cases h with
  | same => exact h'
  | object h =>
    cases h' with
    | same => exact .object h
    | object h' => exact .object fun name hname => h' name (h name hname)

/-- The heap has not shrunk, and each cell has become what it may. -/
structure Heap.Evolves (h h' : Heap) : Prop where
  grown : h.size ≤ h'.size
  payload : ∀ slot < h.size, (h.payload slot).Becomes (h'.payload slot)

namespace Heap.Evolves

variable {h h' h'' : Heap}

theorem refl (h : Heap) : h.Evolves h := ⟨le_refl _, fun _ _ => .same _⟩

theorem trans (h₁ : h.Evolves h') (h₂ : h'.Evolves h'') : h.Evolves h'' :=
  ⟨le_trans h₁.grown h₂.grown, fun slot hs =>
    (h₁.payload slot hs).trans (h₂.payload slot (lt_of_lt_of_le hs h₁.grown))⟩

theorem of_extends (he : h.Extends h') : h.Evolves h' := by
  refine ⟨he.grown, fun slot hs => ?_⟩
  rw [he.payload slot hs]
  exact .same _

theorem write {slot value : Slot} {properties : Table Slot} (name : String)
    (ho : h.payload slot = .object properties) :
    h.Evolves (h.setPayload slot (.object (properties.insert name value))) := by
  refine ⟨by rw [size_setPayload], fun other hs => ?_⟩
  rw [payload_setPayload]
  by_cases he : other = slot
  · subst he
    rw [if_pos ⟨rfl, hs⟩, ho]
    -- the object that is written keeps the names it had, this one included
    refine .object fun key hkey => ?_
    rw [Table.get?_insert]
    split
    · rfl
    · exact hkey
  · rw [if_neg fun hc => he hc.1]
    exact .same _

end Heap.Evolves

instance : Std.Refl Heap.Evolves := ⟨.refl⟩

instance : IsTrans Heap Heap.Evolves := ⟨fun _ _ _ => .trans⟩

/-! ## Runs -/

/-- Any run, whatever it is given: it keeps that the heap has evolved from what it was. -/
def Heap.evolving (h : Heap) : Region where
  keeps := h.Evolves
  mem _ _ := True
  mono _ hs := hs
  fresh _ := trivial
  alloc he _ := he.trans (.of_extends (.push _ _))
  read _ _ _ := trivial
  write he _ _ ho := he.trans (.write _ ho)

namespace Engine

/-- The heap has evolved. -/
def Evolves (e e' : Engine) : Prop := e.heap.Evolves e'.heap

instance : Std.Refl Evolves := ⟨fun e => .refl e.heap⟩

instance : IsTrans Engine Evolves := ⟨fun _ _ _ h h' => Heap.Evolves.trans h h'⟩

variable {α : Type}

theorem evolves_of_extends {op : EngineM α} (h : Stays Extends op) : Stays Evolves op :=
  stays_mono h fun _ _ he => .of_extends he.heap

theorem evolves_of_quiet {op : EngineM α} (h : Stays Quiet op) : Stays Evolves op :=
  evolves_of_extends (stays_mono h fun _ _ => Quiet.toExtends)

theorem evolves_runOut {r : Run Slot} (hr : ∀ h : Heap, h.evolving.Confines h.size r fun _ _ => True) :
    Stays Evolves (runOut r) := by
  intro e result e' h
  obtain ⟨out, heap, hrun, -, rfl⟩ := runOut_ok h
  obtain ⟨he, -, -⟩ := hr e.heap e.heap (.refl _) (le_refl _) out heap hrun
  exact he.trans (.of_extends (.setRefs heap _ _))

theorem evolves_applyFunction (function : Ref) (args : List Ref) : Stays Evolves (applyFunction function args) := by
  intro e result e' h
  rw [applyFunction_eq] at h
  refine evolves_runOut (fun heap => ?_) { e with calls := e.calls + 1 } result e' h
  exact Region.admits_callWithin heap.evolving e.depth heap.size _ _ fun _ _ => trivial

theorem evolves_writeProperty (object : Ref) (name : String) (value : Ref) :
    Stays Evolves (writeProperty object name value) := by
  intro e result e' h
  rcases writeProperty_ok h with ⟨properties, ho, -, rfl⟩ | ⟨_, -, hq⟩
  · exact .write name ho
  · exact .of_extends hq.heap

end Engine

end ScriptHost
