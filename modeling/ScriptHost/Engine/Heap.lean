/-
The heap: cells in the order of their allocation. A cell never goes away; besides its payload it
counts the references that the host holds on it.
-/
import ScriptHost.Engine.Value

namespace ScriptHost

structure Cell where
  payload : Payload
  /-- References held by the host. -/
  refs : Nat

structure Heap where
  cells : Array Cell

namespace Heap

def empty : Heap := ⟨#[]⟩

def size (h : Heap) : Nat := h.cells.size

def payload (h : Heap) (slot : Slot) : Payload :=
  match h.cells[slot]? with
  | some cell => cell.payload
  | none => .undefined

/-- The references that the host holds on a value. -/
def refs (h : Heap) (slot : Slot) : Nat :=
  match h.cells[slot]? with
  | some cell => cell.refs
  | none => 0

def heldRefs (h : Heap) : Nat := h.cells.toList.foldr (fun cell n => cell.refs + n) 0

/-- A further cell, whose slot is the old size. -/
def push (h : Heap) (payload : Payload) : Heap := ⟨h.cells.push ⟨payload, 0⟩⟩

def setPayload (h : Heap) (slot : Slot) (payload : Payload) : Heap :=
  ⟨h.cells.modify slot fun cell => { cell with payload := payload }⟩

def setRefs (h : Heap) (slot : Slot) (refs : Nat) : Heap :=
  ⟨h.cells.modify slot fun cell => { cell with refs := refs }⟩

def text? (h : Heap) (slot : Slot) : Option String :=
  match h.payload slot with
  | .text value => some value
  | _ => none

def number? (h : Heap) (slot : Slot) : Option Float :=
  match h.payload slot with
  | .number value => some value
  | _ => none

/-- The properties of an object; any other value has none. -/
def properties (h : Heap) (slot : Slot) : Table Slot :=
  match h.payload slot with
  | .object properties => properties
  | _ => .empty

def follow (h : Heap) : Slot → List String → Option Slot
  | slot, [] => some slot
  | slot, name :: names => ((h.properties slot).get? name).bind fun next => h.follow next names

end Heap

end ScriptHost
