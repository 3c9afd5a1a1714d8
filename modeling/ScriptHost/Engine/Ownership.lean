/-
Named owners of references. An owner gives its reference back when it is dropped or gets another one.
A reference can be taken out of its owner; it is raw then, and nobody gives it back unless told to.
-/
import ScriptHost.Engine.Basic

namespace ScriptHost

structure Owners where
  owned : Table Ref
  raw : Table Ref

abbrev OwnersM := StateT Owners EngineM

namespace Owners

def empty : Owners := ⟨.empty, .empty⟩

/-- Gives an owner a reference, and then gives back the one that it had. -/
def keep (name : String) (ref : Ref) : OwnersM Unit := do
  let old := (← get).owned.get? name
  modify fun s => { s with owned := s.owned.insert name ref }
  if let some old := old then Engine.release old

def takeOwned (name : String) : OwnersM (Option Ref) := do
  let found := (← get).owned.get? name
  modify fun s => { s with owned := s.owned.erase name }
  return found

def takeRaw (name : String) : OwnersM (Option Ref) := do
  let found := (← get).raw.get? name
  modify fun s => { s with raw := s.raw.erase name }
  return found

def create (name : String) (payload : Payload) : OwnersM Unit := do
  keep name (← Engine.create payload)

/-- Makes an owner of a second reference; tells whether there was a first. -/
def duplicate (name source : String) : OwnersM Bool := do
  match (← get).owned.get? source with
  | some ref =>
    keep name (← Engine.acquire ref)
    return true
  | none => return false

def rewrap (name source : String) : OwnersM Bool := do
  match ← takeRaw source with
  | some ref =>
    keep name ref
    return true
  | none => return false

/-- Makes an owner of what a program returns or throws; tells whether it returned. -/
def adopt (name : String) (program : Bytes) : OwnersM Bool := do
  match ← Engine.runSource program with
  | .ok ref =>
    keep name ref
    return true
  | .error ref =>
    keep name ref
    return false

/-- Makes the reference of an owner raw; tells whether there was an owner. A raw reference of that name
is forgotten, and stays held. -/
def unwrap (name : String) : OwnersM Bool := do
  match ← takeOwned name with
  | some ref =>
    modify fun s => { s with raw := s.raw.insert name ref }
    return true
  | none => return false

def release (name : String) : OwnersM Bool := do
  match ← takeRaw name with
  | some ref =>
    Engine.release ref
    return true
  | none => return false

def drop (name : String) : OwnersM Bool := do
  match ← takeOwned name with
  | some ref =>
    Engine.release ref
    return true
  | none => return false

/-- Drops every owner. Raw references stay held. -/
def dropAll : OwnersM Unit := do
  let owned := (← get).owned
  modify fun s => { s with owned := .empty }
  owned.rows.forM fun row => Engine.release row.2

def debug (ref : Ref) : String := "Owned(Handle(" ++ toString ref.slot ++ "))"

end Owners

end ScriptHost
