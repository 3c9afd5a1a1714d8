/-
The slot of a debugger session. A session that begins takes the slot, and when it ends it leaves
there how it ended; nobody begins while the slot is taken.
-/
import ScriptHost.Error

namespace ScriptHost.Debugger

inductive SlotState where
  /-- Nobody has asked for source yet. -/
  | idle
  /-- A session holds the slot. -/
  | waiting
  /-- The latest session got its source. -/
  | resolved
  /-- The latest session ended without source. -/
  | closed
  deriving Repr, DecidableEq

namespace SlotState

def begin : SlotState → Except HostError SlotState
  | .waiting => .error .alreadyWaiting
  | _ => .ok .waiting

end SlotState

/-- How a session ends. One that is abandoned counts as closed. -/
inductive SessionEnd where
  | resolve
  | close
  | abandon
  deriving Repr, DecidableEq

def SessionEnd.state : SessionEnd → SlotState
  | .resolve => .resolved
  | .close => .closed
  | .abandon => .closed

/-! ## Sessions by name -/

/-- A slot and the names of sessions that have not ended. -/
structure Sessions where
  slot : SlotState
  names : List String
  deriving Repr, DecidableEq

namespace Sessions

/-- The end of a session; `none` where there is no session of that name. -/
def finish (s : Sessions) (name : String) (how : SessionEnd) : Option Sessions :=
  if name ∈ s.names then some ⟨how.state, s.names.filter (· ≠ name)⟩ else none

/-- Begins a session under a name. An older session of that name is abandoned afterwards. -/
def begin (s : Sessions) (name : String) : Except HostError Sessions := do
  let state ← s.slot.begin
  let older := ({ s with slot := state }.finish name .abandon).getD { s with slot := state }
  return { older with names := name :: older.names }

end Sessions

end ScriptHost.Debugger
