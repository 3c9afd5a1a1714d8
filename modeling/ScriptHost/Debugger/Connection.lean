/-
Both ends of a debugger connection: the gate of the host, as long as it is there, and the clients on
the other end of its wire. Dropping the gate drops the receiving end, and what is sent after that is
refused.
-/
import ScriptHost.Debugger.Gate

namespace ScriptHost.Debugger

structure Connection where
  /-- The gate, unless it was dropped. -/
  gate : Option Gate
  /-- The wire of a gate that was dropped. -/
  left : Wire

namespace Connection

def new (wire : Wire) : Connection := ⟨some (.new wire), wire⟩

def wire (c : Connection) : Wire :=
  match c.gate with
  | some gate => gate.wire
  | none => c.left

def setWire (c : Connection) (wire : Wire) : Connection :=
  match c.gate with
  | some gate => { c with gate := some { gate with wire := wire } }
  | none => { c with left := wire }

/-! ## The side of the clients -/

def clients (c : Connection) : Nat :=
  match c.wire.channel? with
  | some channel => channel.clients
  | none => 0

/-- The requests to stop, as far as somebody can see them: those on a channel are seen by clients. -/
def visibleStops (c : Connection) : Option Nat :=
  if c.wire.channel?.isSome && c.clients = 0 then none else some c.wire.stops

/-- Sends source through a client; `none` where there is no client. -/
def send (c : Connection) (d : Delivery) : Option (Except HostError Connection) :=
  match c.wire.channel? with
  | none => none
  | some channel =>
    if channel.clients = 0 then none
    else some ((channel.send d).map fun channel => c.setWire (.channel channel))

def cloneClient (c : Connection) : Connection := c.setWire (c.wire.mapChannel Channel.cloneClient)

def dropClient (c : Connection) : Connection := c.setWire (c.wire.mapChannel Channel.dropClient)

/-! ## The side of the host -/

def stop (c : Connection) : Connection := { c with gate := c.gate.map Gate.stop }

def wait (c : Connection) : Option (Waited × Connection) :=
  c.gate.map fun gate => (gate.wait, { c with gate := some gate.wait.gate })

def dropGate (c : Connection) : Connection :=
  match c.gate with
  | some gate => ⟨none, gate.wire.abandon⟩
  | none => c

end Connection

end ScriptHost.Debugger
