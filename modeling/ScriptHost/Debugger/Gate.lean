/-
The gate between a debugger client and the host. The host asks for source and waits until the wire
delivers or closes; one request at a time waits, and a second one is refused before the wire is
touched.
-/
import ScriptHost.Debugger.Session
import ScriptHost.Debugger.Wire
import ScriptHost.Host.Event

namespace ScriptHost.Debugger

structure Gate where
  state : SlotState
  wire : Wire

/-- A request that was made while another one waited: its outcome, and the gate right after it. -/
structure Reentry where
  outcome : Except HostError Source
  state : SlotState
  stops : Nat

structure Waited where
  outcome : Except HostError Source
  gate : Gate
  events : List Event
  reentries : List Reentry

/-- A wait between two actions of the wire. -/
structure Waiting where
  gate : Gate
  received : Option Source
  events : List Event
  reentries : List Reentry

namespace Waiting

/-- One action of the wire. The latest delivery counts. -/
def act (again : Gate → Waited) (w : Waiting) : Action → Waiting
  | .deliver d => { w with received := some d.received }
  | .reenter =>
    let inner := again w.gate
    { w with
      gate := inner.gate
      events := w.events ++ inner.events
      reentries := w.reentries ++ inner.reentries
        ++ [⟨inner.outcome, inner.gate.state, inner.gate.wire.stops⟩] }

def finish (w : Waiting) (how : SessionEnd) (outcome : Except HostError Source)
    (events : List Event) : Waited :=
  ⟨outcome, { w.gate with state := how.state }, w.events ++ events, w.reentries⟩

/-- The end of the turn. A turn that succeeds has delivered something. -/
def conclude (w : Waiting) (ending : Ending) : Waited :=
  let lost : Waited := w.finish .close (.error .connectionClosed)
    [⟨.warn, "debugger connection closed while waiting for source", []⟩]
  match ending with
  | .breakdown text => w.finish .abandon (.error (.wireFailure text)) []
  | .closed => lost
  | .received =>
    match w.received with
    | none => lost
    | some source => w.finish .resolve (.ok source)
        [⟨.debug, "received debugger source",
          [("resource", source.name), ("len", toString source.source.length)]⟩]

end Waiting

namespace Gate

def new (wire : Wire) : Gate := ⟨.idle, wire⟩

/-- Asks the program to stop, without waiting for anything. -/
def stop (g : Gate) : Gate := { g with wire := g.wire.stop }

/-- Whether a request would wait until a client does something. -/
def wouldBlock (g : Gate) : Bool := g.state ≠ .waiting && g.wire.take?.isNone

/-- A request for source, with up to `depth` requests waiting inside each other. -/
def waitWithin : Nat → Gate → Waited
  | depth, g =>
    match g.state.begin with
    | .error e => ⟨.error e, g, [], []⟩
    | .ok state =>
      let g := { g with state := state }.stop
      let (turn, wire) := g.wire.take?.getD (.silent, g.wire)
      let begun : Waiting := ⟨{ g with wire := wire }, none, [], []⟩
      match turn.stopBreakdown, depth with
      | some text, _ => begun.conclude (.breakdown text)
      | none, 0 => begun.conclude .closed
      | none, depth + 1 =>
        let begun := { begun with
          events := [⟨.debug, "waiting for debugger client source", []⟩] }
        (turn.actions.foldl (Waiting.act (waitWithin depth)) begun).conclude turn.ending

/-- A request for source, to be made where it would not block. Requests inside it are refused before
they wait, so none of them waits inside another. -/
def wait (g : Gate) : Waited := waitWithin 1 g

end Gate

end ScriptHost.Debugger
