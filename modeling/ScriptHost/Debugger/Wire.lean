/-
What a debugger gate waits on. A wire can be asked to stop the program that is debugged, and each
wait takes one turn of it: source may be delivered any number of times, somebody may ask the gate
again meanwhile, and in the end the turn succeeds, closes or breaks down. A channel is the wire inside
one process: a queue that clients fill.
-/
import ScriptHost.Error
import ScriptHost.Text.Utf8

namespace ScriptHost.Debugger

/-- Source as a client sends it. -/
structure Delivery where
  name : Bytes
  source : Bytes
  deriving Repr, DecidableEq

/-- Source as the host takes it. -/
structure Source where
  name : String
  source : Bytes
  deriving Repr, DecidableEq

/-- What cannot be read of the name is replaced. -/
def Delivery.received (d : Delivery) : Source := ⟨Text.decodeLossy d.name, d.source⟩

/-! ## Turns -/

inductive Action where
  | deliver (d : Delivery)
  /-- The gate is asked for source from inside the turn. -/
  | reenter
  deriving Repr, DecidableEq

inductive Ending where
  | received
  | closed
  | breakdown (text : String)
  deriving Repr, DecidableEq

/-- How a wire behaves during one wait. -/
structure Turn where
  /-- The wire breaks down already when it is asked to stop the program. -/
  stopBreakdown : Option String
  actions : List Action
  ending : Ending
  deriving Repr, DecidableEq

def Turn.silent : Turn := ⟨none, [], .closed⟩

/-! ## Channels -/

structure Channel where
  /-- What has been sent and not yet taken, the oldest first. -/
  queue : List Delivery
  /-- Clients that can still send. -/
  clients : Nat
  /-- Requests to stop. -/
  stops : Nat
  /-- Whether somebody can still take what is sent. -/
  receiving : Bool
  deriving Repr, DecidableEq

namespace Channel

def new : Channel := ⟨[], 1, 0, true⟩

def send (c : Channel) (d : Delivery) : Except HostError Channel :=
  if c.receiving then .ok { c with queue := c.queue ++ [d] } else .error .connectionClosed

/-- One more client; only a client can be copied. -/
def cloneClient (c : Channel) : Channel :=
  if c.clients = 0 then c else { c with clients := c.clients + 1 }

def dropClient (c : Channel) : Channel := { c with clients := c.clients - 1 }

/-- The turn that a wait takes. Nothing is taken while the queue is empty and a client could send. -/
def take? (c : Channel) : Option (Turn × Channel) :=
  match c.queue with
  | d :: rest => some (⟨none, [.deliver d], .received⟩, { c with queue := rest })
  | [] => if c.clients = 0 then some (.silent, c) else none

end Channel

/-! ## Wires -/

inductive Wire where
  /-- The turns to come, and the requests to stop. After the last turn the wire is silent. -/
  | scripted (turns : List Turn) (stops : Nat)
  | channel (c : Channel)

namespace Wire

def stop : Wire → Wire
  | .scripted turns stops => .scripted turns (stops + 1)
  | .channel c => .channel { c with stops := c.stops + 1 }

def stops : Wire → Nat
  | .scripted _ stops => stops
  | .channel c => c.stops

/-- The next turn; `none` where a wait would block. -/
def take? : Wire → Option (Turn × Wire)
  | .scripted [] stops => some (.silent, .scripted [] stops)
  | .scripted (turn :: turns) stops => some (turn, .scripted turns stops)
  | .channel c => c.take?.map fun taken => (taken.1, .channel taken.2)

/-- The wire when nobody waits on it any more. -/
def abandon : Wire → Wire
  | .scripted turns stops => .scripted turns stops
  | .channel c => .channel { c with receiving := false }

def mapChannel (w : Wire) (change : Channel → Channel) : Wire :=
  match w with
  | .channel c => .channel (change c)
  | w => w

def channel? : Wire → Option Channel
  | .channel c => some c
  | .scripted _ _ => none

end Wire

end ScriptHost.Debugger
