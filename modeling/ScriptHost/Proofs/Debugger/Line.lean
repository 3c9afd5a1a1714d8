/-
A debugger connection inside one process, as clients and the host use it at the same time. Clients send,
are copied and dropped; requests for source are made of the gate, each cut at every place where somebody
else may come in between; the program is stopped, and the gate is dropped.

Each caller makes one request. What was accepted, who was served and who took the slot is written down
beside the connection. Main results: what a step of a request comes to (`Line.Asked`, `Line.Received`), and
the gate is there until it is dropped.
-/
import ScriptHost.Debugger.Connection
import ScriptHost.Proofs.Debugger.Interleaving

namespace ScriptHost.Debugger

/-- What a wait brings to the request when it comes back with a turn. -/
def Turn.moves (turn : Turn) : List Move :=
  turn.actions.filterMap delivery? ++ [.leave turn.ending]
where
  delivery? : Action → Option Move
    | .deliver d => some (.deliver d)
    | .reenter => none

namespace Point

/-- What the request is bound to return. -/
def outcome? : Point → Option (Except HostError Source)
  | .ending _ outcome => some outcome
  | .written outcome => some outcome
  | .dropping _ outcome => some outcome
  | .returned outcome => some outcome
  | _ => none

/-- What the wait of the request came back with. -/
def source? (p : Point) : Option Source :=
  match p.outcome? with
  | some (.ok source) => some source
  | _ => none

theorem outcome?_of_source? {p : Point} {source : Source} (h : p.source? = some source) :
    p.outcome? = some (.ok source) := by
  unfold source? at h
  split at h
  · rename_i ho
    cases h
    exact ho
  · cases h

end Point

namespace Connection

@[simp] theorem wire_setWire (c : Connection) (w : Wire) : (c.setWire w).wire = w := by
  unfold setWire wire
  cases c.gate <;> rfl

theorem gate_setWire (c : Connection) (w : Wire) :
    (c.setWire w).gate = c.gate.map fun gate => { gate with wire := w } := by
  unfold setWire
  cases c.gate <;> rfl

/-- The wire of a gate is that of its connection. -/
theorem wire_of_gate {c : Connection} {gate : Gate} (h : c.gate = some gate) : c.wire = gate.wire := by
  unfold wire
  rw [h]

theorem send_eq {c : Connection} {channel : Channel} (h : c.wire = .channel channel) (d : Delivery) :
    c.send d = if channel.clients = 0 then none
      else some ((channel.send d).map fun channel => c.setWire (.channel channel)) := by
  unfold send
  rw [h]
  rfl

theorem stop_eq {c : Connection} {gate : Gate} {channel : Channel} (hg : c.gate = some gate)
    (h : c.wire = .channel channel) : c.stop = c.setWire (.channel { channel with stops := channel.stops + 1 }) := by
  rw [wire_of_gate hg] at h
  unfold stop setWire
  rw [hg]
  simp only [Option.map_some, Gate.stop, h]
  rfl

theorem gate_setWire_eq_none (c : Connection) (w : Wire) : (c.setWire w).gate = none ↔ c.gate = none := by
  rw [gate_setWire, Option.map_eq_none_iff]

theorem gate_of_send {c c' : Connection} {d : Delivery} (h : c.send d = some (.ok c')) :
    c'.gate = none ↔ c.gate = none := by
  unfold send at h
  split at h
  · cases h
  · split at h
    · cases h
    · unfold Channel.send at h
      split at h
      · cases h
        exact gate_setWire_eq_none ..
      · cases h

theorem gate_dropGate (c : Connection) : c.dropGate.gate = none := by
  unfold dropGate
  cases hg : c.gate with
  | none => exact hg
  | some _ => rfl

end Connection

/-- A connection in use. -/
structure Line where
  connection : Connection
  callers : Nat → Point
  /-- What was sent and accepted, in order. -/
  accepted : List Source
  /-- What waits came back with, in order, and whose. -/
  served : List (Nat × Source)
  /-- The callers that took the slot, in order. -/
  sessions : List Nat
  /-- How often the program was asked to stop apart from requests. -/
  stopCalls : Nat

namespace Line

/-- Steps of a request that do not depend on what was sent. -/
inductive Phase where
  | begin
  | stop
  | enter
  | write
  | mark
  | drop
  deriving Repr, DecidableEq

def Phase.move : Phase → Move
  | .begin => .begin
  | .stop => .stop none
  | .enter => .enter
  | .write => .write
  | .mark => .mark
  | .drop => .drop

inductive Act where
  | send (name : String) (source : Bytes)
  | cloneClient
  | dropClient
  | stopDebuggee
  /-- Whoever is under way then stays where it is. -/
  | dropGate
  | ask (caller : Nat) (phase : Phase)
  /-- The wait of a caller comes back. -/
  | receive (caller : Nat)
  deriving Repr, DecidableEq

/-- A new connection that nobody has used. -/
def start : Line := ⟨.new (.channel .new), fun _ => .outside, [], [], [], 0⟩

def send (l : Line) (name : String) (source : Bytes) : Option Line :=
  (l.connection.send ⟨Text.encode name, source⟩).map fun sent =>
    match sent with
    | .ok connection => { l with connection := connection, accepted := l.accepted ++ [⟨name, source⟩] }
    | .error _ => l

def ask (l : Line) (caller : Nat) (phase : Phase) : Option Line := do
  let gate ← l.connection.gate
  let (p, slot) ← (l.callers caller).advance gate.state phase.move
  let gate : Gate := { gate with state := slot }
  return { l with
    connection := { l.connection with gate := some (if phase = .stop then gate.stop else gate) }
    callers := Function.update l.callers caller p
    sessions := if phase = .begin ∧ p.holds = true then l.sessions ++ [caller] else l.sessions }

def receive (l : Line) (caller : Nat) : Option Line := do
  let gate ← l.connection.gate
  let (turn, wire) ← gate.wire.take?
  let (p, slot) ← Point.advanceAll gate.state (l.callers caller) turn.moves
  return { l with
    connection := { l.connection with gate := some ⟨slot, wire⟩ }
    callers := Function.update l.callers caller p
    served := l.served ++ p.source?.toList.map (caller, ·) }

/-- One step; `none` where it cannot be made. -/
def step (l : Line) : Act → Option Line
  | .send name source => l.send name source
  | .cloneClient => some { l with connection := l.connection.cloneClient }
  | .dropClient => some { l with connection := l.connection.dropClient }
  | .stopDebuggee => l.connection.gate.map fun _ =>
    { l with connection := l.connection.stop, stopCalls := l.stopCalls + 1 }
  | .dropGate => some { l with connection := l.connection.dropGate }
  | .ask caller phase => l.ask caller phase
  | .receive caller => l.receive caller

/-- An interleaving of everybody's steps. -/
def run : Line → List Act → Option Line
  | l, [] => some l
  | l, act :: rest => (l.step act).bind fun l => l.run rest

/-! ## What requests come to -/

/-- The caller has taken the slot and its wait has not come back. -/
def Pending (p : Point) : Prop := p.holds = true ∧ p.outcome? = none

variable {l l' : Line} {channel channel' : Channel}

/-- What a step of a request comes to that does not depend on what was sent. -/
inductive Asked (slot : SlotState) : Phase → Point → Point → SlotState → Prop where
  | taken : slot ≠ .waiting → Asked slot .begin .outside .begun .waiting
  | refused : slot = .waiting → Asked slot .begin .outside (.returned (.error .alreadyWaiting)) slot
  | stopped : Asked slot .stop .begun .stopped slot
  | entered : Asked slot .enter .stopped (.waiting none) slot
  | written {how : SessionEnd} {outcome : Except HostError Source} :
      Asked slot .write (.ending how outcome) (.written outcome) how.state
  | marked {outcome : Except HostError Source} : Asked slot .mark (.written outcome) (.dropping true outcome) slot
  | dropped {finished : Bool} {outcome : Except HostError Source} {slot' : SlotState} :
      Asked slot .drop (.dropping finished outcome) (.returned outcome) slot'

theorem asked_of_advance {slot slot' : SlotState} {p p' : Point} {phase : Phase}
    (h : p.advance slot phase.move = some (p', slot')) : Asked slot phase p p' slot' := by
  cases phase with
  | begin =>
    cases p with
    | outside =>
      cases slot <;> cases h <;> first | exact .taken (by decide) | exact .refused rfl
    | _ => cases h
  | stop => cases p <;> cases h; exact .stopped
  | enter => cases p <;> cases h; exact .entered
  | write => cases p <;> cases h; exact .written
  | mark => cases p <;> cases h; exact .marked
  | drop => cases p <;> cases h; exact .dropped

namespace Asked

variable {slot slot' : SlotState} {phase : Phase} {p p' : Point} {o : Except HostError Source}

theorem outcome (h : Asked slot phase p p' slot') (ho : p.outcome? = some o) : p'.outcome? = some o := by
  cases h <;> first | exact ho | cases ho

theorem outcome_back (h : Asked slot phase p p' slot') (ho : p'.outcome? = some o) :
    p.outcome? = some o ∨ o = .error .alreadyWaiting := by
  cases h with
  | refused => cases ho; exact .inr rfl
  | _ => exact .inl ho

theorem empty (h : Asked slot phase p p' slot') {received : Option Source} (hp : p' = .waiting received) :
    received = none := by
  cases h <;> cases hp
  rfl

theorem ne_outside (h : Asked slot phase p p' slot') : p' ≠ .outside := by
  cases h <;> exact fun hp => by cases hp

/-- Whoever takes the slot found it free. -/
theorem begins (h : Asked slot phase p p' slot') (hb : phase = .begin ∧ p'.holds = true) :
    p = .outside ∧ slot ≠ .waiting ∧ p' = .begun := by
  cases h with
  | taken hs => exact ⟨rfl, hs, rfl⟩
  | refused => cases hb.2
  | _ => cases hb.1

/-- Whoever waits on after the step waited before it, or has just taken the slot. -/
theorem pending (h : Asked slot phase p p' slot') (hp : Pending p') :
    (phase = .begin ∧ p'.holds = true) ∨ Pending p := by
  cases h with
  | taken => exact .inl ⟨rfl, rfl⟩
  | stopped => exact .inr ⟨rfl, rfl⟩
  | entered => exact .inr ⟨rfl, rfl⟩
  | _ => cases hp.2

end Asked

/-- The line after a step of the request of one caller, which leaves the gate like this. -/
def asked (l : Line) (gate : Gate) (phase : Phase) (caller : Nat) (p : Point) : Line :=
  { l with
    connection := { l.connection with gate := some gate }
    callers := Function.update l.callers caller p
    sessions := if phase = .begin ∧ p.holds = true then l.sessions ++ [caller] else l.sessions }

/-- How a step of a request is made. -/
theorem ask_ok {caller : Nat} {phase : Phase} (h : l.ask caller phase = some l') : ∃ gate p slot,
    l.connection.gate = some gate ∧ (l.callers caller).advance gate.state phase.move = some (p, slot) ∧
    l' = l.asked (if phase = .stop then Gate.stop { gate with state := slot } else { gate with state := slot })
      phase caller p := by
  obtain ⟨gate, hg, h⟩ := Option.bind_eq_some_iff.1 h
  obtain ⟨⟨p, slot⟩, ha, h⟩ := Option.bind_eq_some_iff.1 h
  cases h
  exact ⟨gate, p, slot, hg, ha, rfl⟩

/-- What a wait on the channel comes back with: the oldest delivery, or nothing where nobody can send. -/
inductive Received (channel : Channel) : Point → Point → Channel → Prop where
  | taken {d : Delivery} {rest : List Delivery} {received : Option Source} : channel.queue = d :: rest →
      Received channel (.waiting received) (.ending .resolve (.ok d.received)) { channel with queue := rest }
  | closed {received : Option Source} : channel.queue = [] → channel.clients = 0 →
      Received channel (.waiting received) (.ending .close (.error .connectionClosed)) channel

/-- The line after the wait of a caller came back, with the channel that it left. -/
def answered (l : Line) (slot : SlotState) (channel : Channel) (caller : Nat) (p : Point) : Line :=
  { l with
    connection := { l.connection with gate := some ⟨slot, .channel channel⟩ }
    callers := Function.update l.callers caller p
    served := l.served ++ p.source?.toList.map (caller, ·) }

theorem receive_ok {caller : Nat} (hw : l.connection.wire = .channel channel) (h : l.receive caller = some l') :
    ∃ gate p channel', l.connection.gate = some gate ∧ Received channel (l.callers caller) p channel' ∧
    l' = l.answered gate.state channel' caller p := by
  obtain ⟨gate, hg, h⟩ := Option.bind_eq_some_iff.1 h
  obtain ⟨⟨turn, wire⟩, htake, h⟩ := Option.bind_eq_some_iff.1 h
  obtain ⟨⟨p, slot⟩, ha, h⟩ := Option.bind_eq_some_iff.1 h
  cases h
  rw [Connection.wire_of_gate hg] at hw
  rw [hw] at htake
  obtain ⟨⟨turn', channel'⟩, hchannel, he⟩ := Option.map_eq_some_iff.1 htake
  cases he
  refine ⟨gate, p, channel', hg, ?_⟩
  -- the channel is open, so a turn is a delivery or the news that nobody can send
  unfold Channel.take? at hchannel
  generalize l.callers caller = before at ha
  split at hchannel
  · rename_i d rest hqueue
    cases hchannel
    cases before <;> cases ha
    exact ⟨.taken hqueue, rfl⟩
  · rename_i hqueue
    split at hchannel
    · rename_i hclients
      cases hchannel
      cases before <;> cases ha
      exact ⟨.closed hqueue hclients, rfl⟩
    · cases hchannel

namespace Received

variable {p p' : Point} {o : Except HostError Source}

theorem waiting (h : Received channel p p' channel') : ∃ received, p = .waiting received := by
  cases h <;> exact ⟨_, rfl⟩

theorem pending (h : Received channel p p' channel') : Pending p := by
  cases h <;> exact ⟨rfl, rfl⟩

/-- The request is bound to return something now. -/
theorem outcome_ne (h : Received channel p p' channel') : p'.outcome? ≠ none := by
  cases h <;> exact fun hn => by cases hn

theorem holds (h : Received channel p p' channel') : p'.holds = p.holds := by
  cases h <;> rfl

theorem rest (h : Received channel p p' channel') : channel'.clients = channel.clients ∧
    channel'.receiving = channel.receiving ∧ channel'.stops = channel.stops := by
  cases h <;> exact ⟨rfl, rfl, rfl⟩

/-- What is taken from the queue is what the request gets. -/
theorem queue (h : Received channel p p' channel') :
    channel.queue.map Delivery.received = p'.source?.toList ++ channel'.queue.map Delivery.received := by
  cases h with
  | taken hq => rw [hq]; rfl
  | closed hq => rw [hq]; rfl

/-- Nothing can be taken where nothing is queued. -/
theorem queue_nil (h : Received channel p p' channel') (hq : channel.queue = []) : channel'.queue = [] := by
  have := h.queue
  rw [hq, List.map_nil] at this
  exact List.map_eq_nil_iff.1 (List.append_eq_nil_iff.1 this.symm).2

/-- The request got a source, or nothing more can come. -/
theorem source_or_closed (h : Received channel p p' channel') (ho : p'.outcome? = some o) :
    (∃ source, o = .ok source ∧ p'.source? = some source) ∨
      (o = .error .connectionClosed ∧ channel'.queue = [] ∧ channel'.clients = 0) := by
  cases h with
  | taken => cases ho; exact .inl ⟨_, rfl, rfl⟩
  | closed hq hc => cases ho; exact .inr ⟨rfl, hq, hc⟩

end Received

/-! ## The gate -/

theorem step_gate {act : Act} (h : l.step act = some l') :
    l'.connection.gate = none ↔ act = .dropGate ∨ l.connection.gate = none := by
  cases act with
  | send name source =>
    obtain ⟨sent, hsent, rfl⟩ := Option.map_eq_some_iff.1 h
    cases sent with
    | error => simp
    | ok connection => simp [Connection.gate_of_send hsent]
  | cloneClient => cases h; simp [Connection.cloneClient, Connection.gate_setWire_eq_none]
  | dropClient => cases h; simp [Connection.dropClient, Connection.gate_setWire_eq_none]
  | stopDebuggee =>
    obtain ⟨gate, hg, rfl⟩ := Option.map_eq_some_iff.1 h
    simp [Connection.stop]
  | dropGate => cases h; simp [Connection.gate_dropGate]
  | ask caller phase =>
    obtain ⟨gate, p, slot, hg, -, rfl⟩ := ask_ok h
    simp [asked, hg]
  | receive caller =>
    obtain ⟨gate, hg, h⟩ := Option.bind_eq_some_iff.1 h
    obtain ⟨_, -, h⟩ := Option.bind_eq_some_iff.1 h
    obtain ⟨_, -, h⟩ := Option.bind_eq_some_iff.1 h
    cases h
    simp [hg]

/-- The gate is there until it is dropped, and not after that. -/
theorem run_gate : ∀ (acts : List Act) {l l' : Line}, l.run acts = some l' →
    (l'.connection.gate = none ↔ .dropGate ∈ acts ∨ l.connection.gate = none)
  | [], _, _, h => by
    cases h
    simp
  | act :: rest, _, _, h => by
    obtain ⟨l₁, hact, h⟩ := Option.bind_eq_some_iff.1 h
    rw [run_gate rest h, step_gate hact, List.mem_cons, or_left_comm, or_assoc, eq_comm]

end Line

end ScriptHost.Debugger
