/-
What a line delivers. Whatever the interleaving, what clients sent and the gate accepted is what requests
are given, in the order in which they took the slot, followed by what is still queued: nothing is lost,
nothing is delivered twice, and no two sources change places. A request that nobody disturbs comes to
what `Connection.wait` comes to.
-/
import ScriptHost.Proofs.Debugger.Orderly

namespace ScriptHost.Debugger.Line

variable {l l' : Line} {channel channel' : Channel}

/-! ## A whole request -/

/-- The steps of a request that nobody disturbs. -/
def request (caller : Nat) : List Act :=
  [.ask caller .begin, .ask caller .stop, .ask caller .enter, .receive caller, .ask caller .write,
    .ask caller .mark, .ask caller .drop]

theorem exists_ask (phase : Phase) (slot : SlotState) {gate : Gate} {caller : Nat} {p : Point}
    (hg : l.connection.gate = some gate)
    (ha : (l.callers caller).advance gate.state phase.move = some (p, slot)) : ∃ l', l.ask caller phase = some l' ∧
      l'.connection = { l.connection with
        gate := some (if phase = .stop then Gate.stop { gate with state := slot } else { gate with state := slot }) } ∧
      l'.callers caller = p := by
  unfold ask
  rw [hg, Option.bind_eq_bind, Option.bind_some, ha]
  exact ⟨_, rfl, rfl, Function.update_self ..⟩

theorem exists_receive {gate : Gate} {caller : Nat} {turn : Turn} {wire : Wire} {p : Point} {slot : SlotState}
    (hg : l.connection.gate = some gate) (ht : gate.wire.take? = some (turn, wire))
    (ha : Point.advanceAll gate.state (l.callers caller) turn.moves = some (p, slot)) :
    ∃ l', l.receive caller = some l' ∧ l'.connection = { l.connection with gate := some ⟨slot, wire⟩ } ∧
      l'.callers caller = p := by
  unfold receive
  rw [hg, Option.bind_eq_bind, Option.bind_some, ht, Option.bind_eq_bind, Option.bind_some]
  simp only [ha]
  exact ⟨_, rfl, rfl, Function.update_self ..⟩

/-- A request that finds the slot free and has not to wait does in steps what the connection does in one go. -/
theorem run_request {gate : Gate} {caller : Nat} (hg : l.connection.gate = some gate)
    (hfree : gate.state ≠ .waiting) (hi : l.callers caller = .outside) {turn : Turn} {wire : Wire}
    (ht : gate.wire.stop.take? = some (turn, wire)) (hbreak : turn.stopBreakdown = none) {how : SessionEnd}
    (hend : Point.advanceAll .waiting (.waiting none) turn.moves =
      some (.ending how (Gate.verdict (lastDelivered none turn.actions) turn.ending).2, .waiting))
    (hhow : (Gate.verdict (lastDelivered none turn.actions) turn.ending).1 = how) :
    ∃ l', l.run (request caller) = some l' ∧ l.connection.wait = some (gate.wait, l'.connection) ∧
      l'.callers caller = .returned gate.wait.outcome := by
  obtain ⟨hout, hgate⟩ := Gate.wait_eq hfree
  have htaken : gate.taken = (turn, wire) := by rw [Gate.taken, ht]; rfl
  rw [htaken] at hout hgate
  unfold Gate.Turn.verdict at hout hgate
  simp only [hbreak, hhow] at hout hgate
  have hbegin : (l.callers caller).advance gate.state Phase.begin.move = some (.begun, .waiting) := by
    rw [hi, Phase.move, Point.advance, SlotState.begin_of_ne hfree]
  -- one step after the other, each on the gate and the point that the one before left
  obtain ⟨l₁, h₁, hc₁, hp₁⟩ := exists_ask .begin .waiting hg hbegin
  obtain ⟨l₂, h₂, hc₂, hp₂⟩ := exists_ask (l := l₁) (p := .stopped) .stop .waiting (by rw [hc₁]) (by rw [hp₁]; rfl)
  obtain ⟨l₃, h₃, hc₃, hp₃⟩ :=
    exists_ask (l := l₂) (p := .waiting none) .enter .waiting (by rw [hc₂]) (by rw [hp₂]; rfl)
  obtain ⟨l₄, h₄, hc₄, hp₄⟩ := exists_receive (l := l₃) (by rw [hc₃]) ht (by rw [hp₃]; exact hend)
  obtain ⟨l₅, h₅, hc₅, hp₅⟩ := exists_ask (l := l₄) .write how.state (by rw [hc₄]) (by rw [hp₄]; rfl)
  obtain ⟨l₆, h₆, hc₆, hp₆⟩ := exists_ask (l := l₅) .mark how.state (by rw [hc₅]) (by rw [hp₅]; rfl)
  obtain ⟨l₇, h₇, hc₇, hp₇⟩ := exists_ask (l := l₆) .drop how.state (by rw [hc₆]) (by rw [hp₆]; rfl)
  refine ⟨l₇, ?_, ?_, ?_⟩
  · simp only [request, run, step, h₁, h₂, h₃, h₄, h₅, h₆, h₇, Option.bind_some]
  · rw [Connection.wait, hg, Option.map_some, hgate, hc₇, hc₆, hc₅, hc₄, hc₃, hc₂, hc₁]
    rfl
  · rw [hp₇, hout]

/-- The oldest delivery goes to the next request that finds the slot free, whether clients are left or not. -/
theorem Orderly.delivers (ho : l.Orderly channel) {gate : Gate} {caller : Nat} (hg : l.connection.gate = some gate)
    (hfree : gate.state ≠ .waiting) (hi : l.callers caller = .outside) {d : Delivery} {rest : List Delivery}
    (hq : channel.queue = d :: rest) : gate.wait.outcome = .ok d.received ∧
      ∃ l', l.run (request caller) = some l' ∧ l.connection.wait = some (gate.wait, l'.connection) ∧
        l'.callers caller = .returned gate.wait.outcome := by
  have hw := ho.wire
  rw [Connection.wire_of_gate hg] at hw
  have ht : gate.wire.stop.take? = some (⟨none, [.deliver d], .received⟩,
      .channel { channel with stops := channel.stops + 1, queue := rest }) := by
    rw [hw, Wire.stop, Wire.take?, Channel.take?]
    simp only [hq]
    rfl
  refine ⟨?_, run_request hg hfree hi ht rfl rfl rfl⟩
  rw [(Gate.wait_eq hfree).1, Gate.taken, ht]
  rfl

/-- A request that finds the slot free, nothing queued and no client is told so. -/
theorem Orderly.closes (ho : l.Orderly channel) {gate : Gate} {caller : Nat} (hg : l.connection.gate = some gate)
    (hfree : gate.state ≠ .waiting) (hi : l.callers caller = .outside) (hq : channel.queue = [])
    (hc : channel.clients = 0) : gate.wait.outcome = .error .connectionClosed ∧
      ∃ l', l.run (request caller) = some l' ∧ l.connection.wait = some (gate.wait, l'.connection) ∧
        l'.callers caller = .returned gate.wait.outcome := by
  have hw := ho.wire
  rw [Connection.wire_of_gate hg] at hw
  have ht : gate.wire.stop.take? = some (.silent, .channel { channel with stops := channel.stops + 1 }) := by
    rw [hw, Wire.stop, Wire.take?, Channel.take?]
    simp only [hq, hc, if_true, Option.map_some]
  refine ⟨?_, run_request hg hfree hi ht rfl rfl rfl⟩
  rw [(Gate.wait_eq hfree).1, Gate.taken, ht]
  rfl

/-- A wait comes back when there is something to take or nobody can send, and no sooner. -/
theorem Orderly.receive_isSome_iff (ho : l.Orderly channel) {gate : Gate} {caller : Nat} {received : Option Source}
    (hg : l.connection.gate = some gate) (hi : l.callers caller = .waiting received) :
    (l.step (.receive caller)).isSome ↔ channel.queue ≠ [] ∨ channel.clients = 0 := by
  have hw := ho.wire
  rw [Connection.wire_of_gate hg] at hw
  constructor
  · intro h
    obtain ⟨l', h⟩ := Option.isSome_iff_exists.1 h
    obtain ⟨_, _, _, -, hr, -⟩ := receive_ok ho.wire h
    generalize l.callers caller = before at hr
    cases hr with
    | taken hq => exact .inl (by rw [hq]; exact List.cons_ne_nil _ _)
    | closed _ hc => exact .inr hc
  · intro h
    have ht : ∃ turn wire p slot, gate.wire.take? = some (turn, wire) ∧
        Point.advanceAll gate.state (l.callers caller) turn.moves = some (p, slot) := by
      rw [hw, hi, Wire.take?, Channel.take?]
      cases hq : channel.queue with
      | cons d rest => exact ⟨_, _, _, _, rfl, rfl⟩
      | nil => exact ⟨.silent, _, _, _, by rw [if_pos (h.resolve_left fun hne => hne hq)]; rfl, rfl⟩
    obtain ⟨turn, wire, p, slot, ht, ha⟩ := ht
    obtain ⟨l', h', -⟩ := exists_receive hg ht ha
    exact Option.isSome_iff_exists.2 ⟨l', h'⟩

/-! ## The laws of a line -/

/-- What holds at every point of an interleaving. -/
structure Lawful (l : Line) (channel : Channel) : Prop where
  wire : l.connection.wire = .channel channel
  /-- What was accepted is what waits came back with, followed by what is queued, in order and unchanged. -/
  conserved : l.connection.gate.isSome → l.accepted = l.served.map (·.2) ++ channel.queue.map Delivery.received
  /-- What a wait came back with is what its request returns, and requests return nothing else. -/
  returned : ∀ i outcome, l.callers i = .returned outcome →
    (∃ source, outcome = .ok source ∧ (i, source) ∈ l.served) ∨
      outcome = .error .alreadyWaiting ∨ outcome = .error .connectionClosed
  bound : ∀ i source, (i, source) ∈ l.served → (l.callers i).outcome? = some (.ok source)
  /-- Requests are served in the order in which they took the slot, each at most once. -/
  order : (l.served.map (·.1)).Sublist l.sessions ∧ l.sessions.Nodup
  /-- A request that is told of a closed connection is right about it, and nobody is served after it. -/
  closed : ∀ i, l.callers i = .returned (.error .connectionClosed) → channel.queue = [] ∧ channel.clients = 0 ∧
    ∀ acts l', l.run acts = some l' → l'.served = l.served
  /-- A wait comes back as soon as something is queued, and otherwise only when nobody can send. -/
  waits : ∀ gate i received, l.connection.gate = some gate → l.callers i = .waiting received →
    ((l.step (.receive i)).isSome ↔ channel.queue ≠ [] ∨ channel.clients = 0)
  /-- What is queued is delivered to the next request, however many clients are left. -/
  delivered : ∀ gate i d rest, l.connection.gate = some gate → gate.state ≠ .waiting → l.callers i = .outside →
    channel.queue = d :: rest → gate.wait.outcome = .ok d.received ∧
      ∃ l', l.run (request i) = some l' ∧ l.connection.wait = some (gate.wait, l'.connection) ∧
        l'.callers i = .returned gate.wait.outcome
  /-- A client is refused when the gate is gone, and only then. -/
  refused : 0 < channel.clients → ∀ d, (∃ e, l.connection.send d = some (.error e)) ↔ l.connection.gate = none
  /-- Each request that took the slot asks the program to stop, and so does each call apart from requests. -/
  stops : (l.Asking → channel.stops + 1 = l.sessions.length + l.stopCalls) ∧
    (¬ l.Asking → channel.stops = l.sessions.length + l.stopCalls)

theorem Orderly.refused (ho : l.Orderly channel) (hc : 0 < channel.clients) (d : Delivery) :
    (∃ e, l.connection.send d = some (.error e)) ↔ l.connection.gate = none := by
  rw [Connection.send_eq ho.wire, if_neg (Nat.ne_of_gt hc), ← Option.isNone_iff_eq_none, ← Option.not_isSome,
    ← ho.receiving]
  unfold Channel.send
  cases channel.receiving with
  | true => exact ⟨fun ⟨_, h⟩ => (by cases h), fun h => (by cases h)⟩
  | false => exact ⟨fun _ => rfl, fun _ => ⟨_, rfl⟩⟩

/-- In every interleaving of the steps of clients, requests and the host; and the gate is gone just where it was
dropped. -/
theorem sources_in_order {acts : List Act} (h : start.run acts = some l) :
    (∃ channel, l.Lawful channel) ∧ (l.connection.gate = none ↔ .dropGate ∈ acts) := by
  obtain ⟨channel, ho, -⟩ := orderly_run acts orderly_start h
  refine ⟨⟨channel, ho.wire, fun _ => ho.conserved, fun i outcome hi => ?_, fun i source hs => ho.bound _ hs,
    ⟨ho.order, ho.once⟩, fun i hi => ?_, fun gate i received hg hi => ho.receive_isSome_iff hg hi,
    fun gate i d rest hg hfree hi hq => ho.delivers hg hfree hi hq, ho.refused, ho.stops⟩,
    (run_gate acts h).trans (or_iff_left nofun)⟩
  · have hcame := ho.came i outcome (by rw [hi]; rfl)
    cases outcome with
    | ok source => exact .inl ⟨source, rfl, hcame⟩
    | error e => exact .inr (hcame.imp (congrArg _) fun hc => congrArg _ hc.1)
  · have hcame := ho.came i (.error .connectionClosed) (by rw [hi]; rfl)
    obtain ⟨-, hq, hc⟩ := hcame.resolve_left fun he => by cases he
    exact ⟨hq, hc, fun acts l' => ho.served_of_closed hq hc⟩

/-- Two sources are sent, one of them while a request waits and a second one is refused; the last client
leaves before the second source is taken, and a fourth request finds the connection closed. -/
def lateSource : List Act :=
  [.cloneClient, .ask 0 .begin, .ask 0 .stop, .ask 0 .enter, .ask 1 .begin, .send "é" [1], .dropClient,
    .send "b" [2, 3], .dropClient, .receive 0, .ask 0 .write, .stopDebuggee] ++ request 2 ++ request 3

/-- One source is taken and one is queued when the gate goes; a third one is refused. -/
def strandedSource : List Act :=
  [.send "é" [1]] ++ request 0 ++ [.send "b" [2, 3], .dropGate, .send "c" []]

theorem sources_in_order_lateSource :
    (∃ l channel, start.run lateSource = some l ∧ l.Lawful channel ∧ l.connection.gate ≠ none ∧
      l.served = [(0, ⟨"é", [1]⟩), (2, ⟨"b", [2, 3]⟩)] ∧ l.accepted = [⟨"é", [1]⟩, ⟨"b", [2, 3]⟩] ∧
      l.sessions = [0, 2, 3] ∧ l.stopCalls = 1 ∧ l.connection.wire.stops = 4) ∧
    ∃ l channel, start.run strandedSource = some l ∧ l.Lawful channel ∧ l.connection.gate = none ∧
      l.served = [(0, ⟨"é", [1]⟩)] ∧ l.accepted = [⟨"é", [1]⟩, ⟨"b", [2, 3]⟩] ∧ channel.clients = 1 ∧
      ∃ e, l.connection.send ⟨Text.encode "d", [4]⟩ = some (.error e) := by
  constructor
  · have hview : (start.run lateSource).map (fun l => (l.served, l.accepted, l.sessions, l.stopCalls,
        l.connection.wire.stops)) = some ([(0, ⟨"é", [1]⟩), (2, ⟨"b", [2, 3]⟩)], [⟨"é", [1]⟩, ⟨"b", [2, 3]⟩],
        [0, 2, 3], 1, 4) := by
      decide +kernel
    obtain ⟨l, hl, hv⟩ := Option.map_eq_some_iff.1 hview
    simp only [Prod.mk.injEq] at hv
    obtain ⟨⟨channel, hlawful⟩, hgate⟩ := sources_in_order hl
    exact ⟨l, channel, hl, hlawful, mt hgate.1 (by decide), hv⟩
  · have hview : (start.run strandedSource).map (fun l => (l.served, l.accepted, l.connection.clients)) =
        some ([(0, ⟨"é", [1]⟩)], [⟨"é", [1]⟩, ⟨"b", [2, 3]⟩], 1) := by
      decide +kernel
    obtain ⟨l, hl, hv⟩ := Option.map_eq_some_iff.1 hview
    simp only [Prod.mk.injEq] at hv
    obtain ⟨hserved, haccepted, hclients⟩ := hv
    obtain ⟨⟨channel, hlawful⟩, hgate⟩ := sources_in_order hl
    have hgone := hgate.2 (by decide)
    have hone : channel.clients = 1 := by
      rwa [Connection.clients, hlawful.wire] at hclients
    exact ⟨l, channel, hl, hlawful, hgone, hserved, haccepted, hone,
      (hlawful.refused (by rw [hone]; exact Nat.one_pos) _).2 hgone⟩

end ScriptHost.Debugger.Line
