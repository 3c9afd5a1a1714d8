/-
The answer to one request for source, whatever the wire does meanwhile. Only a turn that succeeds and has
delivered answers with source, and then with the latest delivery; a turn that breaks down takes the request
down with it, and every other turn closes it. In each case the slot is free afterwards, and requests from
inside the turn were refused and left no trace.
-/
import ScriptHost.Proofs.Debugger.Gate
import Mathlib.Tactic

namespace ScriptHost.Debugger

/-! ## What a turn does -/

/-- What an action delivers. -/
def Action.delivery? : Action → Option Delivery
  | deliver d => some d
  | reenter => none

namespace Turn

/-- Everything that is delivered, in order. -/
def deliveries (turn : Turn) : List Delivery := turn.actions.filterMap Action.delivery?

/-- The text with which the turn breaks down, if it does: when it is asked to stop the program, or in the end. -/
def panic? (turn : Turn) : Option String :=
  match turn.stopBreakdown, turn.ending with
  | some text, _ => some text
  | none, .breakdown text => some text
  | none, _ => none

/-- How often the gate is asked again from inside the turn. -/
def reentries (turn : Turn) : Nat :=
  match turn.stopBreakdown with
  | some _ => 0
  | none => turn.actions.count .reenter

/-- The turn in which nobody asks again. -/
def alone (turn : Turn) : Turn := { turn with actions := turn.actions.filter (· ≠ .reenter) }

end Turn

/-! ## What counts of a turn -/

theorem lastDelivered_eq : ∀ (actions : List Action) (received : Option Source), lastDelivered received actions =
    ((actions.filterMap Action.delivery?).getLast?.map Delivery.received).or received
  | [], _ => rfl
  | .deliver d :: rest, _ => by
    have hcons : (Action.deliver d :: rest).filterMap Action.delivery? = d :: rest.filterMap Action.delivery? := rfl
    rw [lastDelivered, lastDelivered_eq rest, hcons, List.getLast?_cons]
    cases (rest.filterMap Action.delivery?).getLast? <;> rfl
  | .reenter :: rest, received => lastDelivered_eq rest received

theorem lastDelivered_filter : ∀ (actions : List Action) (received : Option Source),
    lastDelivered received (actions.filter (· ≠ .reenter)) = lastDelivered received actions
  | [], _ => rfl
  | .deliver d :: rest, _ => lastDelivered_filter rest (some d.received)
  | .reenter :: rest, received => lastDelivered_filter rest received

namespace Turn

/-- The latest source that the turn delivers. -/
def latest? (turn : Turn) : Option Source := turn.deliveries.getLast?.map Delivery.received

theorem lastDelivered_eq_latest? (turn : Turn) : lastDelivered none turn.actions = turn.latest? := by
  rw [lastDelivered_eq, Option.or_none, latest?, deliveries]

end Turn

namespace Gate

/-! ## Requests from inside -/

/-- What is told of a request from inside: it was refused, and the slot was still taken. -/
def refusal (wire : Wire) : Reentry := ⟨.error .alreadyWaiting, .waiting, wire.stops⟩

/-- Of the actions of a turn only the deliveries matter to the request that waits. -/
theorem foldl_act_eq (depth : Nat) (wire : Wire) : ∀ (actions : List Action) (received : Option Source)
    (events : List Event) (reentries : List Reentry),
    actions.foldl (Waiting.act (waitWithin depth)) ⟨⟨.waiting, wire⟩, received, events, reentries⟩ =
      ⟨⟨.waiting, wire⟩, lastDelivered received actions, events,
        reentries ++ List.replicate (actions.count .reenter) (refusal wire)⟩
  | [], received, events, reentries => by
    rw [List.foldl_nil, List.count_nil, List.replicate_zero, List.append_nil, lastDelivered]
  | .deliver d :: rest, received, events, reentries => by
    rw [List.foldl_cons, List.count_cons_of_ne (by simp), lastDelivered]
    exact foldl_act_eq depth wire rest (some d.received) events reentries
  | .reenter :: rest, received, events, reentries => by
    -- a request from inside finds the slot taken, at whatever depth
    have hact : Waiting.act (waitWithin depth) ⟨⟨.waiting, wire⟩, received, events, reentries⟩ .reenter =
        ⟨⟨.waiting, wire⟩, received, events, reentries ++ [refusal wire]⟩ := by
      unfold Waiting.act
      rw [waitWithin_refused rfl]
      simp only [List.append_nil, refusal]
    rw [List.foldl_cons, hact, foldl_act_eq depth wire rest, List.count_cons_self, List.replicate_succ,
      List.append_assoc, List.singleton_append, lastDelivered]

/-! ## One request -/

/-- What a request comes to that takes a turn and leaves the wire as it is behind it. -/
def answer (turn : Turn) (wire : Wire) : Waited :=
  match turn.stopBreakdown with
  | some text => Waiting.conclude ⟨⟨.waiting, wire⟩, none, [], []⟩ (.breakdown text)
  | none => Waiting.conclude ⟨⟨.waiting, wire⟩, turn.latest?,
      [⟨.debug, "waiting for debugger client source", []⟩],
      List.replicate turn.reentries (refusal wire)⟩ turn.ending

/-- How many requests could wait inside each other makes no difference, as none does. -/
theorem waitWithin_eq_answer {g : Gate} (hfree : g.state ≠ .waiting) {turn : Turn} {wire : Wire}
    (ht : g.wire.stop.take? = some (turn, wire)) (depth : Nat) : waitWithin (depth + 1) g = answer turn wire := by
  unfold waitWithin answer
  rw [SlotState.begin_of_ne hfree]
  simp only [Gate.stop, ht, Option.getD_some]
  cases hbreak : turn.stopBreakdown with
  | some text => rfl
  | none =>
    simp only [foldl_act_eq, turn.lastDelivered_eq_latest?, List.nil_append, Turn.reentries, hbreak]

/-- What a request has come to that took a turn and left the wire as it is behind it. -/
structure Answered (turn : Turn) (wire : Wire) (w : Waited) : Prop where
  /-- Only a turn that succeeds and has delivered answers with source, and that is its latest delivery. -/
  ok_iff : ∀ source, w.outcome = .ok source ↔ turn.stopBreakdown = none ∧ turn.ending = .received ∧
    ∃ d, turn.deliveries.getLast? = some d ∧ source = ⟨Text.decodeLossy d.name, d.source⟩
  breakdown_iff : ∀ text, w.outcome = .error (.wireFailure text) ↔ turn.panic? = some text
  closed_iff : w.outcome = .error .connectionClosed ↔ turn.panic? = none ∧ ¬ ∃ source, w.outcome = .ok source
  resolved_iff : w.gate.state = .resolved ↔ ∃ source, w.outcome = .ok source
  closed_of_lost : (¬ ∃ source, w.outcome = .ok source) → w.gate.state = .closed
  /-- The next request is not refused, whatever the wire is by then. -/
  free : ∀ next, (Gate.mk w.gate.state next).wait.outcome ≠ .error .alreadyWaiting
  /-- The wire was asked to stop once and has given one turn. -/
  wire_eq : w.gate.wire = wire
  /-- Each request from inside was refused, found the slot taken and asked the wire for nothing. -/
  refused : w.reentries = List.replicate turn.reentries ⟨.error .alreadyWaiting, .waiting, wire.stops⟩
  /-- Without the requests from inside all would be the same. -/
  undisturbed : ∀ g : Gate, g.state ≠ .waiting → g.wire.stop.take? = some (turn.alone, wire) →
    g.wait = { w with reentries := [] }

/-- How a request ends: with the latest source, in a breakdown, or with neither. -/
theorem answer_cases (turn : Turn) (wire : Wire) :
    (∃ text, turn.panic? = some text ∧ (answer turn wire).outcome = .error (.wireFailure text) ∧
      (answer turn wire).gate = ⟨.closed, wire⟩) ∨
    (∃ d, turn.stopBreakdown = none ∧ turn.ending = .received ∧ turn.deliveries.getLast? = some d ∧
      (answer turn wire).outcome = .ok d.received ∧ (answer turn wire).gate = ⟨.resolved, wire⟩) ∨
    (turn.panic? = none ∧ (turn.ending = .received → turn.deliveries.getLast? = none) ∧
      (answer turn wire).outcome = .error .connectionClosed ∧ (answer turn wire).gate = ⟨.closed, wire⟩) := by
  unfold answer Turn.panic?
  cases hstop : turn.stopBreakdown with
  | some text => exact .inl ⟨text, rfl, rfl, rfl⟩
  | none =>
    cases hend : turn.ending with
    | breakdown text => exact .inl ⟨text, rfl, rfl, rfl⟩
    | closed => exact .inr (.inr ⟨rfl, nofun, rfl, rfl⟩)
    | received =>
      unfold Turn.latest?
      cases hlast : turn.deliveries.getLast? with
      | none => exact .inr (.inr ⟨rfl, fun _ => rfl, rfl, rfl⟩)
      | some d => exact .inr (.inl ⟨d, rfl, rfl, rfl, rfl, rfl⟩)

theorem conclude_reentries (gate : Gate) (received : Option Source) (events : List Event) (reentries : List Reentry)
    (e : Ending) : Waiting.conclude ⟨gate, received, events, reentries⟩ e =
      { Waiting.conclude ⟨gate, received, events, []⟩ e with reentries := reentries } := by
  unfold Waiting.conclude
  cases e with
  | received => cases received <;> rfl
  | closed => rfl
  | breakdown text => rfl

theorem reentries_answer (turn : Turn) (wire : Wire) :
    (answer turn wire).reentries = List.replicate turn.reentries (refusal wire) := by
  unfold answer Turn.reentries
  cases turn.stopBreakdown with
  | some text => rfl
  | none => simp only [conclude_reentries _ _ _ (List.replicate _ _)]

/-- Without the requests from inside everything but the record of them is the same. -/
theorem answer_alone (turn : Turn) (wire : Wire) :
    answer turn.alone wire = { answer turn wire with reentries := [] } := by
  -- dropping the requests from inside drops no delivery
  have hlatest : turn.alone.latest? = turn.latest? := by
    rw [← Turn.lastDelivered_eq_latest?, ← Turn.lastDelivered_eq_latest?]
    exact lastDelivered_filter turn.actions none
  have hcount : turn.alone.actions.count .reenter = 0 :=
    List.count_eq_zero.2 fun h => by simp [Turn.alone] at h
  unfold answer
  rw [hlatest, Turn.reentries, Turn.reentries, hcount]
  cases hstop : turn.stopBreakdown with
  | some text => simp only [Turn.alone, hstop]; rfl
  | none =>
    simp only [Turn.alone, hstop, List.replicate_zero]
    rw [conclude_reentries _ _ _ (List.replicate _ _)]
    exact conclude_reentries _ _ _ [] _

/-- A request that is made where nobody waits is not refused. -/
theorem wait_ne_alreadyWaiting {g : Gate} (hfree : g.state ≠ .waiting) :
    g.wait.outcome ≠ .error .alreadyWaiting := by
  rw [(wait_eq hfree).1]
  unfold Turn.verdict verdict
  cases g.taken.1.stopBreakdown with
  | some text => exact nofun
  | none =>
    cases g.taken.1.ending with
    | received => cases lastDelivered none g.taken.1.actions <;> exact nofun
    | closed => exact nofun
    | breakdown text => exact nofun

theorem panic?_of_received {turn : Turn} (hstop : turn.stopBreakdown = none) (hend : turn.ending = .received) :
    turn.panic? = none := by
  rw [Turn.panic?, hstop, hend]

theorem answer_ok_iff (turn : Turn) (wire : Wire) (source : Source) : (answer turn wire).outcome = .ok source ↔
    turn.stopBreakdown = none ∧ turn.ending = .received ∧
      ∃ d, turn.deliveries.getLast? = some d ∧ source = ⟨Text.decodeLossy d.name, d.source⟩ := by
  obtain ⟨text, hpanic, ho, -⟩ | ⟨d, hstop, hend, hlast, ho, -⟩ | ⟨-, hlast, ho, -⟩ := answer_cases turn wire
  · refine ⟨fun h => (by rw [ho] at h; cases h), fun ⟨hstop, hend, _⟩ => ?_⟩
    rw [panic?_of_received hstop hend] at hpanic
    cases hpanic
  · simp [ho, hstop, hend, hlast, Delivery.received, eq_comm]
  · refine ⟨fun h => (by rw [ho] at h; cases h), fun ⟨_, hend, d, hd, _⟩ => ?_⟩
    rw [hlast hend] at hd
    cases hd

theorem answer_breakdown_iff (turn : Turn) (wire : Wire) (text : String) :
    (answer turn wire).outcome = .error (.wireFailure text) ↔ turn.panic? = some text := by
  obtain ⟨text', hpanic, ho, -⟩ | ⟨d, hstop, hend, -, ho, -⟩ | ⟨hpanic, -, ho, -⟩ := answer_cases turn wire
  · rw [ho, hpanic]
    simp
  · rw [ho, panic?_of_received hstop hend]
    simp
  · rw [ho, hpanic]
    simp

theorem answer_closed_iff (turn : Turn) (wire : Wire) : (answer turn wire).outcome = .error .connectionClosed ↔
    turn.panic? = none ∧ ¬ ∃ source, (answer turn wire).outcome = .ok source := by
  obtain ⟨text, hpanic, ho, -⟩ | ⟨d, hstop, hend, -, ho, -⟩ | ⟨hpanic, -, ho, -⟩ := answer_cases turn wire
  · simp [ho, hpanic]
  · simp [ho]
  · simp [ho, hpanic]

/-- The slot tells afterwards whether there was source. -/
theorem answer_gate (turn : Turn) (wire : Wire) :
    ((∃ source, (answer turn wire).outcome = .ok source) ∧ (answer turn wire).gate = ⟨.resolved, wire⟩) ∨
      ((¬ ∃ source, (answer turn wire).outcome = .ok source) ∧ (answer turn wire).gate = ⟨.closed, wire⟩) := by
  obtain ⟨text, -, ho, hg⟩ | ⟨d, -, -, -, ho, hg⟩ | ⟨-, -, ho, hg⟩ := answer_cases turn wire
  · exact .inr ⟨fun ⟨source, h⟩ => (by rw [ho] at h; cases h), hg⟩
  · exact .inl ⟨⟨d.received, ho⟩, hg⟩
  · exact .inr ⟨fun ⟨source, h⟩ => (by rw [ho] at h; cases h), hg⟩

/-- One request, where nobody waits, against whatever the wire does meanwhile. -/
theorem wait_answers {g : Gate} (hfree : g.state ≠ .waiting) {turn : Turn} {wire : Wire}
    (ht : g.wire.stop.take? = some (turn, wire)) : Answered turn wire g.wait := by
  rw [show g.wait = answer turn wire from waitWithin_eq_answer hfree ht 0]
  have hgate := answer_gate turn wire
  exact
    { ok_iff := answer_ok_iff turn wire
      breakdown_iff := answer_breakdown_iff turn wire
      closed_iff := answer_closed_iff turn wire
      resolved_iff := by obtain ⟨hs, hg⟩ | ⟨hs, hg⟩ := hgate <;> simp [hs, hg]
      closed_of_lost := fun hs => by rw [(hgate.resolve_left fun h => hs h.1).2]
      free := fun next => wait_ne_alreadyWaiting (by
        obtain ⟨-, hg⟩ | ⟨-, hg⟩ := hgate <;> rw [hg] <;> exact nofun)
      wire_eq := by obtain ⟨-, hg⟩ | ⟨-, hg⟩ := hgate <;> rw [hg]
      refused := reentries_answer turn wire
      undisturbed := fun g' hfree' ht' => (waitWithin_eq_answer hfree' ht' 0).trans (answer_alone turn wire) }

/-- Two deliveries, the latter under a name that is not UTF-8, and somebody asks again after each of them. -/
def insistent : Turn :=
  ⟨none, [.deliver ⟨[97], [1]⟩, .reenter, .deliver ⟨[98, 255], [2, 3]⟩, .reenter], .received⟩

theorem wait_answers_insistent : (⟨.closed, .scripted [insistent] 2⟩ : Gate).state ≠ .waiting ∧
    (⟨.closed, .scripted [insistent] 2⟩ : Gate).wire.stop.take? = some (insistent, .scripted [] 3) ∧
    Answered insistent (.scripted [] 3) (⟨.closed, .scripted [insistent] 2⟩ : Gate).wait ∧
    (⟨.closed, .scripted [insistent] 2⟩ : Gate).wait.outcome.toOption = some ⟨"b\uFFFD", [2, 3]⟩ :=
  ⟨by decide, rfl, wait_answers (by decide) rfl, by decide +kernel⟩

end Gate

end ScriptHost.Debugger
