/-
One request for source that is made where nobody waits. The slot is taken from the beginning to the
end of the turn, so requests from inside the turn are refused and change nothing; what counts of the
turn is its latest delivery and its ending.
-/
import ScriptHost.Debugger.Gate

namespace ScriptHost.Debugger

/-- The latest delivery of some actions, or an earlier one. -/
def lastDelivered : Option Source → List Action → Option Source
  | received, [] => received
  | _, .deliver d :: rest => lastDelivered (some d.received) rest
  | received, .reenter :: rest => lastDelivered received rest

theorem SlotState.begin_of_ne {s : SlotState} (h : s ≠ .waiting) : s.begin = .ok .waiting := by
  cases s <;> first | rfl | exact absurd rfl h

namespace Gate

/-- The turn that a request takes, and the wire behind it. -/
def taken (g : Gate) : Turn × Wire := g.wire.stop.take?.getD (.silent, g.wire.stop)

/-- A request where somebody waits is refused. -/
theorem waitWithin_refused {g : Gate} (h : g.state = .waiting) (depth : Nat) :
    waitWithin depth g = ⟨.error .alreadyWaiting, g, [], []⟩ := by
  unfold waitWithin
  rw [h]
  rfl

/-- Inside the turn the gate stays as it is. -/
theorem foldl_act (depth : Nat) : ∀ (actions : List Action) (w : Waiting), w.gate.state = .waiting →
    (actions.foldl (Waiting.act (waitWithin depth)) w).gate = w.gate ∧
    (actions.foldl (Waiting.act (waitWithin depth)) w).received = lastDelivered w.received actions
  | [], _, _ => ⟨rfl, rfl⟩
  | .deliver d :: rest, w, hw => foldl_act depth rest (w.act (waitWithin depth) (.deliver d)) hw
  | .reenter :: rest, w, hw => by
    have hact : (w.act (waitWithin depth) .reenter).gate = w.gate := by
      unfold Waiting.act; rw [waitWithin_refused hw]
    obtain ⟨hg, hr⟩ := foldl_act depth rest (w.act (waitWithin depth) .reenter) (by rw [hact]; exact hw)
    exact ⟨hg.trans hact, hr⟩

/-- How a session ends that has received something or not, and what its request comes to. -/
def verdict (received : Option Source) : Ending → SessionEnd × Except HostError Source
  | .breakdown text => (.abandon, .error (.wireFailure text))
  | .closed => (.close, .error .connectionClosed)
  | .received =>
    match received with
    | none => (.close, .error .connectionClosed)
    | some source => (.resolve, .ok source)

theorem conclude_eq (w : Waiting) (e : Ending) : (w.conclude e).outcome = (verdict w.received e).2 ∧
    (w.conclude e).gate = { w.gate with state := (verdict w.received e).1.state } := by
  unfold Waiting.conclude verdict
  cases e with
  | received => cases w.received <;> exact ⟨rfl, rfl⟩
  | closed => exact ⟨rfl, rfl⟩
  | breakdown text => exact ⟨rfl, rfl⟩

/-- What a turn comes to. -/
def Turn.verdict (turn : Turn) : SessionEnd × Except HostError Source :=
  match turn.stopBreakdown with
  | some text => Gate.verdict none (.breakdown text)
  | none => Gate.verdict (lastDelivered none turn.actions) turn.ending

/-- A request made where nobody waits comes to what its turn comes to. -/
theorem wait_eq {g : Gate} (h : g.state ≠ .waiting) : g.wait.outcome = (Turn.verdict g.taken.1).2 ∧
    g.wait.gate = ⟨(Turn.verdict g.taken.1).1.state, g.taken.2⟩ := by
  unfold wait waitWithin
  rw [SlotState.begin_of_ne h]
  show _ ∧ _
  unfold Turn.verdict
  rcases ht : g.taken with ⟨turn, wire⟩
  change g.wire.stop.take?.getD (.silent, g.wire.stop) = (turn, wire) at ht
  simp only [Gate.stop, ht]
  rcases hbreak : turn.stopBreakdown with _ | text
  · simp only
    -- whoever asks from inside is refused, so the actions leave the slot as it is
    obtain ⟨hg, hr⟩ := foldl_act 0 turn.actions
      ⟨⟨.waiting, wire⟩, none, [⟨.debug, "waiting for debugger client source", []⟩], []⟩ rfl
    obtain ⟨ho, hgate⟩ := conclude_eq (turn.actions.foldl (Waiting.act (waitWithin 0))
      ⟨⟨.waiting, wire⟩, none, [⟨.debug, "waiting for debugger client source", []⟩], []⟩) turn.ending
    rw [hr] at ho hgate
    rw [hg] at hgate
    exact ⟨ho, hgate⟩
  · exact conclude_eq ⟨⟨.waiting, wire⟩, none, [], []⟩ (.breakdown text)

end Gate

end ScriptHost.Debugger
