/-
Many callers ask one gate for source at the same time. A request is cut at every place where another
one may come in between: the slot is taken and the end of the session is written under the lock, the
calls of the wire stand between the two, and after the end is written the session is marked as
finished and dropped, which writes again unless the mark is set. Main result: in every interleaving
of any number of requests the slot is taken exactly while one session is on its way, nobody enters
the wire beside it, and what a finished session still does never touches the slot.

The proof is one lemma about a single step of one request (`Point.advance_cases`): it takes a free
slot, leaves it alone, or gives up the slot that the request itself holds.
-/
import ScriptHost.Proofs.Debugger.Gate
import ScriptHost.Proofs.Table

namespace ScriptHost.Debugger

/-! ## One request, step by step -/

/-- Where a request for source stands. -/
inductive Point where
  | outside
  /-- The session has begun and holds the slot. -/
  | begun
  /-- The program was asked to stop. -/
  | stopped
  /-- Inside the wait on the wire, with the latest delivery. -/
  | waiting (received : Option Source)
  /-- The wait came back; the end of the session is still to be written. -/
  | ending (how : SessionEnd) (outcome : Except HostError Source)
  /-- The end is written; the session is still to be marked. -/
  | written (outcome : Except HostError Source)
  /-- The session is about to be dropped, with its mark. -/
  | dropping (finished : Bool) (outcome : Except HostError Source)
  | returned (outcome : Except HostError Source)
  deriving Repr

inductive Move where
  | begin
  /-- The call that stops the program comes back, or breaks down. -/
  | stop (breakdown : Option String)
  | enter
  | deliver (d : Delivery)
  /-- The wait comes back, or breaks down. -/
  | leave (ending : Ending)
  | write
  | mark
  | drop
  deriving Repr, DecidableEq

namespace Point

/-- Where a request stands when its wait is over. A breakdown unwinds past the end of the session. -/
def conclude (received : Option Source) : Ending → Point
  | .breakdown text => .dropping false (.error (.wireFailure text))
  | .closed => .ending .close (.error .connectionClosed)
  | .received =>
    match received with
    | none => .ending .close (.error .connectionClosed)
    | some source => .ending .resolve (.ok source)

/-- One step of a request and what it makes of the slot. -/
def advance (slot : SlotState) : Point → Move → Option (Point × SlotState)
  | .outside, .begin =>
    match slot.begin with
    | .ok taken => some (.begun, taken)
    | .error e => some (.returned (.error e), slot)
  | .begun, .stop none => some (.stopped, slot)
  | .begun, .stop (some text) => some (.dropping false (.error (.wireFailure text)), slot)
  | .stopped, .enter => some (.waiting none, slot)
  | .waiting _, .deliver d => some (.waiting (some d.received), slot)
  | .waiting received, .leave e => some (conclude received e, slot)
  | .ending how outcome, .write => some (.written outcome, how.state)
  | .written outcome, .mark => some (.dropping true outcome, slot)
  | .dropping finished outcome, .drop =>
    some (.returned outcome, if finished then slot else SessionEnd.abandon.state)
  | _, _ => none

/-- Steps of a request on end, and what they make of the slot. -/
def advanceAll (slot : SlotState) (p : Point) : List Move → Option (Point × SlotState)
  | [] => some (p, slot)
  | m :: rest => (p.advance slot m).bind fun next => advanceAll next.2 next.1 rest

/-- The session has begun and its end is not yet written. -/
def holds : Point → Bool
  | .begun => true
  | .stopped => true
  | .waiting _ => true
  | .ending _ _ => true
  | .dropping finished _ => !finished
  | _ => false

/-- The end of the session is written, or there never was one. -/
def ended : Point → Bool
  | .written _ => true
  | .dropping finished _ => finished
  | .returned _ => true
  | _ => false

/-- Inside the wait on the wire. -/
def inside : Point → Bool
  | .waiting _ => true
  | _ => false

theorem holds_conclude (received : Option Source) (e : Ending) : (conclude received e).holds = true := by
  cases e <;> cases received <;> rfl

theorem holds_of_inside {p : Point} (h : p.inside = true) : p.holds = true := by
  cases p <;> first | rfl | cases h

end Point

theorem SlotState.begin_ok {s t : SlotState} (h : s.begin = .ok t) : s ≠ .waiting ∧ t = .waiting := by
  cases s <;> cases h <;> exact ⟨by decide, rfl⟩

theorem SessionEnd.state_ne_waiting (how : SessionEnd) : how.state ≠ .waiting := by
  cases how <;> decide

/-- A step takes a free slot, leaves the slot alone and the request inside or outside its session, or
gives up a slot that the request holds. -/
theorem Point.advance_cases {slot slot' : SlotState} {p p' : Point} {m : Move}
    (h : p.advance slot m = some (p', slot')) :
    (p.holds = false ∧ slot ≠ .waiting ∧ p'.holds = true ∧ slot' = .waiting) ∨
    (p.holds = p'.holds ∧ slot' = slot) ∨
    (p.holds = true ∧ p'.holds = false ∧ slot' ≠ .waiting) := by
  -- one case for each arm of the step; most of them leave the slot alone
  unfold Point.advance at h
  split at h
  · split at h
    · rename_i taken hb
      cases h
      obtain ⟨hs, rfl⟩ := SlotState.begin_ok hb
      exact .inl ⟨rfl, hs, rfl, rfl⟩
    · cases h; exact .inr (.inl ⟨rfl, rfl⟩)
  · cases h; exact .inr (.inl ⟨rfl, rfl⟩)
  · cases h; exact .inr (.inl ⟨rfl, rfl⟩)
  · cases h; exact .inr (.inl ⟨rfl, rfl⟩)
  · cases h; exact .inr (.inl ⟨rfl, rfl⟩)
  · cases h; exact .inr (.inl ⟨(holds_conclude _ _).symm, rfl⟩)
  · rename_i how outcome
    cases h; exact .inr (.inr ⟨rfl, rfl, how.state_ne_waiting⟩)
  · cases h; exact .inr (.inl ⟨rfl, rfl⟩)
  · rename_i finished outcome
    cases h
    cases finished
    · exact .inr (.inr ⟨rfl, rfl, SessionEnd.state_ne_waiting .abandon⟩)
    · exact .inr (.inl ⟨rfl, rfl⟩)
  · cases h

/-- A session whose end is written leaves the slot alone. -/
theorem Point.advance_ended {slot slot' : SlotState} {p p' : Point} {m : Move} (ho : p.ended = true)
    (h : p.advance slot m = some (p', slot')) : slot' = slot := by
  cases p with
  | written outcome => cases m <;> cases h; rfl
  | dropping finished outcome => cases finished <;> cases ho; cases m <;> cases h; rfl
  | returned outcome => cases m <;> cases h
  | _ => cases ho

/-! ## Any number of requests -/

/-- A call of the wire, with the request that makes it. -/
inductive WireCall where
  | stop (caller : Nat)
  | wait (caller : Nat)
  deriving Repr, DecidableEq

/-- A gate with the requests that are made of it, and the calls that its wire has seen. -/
structure Crowd where
  slot : SlotState
  callers : Nat → Point
  calls : List WireCall

namespace Crowd

/-- A gate that nobody has asked yet. -/
def start : Crowd := ⟨.idle, fun _ => .outside, []⟩

/-- What a step calls on the wire. -/
def callsOf (caller : Nat) : Move → List WireCall
  | .stop _ => [.stop caller]
  | .enter => [.wait caller]
  | _ => []

/-- One step of one request; `none` where the request does not stand so. -/
def step (c : Crowd) (caller : Nat) (m : Move) : Option Crowd :=
  ((c.callers caller).advance c.slot m).map fun next =>
    ⟨next.2, Function.update c.callers caller next.1, c.calls ++ callsOf caller m⟩

/-- An interleaving of requests. -/
def run : Crowd → List (Nat × Move) → Option Crowd
  | c, [] => some c
  | c, (caller, m) :: rest => (c.step caller m).bind fun c => c.run rest

theorem step_eq_some {c c' : Crowd} {caller : Nat} {m : Move} (h : c.step caller m = some c') :
    ∃ p', (c.callers caller).advance c.slot m = some (p', c'.slot) ∧
      c' = ⟨c'.slot, Function.update c.callers caller p', c.calls ++ callsOf caller m⟩ := by
  obtain ⟨⟨p', slot'⟩, ha, rfl⟩ := Option.map_eq_some_iff.1 h
  exact ⟨p', ha, rfl⟩

/-- The slot is taken exactly while somebody holds it, and nobody else does. -/
structure Single (c : Crowd) : Prop where
  holder : c.slot = .waiting ↔ ∃ i, (c.callers i).holds = true
  unique : ∀ i j, (c.callers i).holds = true → (c.callers j).holds = true → i = j

theorem single_start : Single start where
  holder := ⟨fun h => (by cases h), fun ⟨_, h⟩ => (by cases h)⟩
  unique _ _ h := by cases h

theorem single_step {c c' : Crowd} {caller : Nat} {m : Move} (hc : Single c) (h : c.step caller m = some c') :
    Single c' := by
  obtain ⟨p', ha, hc'⟩ := step_eq_some h
  -- only the caller that steps stands somewhere else afterwards
  have hself : c'.callers caller = p' := by rw [hc']; exact Function.update_self ..
  have hother : ∀ i, i ≠ caller → c'.callers i = c.callers i := fun i hi => by
    rw [hc']; exact Function.update_of_ne hi ..
  rcases Point.advance_cases ha with ⟨-, hfree, hp', hslot⟩ | ⟨hp, hslot⟩ | ⟨hp, hp', hslot⟩
  · -- nobody held the free slot, so the request that takes it is alone
    have hnone : ∀ i, (c.callers i).holds ≠ true := fun i hi => hfree (hc.holder.2 ⟨i, hi⟩)
    have honly : ∀ i, (c'.callers i).holds = true → i = caller := fun i hi => by
      by_contra hne
      rw [hother i hne] at hi
      exact hnone i hi
    exact ⟨⟨fun _ => ⟨caller, by rw [hself]; exact hp'⟩, fun _ => hslot⟩,
      fun i j hi hj => (honly i hi).trans (honly j hj).symm⟩
  · have hsame : ∀ i, (c'.callers i).holds = (c.callers i).holds := fun i => by
      by_cases hi : i = caller
      · subst hi; rw [hself, hp]
      · rw [hother i hi]
    refine ⟨?_, fun i j hi hj => hc.unique i j (by rw [← hsame]; exact hi) (by rw [← hsame]; exact hj)⟩
    rw [hslot, hc.holder]
    simp only [hsame]
  · -- the one that held the slot gives it up, so nobody holds it
    have hnone : ∀ i, (c'.callers i).holds ≠ true := fun i hi => by
      by_cases hne : i = caller
      · subst hne; rw [hself, hp'] at hi; cases hi
      · rw [hother i hne] at hi
        exact hne (hc.unique i caller hi hp)
    exact ⟨⟨fun hw => absurd hw hslot, fun ⟨i, hi⟩ => absurd hi (hnone i)⟩,
      fun i _ hi => absurd hi (hnone i)⟩

theorem single_run : ∀ (schedule : List (Nat × Move)) {c c' : Crowd}, Single c → c.run schedule = some c' →
    Single c'
  | [], _, _, hc, h => by cases h; exact hc
  | (caller, m) :: rest, _, _, hc, h => by
    obtain ⟨c₁, h₁, h⟩ := Option.bind_eq_some_iff.1 h
    exact single_run rest (single_step hc h₁) h

/-- A request that finds the slot taken is refused without a call of the wire. -/
theorem step_refused {c c' : Crowd} {i : Nat} {m : Move} (hi : c.callers i = .outside)
    (hs : c.slot = .waiting) (h : c.step i m = some c') :
    c' = { c with callers := Function.update c.callers i (.returned (.error .alreadyWaiting)) } := by
  obtain ⟨p', ha, hc'⟩ := step_eq_some h
  rw [hi, hs] at ha
  cases m with
  | begin =>
    obtain ⟨rfl, hs'⟩ := Prod.mk.inj (Option.some.inj ha)
    rw [hc', ← hs', ← hs]
    simp [callsOf]
  | _ => cases ha

/-- A session whose end is written leaves the slot as it is, in particular one taken since. -/
theorem step_ended {c c' : Crowd} {i : Nat} {m : Move} (hi : (c.callers i).ended = true)
    (h : c.step i m = some c') : c'.slot = c.slot := by
  obtain ⟨p', ha, -⟩ := step_eq_some h
  exact Point.advance_ended hi ha

/-- In every interleaving: the slot is taken exactly while one session has begun and has not written its
end; no two requests are between the two, so no two are inside the wire; a request that finds the slot
taken is refused, and changes neither the slot nor what the wire saw; a session whose end is written
leaves the slot alone; and nobody frees a slot that another session holds. -/
theorem single_flight {schedule : List (Nat × Move)} {c : Crowd} (h : start.run schedule = some c) :
    (c.slot = .waiting ↔ ∃! i, (c.callers i).holds = true) ∧
    (∀ i j, (c.callers i).holds = true → (c.callers j).holds = true → i = j) ∧
    (∀ i j, (c.callers i).inside = true → (c.callers j).inside = true → i = j) ∧
    (∀ i, c.callers i = .outside → (c.step i .begin).isSome) ∧
    (∀ i m c', c.callers i = .outside → c.slot = .waiting → c.step i m = some c' →
      c' = { c with callers := Function.update c.callers i (.returned (.error .alreadyWaiting)) }) ∧
    (∀ i m c', (c.callers i).ended = true → c.step i m = some c' → c'.slot = c.slot) ∧
    ∀ i j m c', (c.callers j).holds = true → i ≠ j → c.step i m = some c' → c'.slot = .waiting := by
  have hc := single_run schedule single_start h
  refine ⟨?_, hc.unique, fun i j hi hj => ?_, fun i hi => ?_, fun i m c' => step_refused, fun i m c' => step_ended,
    fun i j m c' hj hne hstep => ?_⟩
  · rw [hc.holder]
    exact ⟨fun ⟨i, hi⟩ => ⟨i, hi, fun j hj => hc.unique j i hj hi⟩, fun ⟨i, hi, _⟩ => ⟨i, hi⟩⟩
  · exact hc.unique i j (Point.holds_of_inside hi) (Point.holds_of_inside hj)
  · unfold step
    rw [hi]
    cases c.slot <;> rfl
  · obtain ⟨p', -, hc'⟩ := step_eq_some hstep
    refine (single_step hc hstep).holder.2 ⟨j, ?_⟩
    rw [hc']
    show (Function.update c.callers i p' j).holds = true
    rw [Function.update_of_ne hne.symm]
    exact hj

/-- A first request is served and writes its end while a second one is refused; a third takes the slot
before the first session is marked and dropped. -/
def lateDrop : List (Nat × Move) :=
  [(0, .begin), (0, .stop none), (1, .begin), (0, .enter), (0, .deliver ⟨[0x61], [0x31]⟩),
    (0, .leave .received), (0, .write), (2, .begin), (0, .mark), (0, .drop)]

theorem single_flight_lateDrop : ∃ c, start.run lateDrop = some c ∧ c.slot = .waiting ∧
    c.calls = [.stop 0, .wait 0] ∧ (c.callers 0).ended = true ∧ (c.callers 2).holds = true ∧
    ∃! i, (c.callers i).holds = true := by
  have hview : (start.run lateDrop).map (fun c => (c.slot, c.calls, (c.callers 0).ended, (c.callers 2).holds)) =
      some (.waiting, [.stop 0, .wait 0], true, true) := by decide
  obtain ⟨c, hc, hv⟩ := Option.map_eq_some_iff.1 hview
  simp only [Prod.mk.injEq] at hv
  obtain ⟨hslot, hcalls, h0, h2⟩ := hv
  exact ⟨c, hc, hslot, hcalls, h0, h2, (single_flight hc).1.1 hslot⟩

/-! ## One request that nobody disturbs

What `Gate.wait` does in one go, a request does in steps: the requests from inside the turn are
callers of their own, which begin while the request waits.
-/

theorem run_cons_of_advance {c : Crowd} {i : Nat} {m : Move} {p : Point} {slot : SlotState}
    (h : (c.callers i).advance c.slot m = some (p, slot)) (rest : List (Nat × Move)) :
    c.run ((i, m) :: rest) = run ⟨slot, Function.update c.callers i p, c.calls ++ callsOf i m⟩ rest := by
  rw [run, step, h]; rfl

theorem run_append (c : Crowd) : ∀ first second : List (Nat × Move),
    c.run (first ++ second) = (c.run first).bind fun c => c.run second := by
  intro first
  induction first generalizing c with
  | nil => intro second; rfl
  | cons move rest ih =>
    intro second
    show (c.step move.1 move.2).bind _ = ((c.step move.1 move.2).bind _).bind _
    cases c.step move.1 move.2 with
    | none => rfl
    | some c => exact ih c second

/-- Steps of one request on end, from where it stands. -/
theorem run_own {i : Nat} : ∀ (moves : List Move) {c : Crowd} {p : Point} {slot : SlotState},
    Point.advanceAll c.slot (c.callers i) moves = some (p, slot) →
    ∃ c', c.run (moves.map (i, ·)) = some c' ∧ c'.callers i = p ∧ c'.slot = slot ∧
      ∀ j, j ≠ i → c'.callers j = c.callers j
  | [], c, _, _, h => by
    obtain ⟨rfl, rfl⟩ := Prod.mk.inj (Option.some.inj h)
    exact ⟨c, rfl, rfl, rfl, fun _ _ => rfl⟩
  | m :: rest, c, p, slot, h => by
    obtain ⟨⟨p₁, slot₁⟩, ha, h⟩ := Option.bind_eq_some_iff.1 h
    have hrest : Point.advanceAll slot₁ (Function.update c.callers i p₁ i) rest = some (p, slot) := by
      rw [Function.update_self]; exact h
    obtain ⟨c', hc', hp, hslot, hout⟩ := run_own rest
      (c := ⟨slot₁, Function.update c.callers i p₁, c.calls ++ callsOf i m⟩) hrest
    refine ⟨c', ?_, hp, hslot, fun j hj => ?_⟩
    · rw [List.map_cons, run_cons_of_advance ha]; exact hc'
    · rw [hout j hj]; exact Function.update_of_ne hj ..

/-- What happens inside the turn of a request; the callers from `k` on ask from there. -/
def actionMoves (i : Nat) : Nat → List Action → List (Nat × Move)
  | _, [] => []
  | k, .deliver d :: rest => (i, .deliver d) :: actionMoves i k rest
  | k, .reenter :: rest => (k, .begin) :: actionMoves i (k + 1) rest

/-- What a request does when its wait is over. -/
def endMoves : Ending → List Move
  | .breakdown text => [.leave (.breakdown text), .drop]
  | ending => [.leave ending, .write, .mark, .drop]

/-- The whole request that is given a turn. -/
def turnMoves (i k : Nat) (turn : Turn) : List (Nat × Move) :=
  match turn.stopBreakdown with
  | some text => [.begin, .stop (some text), .drop].map (i, ·)
  | none => [.begin, .stop none, .enter].map (i, ·) ++ actionMoves i k turn.actions
      ++ (endMoves turn.ending).map (i, ·)

theorem run_actionMoves {i : Nat} : ∀ (actions : List Action) {c : Crowd} {k : Nat} {received : Option Source},
    c.callers i = .waiting received → c.slot = .waiting → i < k → (∀ j, k ≤ j → c.callers j = .outside) →
    ∃ c', c.run (actionMoves i k actions) = some c' ∧
      c'.callers i = .waiting (lastDelivered received actions) ∧ c'.slot = .waiting
  | [], c, _, _, hi, hs, _, _ => ⟨c, rfl, hi, hs⟩
  | .deliver d :: rest, c, k, received, hi, hs, hk, hout => by
    -- the latest delivery takes the place of an earlier one
    have ha : (c.callers i).advance c.slot (.deliver d) = some (.waiting (some d.received), c.slot) := by
      rw [hi]; rfl
    obtain ⟨c', hc', hp, hs'⟩ := run_actionMoves rest
      (c := ⟨c.slot, Function.update c.callers i (.waiting (some d.received)), c.calls ++ []⟩)
      (Function.update_self ..) hs hk fun j hj => by
        show Function.update c.callers i _ j = _
        rw [Function.update_of_ne (Nat.ne_of_gt (lt_of_lt_of_le hk hj))]
        exact hout j hj
    exact ⟨c', by rw [actionMoves, run_cons_of_advance ha]; exact hc', hp, hs'⟩
  | .reenter :: rest, c, k, received, hi, hs, hk, hout => by
    -- the request from inside finds the slot taken
    have ha : (c.callers k).advance c.slot .begin = some (.returned (.error .alreadyWaiting), c.slot) := by
      rw [hout k (le_refl k), hs]; rfl
    have hi' : Function.update c.callers k (.returned (.error .alreadyWaiting)) i = .waiting received := by
      rw [Function.update_of_ne (Nat.ne_of_lt hk)]; exact hi
    obtain ⟨c', hc', hp, hs'⟩ := run_actionMoves rest (k := k + 1)
      (c := ⟨c.slot, Function.update c.callers k (.returned (.error .alreadyWaiting)), c.calls ++ []⟩)
      hi' hs (Nat.lt_succ_of_lt hk) fun j hj => by
        show Function.update c.callers k _ j = _
        rw [Function.update_of_ne (Nat.ne_of_gt hj)]
        exact hout j (Nat.le_of_succ_le hj)
    exact ⟨c', by rw [actionMoves, run_cons_of_advance ha]; exact hc', hp, hs'⟩

theorem advanceAll_endMoves (slot : SlotState) (received : Option Source) (ending : Ending) :
    Point.advanceAll slot (.waiting received) (endMoves ending) =
      some (.returned (Gate.verdict received ending).2, (Gate.verdict received ending).1.state) := by
  cases ending with
  | received => cases received <;> rfl
  | closed => rfl
  | breakdown text => rfl

/-- The steps of a request that is given a turn end with what the turn comes to. -/
theorem run_turnMoves {c : Crowd} {i k : Nat} (turn : Turn) (hs : c.slot ≠ .waiting)
    (hi : c.callers i = .outside) (hk : i < k) (hout : ∀ j, k ≤ j → c.callers j = .outside) :
    ∃ c', c.run (turnMoves i k turn) = some c' ∧ c'.callers i = .returned (Gate.Turn.verdict turn).2 ∧
      c'.slot = (Gate.Turn.verdict turn).1.state := by
  have hbegin : Point.advance c.slot .outside .begin = some (.begun, .waiting) := by
    rw [Point.advance, SlotState.begin_of_ne hs]
  unfold turnMoves Gate.Turn.verdict
  cases turn.stopBreakdown with
  | some text =>
    obtain ⟨c', hc', hp, hslot, -⟩ := run_own (i := i) [.begin, .stop (some text), .drop] (c := c)
      (by rw [hi, Point.advanceAll, hbegin]; rfl)
    exact ⟨c', hc', hp, hslot⟩
  | none =>
    -- the request enters, the actions of the turn happen inside, and then it writes its end
    obtain ⟨c₁, h₁, hi₁, hs₁, hout₁⟩ := run_own (i := i) [.begin, .stop none, .enter] (c := c)
      (by rw [hi, Point.advanceAll, hbegin]; rfl)
    obtain ⟨c₂, h₂, hi₂, hs₂⟩ := run_actionMoves turn.actions hi₁ hs₁ hk fun j hj => by
      rw [hout₁ j (Nat.ne_of_gt (lt_of_lt_of_le hk hj))]
      exact hout j hj
    obtain ⟨c₃, h₃, hi₃, hs₃, -⟩ := run_own (i := i) (endMoves turn.ending) (c := c₂)
      (by rw [hi₂]; exact advanceAll_endMoves ..)
    refine ⟨c₃, ?_, hi₃, hs₃⟩
    rw [run_append, run_append, h₁, Option.bind_some, h₂, Option.bind_some, h₃]

/-- A request that nobody disturbs does in steps what the gate does in one go. -/
theorem run_wait {c : Crowd} {g : Gate} {i k : Nat} (hs : c.slot = g.state) (hg : g.state ≠ .waiting)
    (hi : c.callers i = .outside) (hk : i < k) (hout : ∀ j, k ≤ j → c.callers j = .outside) :
    ∃ c', c.run (turnMoves i k g.taken.1) = some c' ∧ c'.callers i = .returned g.wait.outcome ∧
      c'.slot = g.wait.gate.state := by
  obtain ⟨ho, hgate⟩ := Gate.wait_eq hg
  rw [ho, hgate]
  exact run_turnMoves g.taken.1 (by rw [hs]; exact hg) hi hk hout

end Crowd

end ScriptHost.Debugger
