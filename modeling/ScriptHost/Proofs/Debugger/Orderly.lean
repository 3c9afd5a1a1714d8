/-
The order of a line. The invariant (`Line.Orderly`) ties what was accepted, who was served, who took the slot
and the connection together: what was accepted is what waits came back with, followed by what is queued, and
whoever was served took the slot before. Main result: one step of anybody keeps it, and so does every run.
-/
import ScriptHost.Proofs.Debugger.Line
import ScriptHost.Proofs.Text.Utf8

namespace ScriptHost.Debugger.Line

/-! ## The law -/

/-- A request that returns this, by what the channel and the line know. -/
def Came (l : Line) (channel : Channel) (caller : Nat) : Except HostError Source → Prop
  | .ok source => (caller, source) ∈ l.served
  | .error e => e = .alreadyWaiting ∨ (e = .connectionClosed ∧ channel.queue = [] ∧ channel.clients = 0)

/-- Somebody has taken the slot and has not yet asked the program to stop. -/
def Asking (l : Line) : Prop := ∃ i, l.callers i = .begun

/-- What holds between the steps of a line whose wire is this channel. -/
structure Orderly (l : Line) (channel : Channel) : Prop where
  wire : l.connection.wire = .channel channel
  receiving : channel.receiving = l.connection.gate.isSome
  conserved : l.accepted = l.served.map (·.2) ++ channel.queue.map Delivery.received
  single : ∀ gate ∈ l.connection.gate, Crowd.Single ⟨gate.state, l.callers, []⟩
  empty : ∀ i received, l.callers i = .waiting received → received = none
  came : ∀ i outcome, (l.callers i).outcome? = some outcome → l.Came channel i outcome
  bound : ∀ r ∈ l.served, (l.callers r.1).outcome? = some (.ok r.2)
  order : (l.served.map (·.1)).Sublist l.sessions
  last : ∀ i, Pending (l.callers i) → ∃ earlier, l.sessions = earlier ++ [i] ∧
    (l.served.map (·.1)).Sublist earlier
  once : l.sessions.Nodup
  begun : ∀ i ∈ l.sessions, l.callers i ≠ .outside
  stops : (l.Asking → channel.stops + 1 = l.sessions.length + l.stopCalls) ∧
    (¬ l.Asking → channel.stops = l.sessions.length + l.stopCalls)

theorem Came.mono {l l' : Line} {channel channel' : Channel} {caller : Nat} {outcome : Except HostError Source}
    (hserved : l.served ⊆ l'.served)
    (hclosed : channel.queue = [] ∧ channel.clients = 0 → channel'.queue = [] ∧ channel'.clients = 0)
    (h : l.Came channel caller outcome) : l'.Came channel' caller outcome := by
  cases outcome with
  | ok source => exact hserved h
  | error e => exact h.imp id fun hc => ⟨hc.1, hclosed hc.2⟩

/-- What a line comes to from another: it has served more, and where nobody can send that stays so. -/
structure Later (l l' : Line) (channel channel' : Channel) : Prop where
  served : l.served <+: l'.served
  mute : channel.clients = 0 → channel'.clients = 0 ∧ l'.accepted = l.accepted

theorem Later.refl (l : Line) (channel : Channel) : Later l l channel channel :=
  ⟨List.prefix_rfl, fun h => ⟨h, rfl⟩⟩

theorem Later.trans {l l₁ l' : Line} {channel channel₁ channel' : Channel} (h : Later l l₁ channel channel₁)
    (h' : Later l₁ l' channel₁ channel') : Later l l' channel channel' := by
  refine ⟨h.served.trans h'.served, fun hc => ?_⟩
  obtain ⟨hc₁, ha₁⟩ := h.mute hc
  obtain ⟨hc', ha'⟩ := h'.mute hc₁
  exact ⟨hc', ha'.trans ha₁⟩

theorem holds_of_begun {p : Point} (h : p = .begun) : p.holds = true := by
  rw [h]
  rfl

theorem orderly_start : start.Orderly .new where
  wire := rfl
  receiving := rfl
  conserved := rfl
  single gate hg := by
    cases hg
    exact Crowd.single_start
  empty _ _ h := by cases h
  came _ _ h := by cases h
  bound _ h := by cases h
  order := .refl _
  last _ h := by cases h.1
  once := .nil
  begun _ h := by cases h
  stops := ⟨fun ⟨_, h⟩ => (by cases h), fun _ => rfl⟩

/-! ## Steps of clients, and of the host apart from requests -/

variable {l l' : Line} {channel channel' : Channel}

/-- A change of the channel that leaves the requests where they are. -/
theorem Orderly.rewire (ho : l.Orderly channel) {accepted : List Source} {stopCalls : Nat}
    (hreceiving : channel'.receiving = channel.receiving)
    (hconserved : accepted = l.served.map (·.2) ++ channel'.queue.map Delivery.received)
    (hclosed : channel.queue = [] ∧ channel.clients = 0 → channel'.queue = [] ∧ channel'.clients = 0)
    (hstops : channel'.stops + l.stopCalls = channel.stops + stopCalls) :
    Orderly { l with
      connection := l.connection.setWire (.channel channel')
      accepted := accepted
      stopCalls := stopCalls } channel' where
  wire := Connection.wire_setWire ..
  receiving := by
    show channel'.receiving = (l.connection.setWire _).gate.isSome
    rw [hreceiving, ho.receiving, Connection.gate_setWire, Option.isSome_map]
  conserved := hconserved
  single gate hg := by
    rw [Connection.gate_setWire, Option.mem_map] at hg
    obtain ⟨old, hold, rfl⟩ := hg
    exact ho.single old hold
  empty := ho.empty
  came i outcome h := (ho.came i outcome h).mono (List.Subset.refl _) hclosed
  bound := ho.bound
  order := ho.order
  last := ho.last
  once := ho.once
  begun := ho.begun
  stops := by
    obtain ⟨hasking, hnot⟩ := ho.stops
    refine ⟨fun h => ?_, fun h => ?_⟩
    · have := hasking h
      show channel'.stops + 1 = l.sessions.length + stopCalls
      omega
    · have := hnot h
      show channel'.stops = l.sessions.length + stopCalls
      omega

theorem orderly_send (ho : l.Orderly channel) {name : String} {source : Bytes}
    (h : l.send name source = some l') : ∃ channel', l'.Orderly channel' ∧ Later l l' channel channel' := by
  unfold send at h
  rw [Connection.send_eq ho.wire] at h
  split at h
  · cases h
  · rename_i hclients
    unfold Channel.send at h
    split at h
    · -- what arrives is what was sent, since the name is read as it was written
      cases h
      refine ⟨_, ho.rewire rfl ?_ (fun hc => absurd hc.2 hclients) rfl, List.prefix_rfl,
        fun hc => absurd hc hclients⟩
      show l.accepted ++ [⟨name, source⟩] = _
      rw [ho.conserved, List.map_append, List.append_assoc, List.map_singleton, Delivery.received,
        Text.decodeLossy_encode]
    · cases h
      exact ⟨channel, ho, .refl l channel⟩

theorem orderly_cloneClient (ho : l.Orderly channel) :
    Orderly { l with connection := l.connection.cloneClient } channel.cloneClient := by
  have hclone : l.connection.cloneClient = l.connection.setWire (.channel channel.cloneClient) := by
    rw [Connection.cloneClient, ho.wire]
    rfl
  rw [hclone]
  refine ho.rewire ?_ ?_ ?_ ?_ <;> unfold Channel.cloneClient <;> split
  · rfl
  · rfl
  · exact ho.conserved
  · exact ho.conserved
  · exact id
  · rename_i hne
    exact fun hc => absurd hc.2 hne
  · rfl
  · rfl

theorem orderly_dropClient (ho : l.Orderly channel) :
    Orderly { l with connection := l.connection.dropClient } channel.dropClient := by
  have hdrop : l.connection.dropClient = l.connection.setWire (.channel channel.dropClient) := by
    rw [Connection.dropClient, ho.wire]
    rfl
  rw [hdrop]
  refine ho.rewire rfl ho.conserved (fun hc => ⟨hc.1, ?_⟩) rfl
  rw [Channel.dropClient, hc.2]

theorem orderly_stop (ho : l.Orderly channel) {gate : Gate} (hg : l.connection.gate = some gate) :
    Orderly { l with connection := l.connection.stop, stopCalls := l.stopCalls + 1 }
      { channel with stops := channel.stops + 1 } := by
  rw [Connection.stop_eq hg ho.wire]
  exact ho.rewire rfl ho.conserved id (by show channel.stops + 1 + l.stopCalls = _; omega)

/-- Nobody takes anything any more, and nobody makes a request. -/
theorem orderly_dropGate (ho : l.Orderly channel) : ∃ channel',
    Orderly { l with connection := l.connection.dropGate } channel' ∧
      Later l { l with connection := l.connection.dropGate } channel channel' := by
  unfold Connection.dropGate
  cases hg : l.connection.gate with
  | none => exact ⟨channel, ho, .refl l channel⟩
  | some gate =>
    have hwire := ho.wire
    rw [Connection.wire_of_gate hg] at hwire
    refine ⟨{ channel with receiving := false }, ⟨?_, rfl, ho.conserved, ?_, ho.empty, ho.came, ho.bound, ho.order,
      ho.last, ho.once, ho.begun, ho.stops⟩, List.prefix_rfl, fun hc => ⟨hc, rfl⟩⟩
    · show gate.wire.abandon = _
      rw [hwire]
      rfl
    · exact fun _ h => by cases h

/-! ## Steps of requests -/

/-- The callers that hold the slot are those of a crowd, and one step of one of them is a step of it. -/
theorem single_update {slot slot' : SlotState} {callers : Nat → Point} {caller : Nat} {m : Move} {p : Point}
    (hs : Crowd.Single ⟨slot, callers, []⟩) (h : (callers caller).advance slot m = some (p, slot')) :
    Crowd.Single ⟨slot', Function.update callers caller p, []⟩ := by
  have hstep : Crowd.step ⟨slot, callers, []⟩ caller m =
      some ⟨slot', Function.update callers caller p, [] ++ Crowd.callsOf caller m⟩ := by
    unfold Crowd.step
    rw [h]
    rfl
  have hc := Crowd.single_step hs hstep
  exact ⟨hc.holder, hc.unique⟩

/-- Where only one caller moves, whoever asks to stop before and after is the same, unless it is the caller. -/
theorem asking_update {callers : Nat → Point} {caller : Nat} {p : Point} (hb : callers caller ≠ .begun)
    (hp : p ≠ .begun) : (∃ i, Function.update callers caller p i = .begun) ↔ ∃ i, callers i = .begun := by
  refine exists_congr fun i => ?_
  by_cases hi : i = caller
  · subst hi
    rw [Function.update_self]
    exact ⟨fun h => absurd h hp, fun h => absurd h hb⟩
  · rw [Function.update_of_ne hi]

/-- The gate behind a step of a request: its channel has seen one more request to stop, if the step is one. -/
theorem asked_gate {gate : Gate} (hw : gate.wire = .channel channel) (phase : Phase) (slot : SlotState) :
    ∃ channel' : Channel,
      let gate' := if phase = .stop then Gate.stop { gate with state := slot } else { gate with state := slot }
      gate'.state = slot ∧ gate'.wire = .channel channel' ∧ channel'.queue = channel.queue ∧
      channel'.clients = channel.clients ∧ channel'.receiving = channel.receiving ∧
      channel'.stops = channel.stops + if phase = .stop then 1 else 0 := by
  by_cases h : phase = .stop
  · refine ⟨{ channel with stops := channel.stops + 1 }, ?_⟩
    simp only [if_pos h, Gate.stop, hw]
    exact ⟨trivial, rfl, trivial, trivial, trivial, trivial⟩
  · refine ⟨channel, ?_⟩
    simp only [if_neg h, hw]
    exact ⟨trivial, trivial, trivial, trivial, trivial, rfl⟩

/-- Requests to stop are counted with the session that they belong to, as soon as they are made. -/
theorem Orderly.stops_ask (ho : l.Orderly channel) {caller : Nat} {phase : Phase} {slot slot' : SlotState} {p : Point}
    (hs : Crowd.Single ⟨slot, l.callers, []⟩) (ha : Asked slot phase (l.callers caller) p slot') :
    let stops := channel.stops + if phase = .stop then 1 else 0
    let sessions := if phase = .begin ∧ p.holds = true then l.sessions ++ [caller] else l.sessions
    ((∃ i, Function.update l.callers caller p i = .begun) → stops + 1 = sessions.length + l.stopCalls) ∧
    ((¬ ∃ i, Function.update l.callers caller p i = .begun) → stops = sessions.length + l.stopCalls) := by
  obtain ⟨hasking, hnot⟩ := ho.stops
  generalize hp : l.callers caller = before at ha
  -- most steps concern nobody who has still to ask
  have hrest (hb : before ≠ .begun) (hp' : p ≠ .begun) :
      ((∃ i, Function.update l.callers caller p i = .begun) → channel.stops + 1 = l.sessions.length + l.stopCalls) ∧
      ((¬ ∃ i, Function.update l.callers caller p i = .begun) → channel.stops = l.sessions.length + l.stopCalls) := by
    rw [asking_update (hp ▸ hb) hp']
    exact ⟨hasking, hnot⟩
  cases ha with
  | taken hfree =>
    -- the slot was free, so nobody had still to ask
    have hnone : ¬ l.Asking := fun ⟨i, hi⟩ => hfree (hs.holder.2 ⟨i, holds_of_begun hi⟩)
    have := hnot hnone
    refine ⟨fun _ => ?_, fun h => absurd ⟨caller, Function.update_self ..⟩ h⟩
    simp only [Point.holds, and_self, if_true, List.length_append, List.length_singleton, reduceCtorEq, if_false]
    omega
  | stopped =>
    have hone : ¬ ∃ i, Function.update l.callers caller .stopped i = .begun := by
      rintro ⟨i, hi⟩
      by_cases hne : i = caller
      · subst hne; rw [Function.update_self] at hi; cases hi
      · rw [Function.update_of_ne hne] at hi
        exact hne (hs.unique i caller (holds_of_begun hi) (holds_of_begun hp))
    have := hasking ⟨caller, hp⟩
    refine ⟨fun h => absurd h hone, fun _ => ?_⟩
    simp only [reduceCtorEq, false_and, if_false, if_true]
    omega
  | refused => simpa [Point.holds] using hrest (by simp) (by simp)
  | entered => simpa using hrest (by simp) (by simp)
  | written => simpa using hrest (by simp) (by simp)
  | marked => simpa using hrest (by simp) (by simp)
  | dropped => simpa using hrest (by simp) (by simp)

/-- What requests are bound to return stays so, if it does for the one that moves. -/
theorem outcome_update {callers : Nat → Point} {caller : Nat} {p : Point}
    (h : ∀ o, (callers caller).outcome? = some o → p.outcome? = some o) {i : Nat} {o : Except HostError Source}
    (hi : (callers i).outcome? = some o) : (Function.update callers caller p i).outcome? = some o := by
  by_cases hne : i = caller
  · subst hne; rw [Function.update_self]; exact h o hi
  · rw [Function.update_of_ne hne]; exact hi

section Ask

variable {gate : Gate} {caller : Nat} {phase : Phase} {slot slot' : SlotState} {p : Point}

theorem Orderly.came_asked (ho : l.Orderly channel) (ha : Asked slot phase (l.callers caller) p slot')
    (hq : channel'.queue = channel.queue) (hc : channel'.clients = channel.clients) :
    ∀ i outcome, (Function.update l.callers caller p i).outcome? = some outcome →
      (l.asked gate phase caller p).Came channel' i outcome := by
  have hstill {i : Nat} {outcome : Except HostError Source} (h : l.Came channel i outcome) :
      (l.asked gate phase caller p).Came channel' i outcome :=
    h.mono (List.Subset.refl _) fun hclosed => ⟨hq.trans hclosed.1, hc.trans hclosed.2⟩
  refine (Function.forall_update_iff l.callers fun i q => ∀ outcome, q.outcome? = some outcome →
    (l.asked gate phase caller p).Came channel' i outcome).2
      ⟨fun outcome hp => ?_, fun i _ outcome hi => hstill (ho.came i outcome hi)⟩
  rcases ha.outcome_back hp with hold | rfl
  · exact hstill (ho.came caller outcome hold)
  · exact .inl rfl

theorem Orderly.last_asked (ho : l.Orderly channel) (hs : Crowd.Single ⟨slot, l.callers, []⟩)
    (ha : Asked slot phase (l.callers caller) p slot') : ∀ i, Pending (Function.update l.callers caller p i) →
      ∃ earlier, (l.asked gate phase caller p).sessions = earlier ++ [i] ∧ (l.served.map (·.1)).Sublist earlier := by
  unfold asked
  dsimp only
  by_cases hb : phase = .begin ∧ p.holds = true
  · -- whoever waits is the one that took the slot just now, since nobody else holds it
    obtain ⟨-, hfree, -⟩ := ha.begins hb
    rw [if_pos hb]
    exact (Function.forall_update_iff l.callers fun i q => Pending q → ∃ earlier,
      l.sessions ++ [caller] = earlier ++ [i] ∧ (l.served.map (·.1)).Sublist earlier).2
        ⟨fun _ => ⟨_, rfl, ho.order⟩, fun i _ hi => absurd (hs.holder.2 ⟨i, hi.1⟩) hfree⟩
  · rw [if_neg hb]
    exact (Function.forall_update_iff l.callers fun i q => Pending q → ∃ earlier,
      l.sessions = earlier ++ [i] ∧ (l.served.map (·.1)).Sublist earlier).2
        ⟨fun hp => ho.last caller ((ha.pending hp).resolve_left hb), fun i _ => ho.last i⟩

theorem Orderly.once_asked (ho : l.Orderly channel) (ha : Asked slot phase (l.callers caller) p slot') :
    (l.asked gate phase caller p).sessions.Nodup := by
  unfold asked
  dsimp only
  split
  · rename_i hb
    obtain ⟨hout, -, -⟩ := ha.begins hb
    exact ho.once.append (List.nodup_singleton _) fun i hi hc => ho.begun i hi (List.mem_singleton.1 hc ▸ hout)
  · exact ho.once

theorem Orderly.begun_asked (ho : l.Orderly channel) (ha : Asked slot phase (l.callers caller) p slot') :
    ∀ i ∈ (l.asked gate phase caller p).sessions, Function.update l.callers caller p i ≠ .outside := by
  refine fun i hi => (Function.forall_update_iff l.callers fun i q =>
    i ∈ (l.asked gate phase caller p).sessions → q ≠ .outside).2 ⟨fun _ => ha.ne_outside, fun i hne hi => ?_⟩ i hi
  refine ho.begun i ?_
  unfold asked at hi
  dsimp only at hi
  split at hi
  · exact (List.mem_append.1 hi).resolve_right fun hc => hne (List.mem_singleton.1 hc)
  · exact hi

theorem sublist_asked (l : Line) (gate : Gate) (phase : Phase) (caller : Nat) (p : Point) :
    l.sessions.Sublist (l.asked gate phase caller p).sessions := by
  unfold asked
  dsimp only
  split
  · exact List.sublist_append_left ..
  · exact .refl _

end Ask

theorem orderly_ask (ho : l.Orderly channel) {caller : Nat} {phase : Phase} (h : l.ask caller phase = some l') :
    ∃ channel', l'.Orderly channel' ∧ Later l l' channel channel' := by
  obtain ⟨gate, p, slot, hg, hadvance, rfl⟩ := ask_ok h
  have ha := asked_of_advance hadvance
  have hsingle := ho.single gate hg
  have hwire := ho.wire
  rw [Connection.wire_of_gate hg] at hwire
  obtain ⟨channel', hstate, hwire', hqueue, hclients, hreceiving, hstops⟩ := asked_gate hwire phase slot
  -- nothing is served or taken from the queue here; only the caller, the slot and the count of stops change
  refine ⟨channel', {
    wire := hwire'
    receiving := by rw [hreceiving, ho.receiving, hg]; rfl
    conserved := by rw [hqueue]; exact ho.conserved
    single := fun gate' hg' => ?_
    empty := (Function.forall_update_iff l.callers fun _ q => ∀ received, q = .waiting received → received = none).2
      ⟨fun _ => ha.empty, fun i _ => ho.empty i⟩
    came := ho.came_asked ha hqueue hclients
    bound := fun r hr => outcome_update (fun _ => ha.outcome) (ho.bound r hr)
    order := ho.order.trans (sublist_asked ..)
    last := ho.last_asked hsingle ha
    once := ho.once_asked ha
    begun := ho.begun_asked ha
    stops := by rw [hstops]; exact ho.stops_ask hsingle ha }, List.prefix_rfl, fun hc => ⟨hclients.trans hc, rfl⟩⟩
  cases hg'
  rw [hstate]
  exact single_update hsingle hadvance

/-- The holders of the slot are the same where one that holds it still does. -/
theorem single_of_holds {slot : SlotState} {callers : Nat → Point} {caller : Nat} {p : Point}
    (hs : Crowd.Single ⟨slot, callers, []⟩) (h : p.holds = (callers caller).holds) :
    Crowd.Single ⟨slot, Function.update callers caller p, []⟩ := by
  have hsame (i : Nat) : (Function.update callers caller p i).holds = (callers i).holds := by
    by_cases hi : i = caller
    · subst hi; rw [Function.update_self, h]
    · rw [Function.update_of_ne hi]
  refine ⟨?_, fun i j hi hj => hs.unique i j ((hsame i).symm.trans hi) ((hsame j).symm.trans hj)⟩
  simp only [hsame]
  exact hs.holder

section Receive

variable {caller : Nat} {slot : SlotState} {p : Point}

theorem Orderly.came_answered (ho : l.Orderly channel) (hr : Received channel (l.callers caller) p channel') :
    ∀ i outcome, (Function.update l.callers caller p i).outcome? = some outcome →
      (l.answered slot channel' caller p).Came channel' i outcome := by
  refine (Function.forall_update_iff l.callers fun i q => ∀ outcome, q.outcome? = some outcome →
    (l.answered slot channel' caller p).Came channel' i outcome).2
      ⟨fun outcome hp => ?_, fun i _ outcome hi => (ho.came i outcome hi).mono (List.subset_append_left ..)
        fun hc => ⟨hr.queue_nil hc.1, hr.rest.1.trans hc.2⟩⟩
  rcases hr.source_or_closed hp with ⟨source, rfl, hsource⟩ | ⟨rfl, hclosed⟩
  · show (caller, source) ∈ l.served ++ p.source?.toList.map (caller, ·)
    rw [hsource]
    exact List.mem_append_right _ List.mem_cons_self
  · exact .inr ⟨rfl, hclosed⟩

theorem Orderly.bound_answered (ho : l.Orderly channel) (hr : Received channel (l.callers caller) p channel') :
    ∀ r ∈ (l.answered slot channel' caller p).served,
      (Function.update l.callers caller p r.1).outcome? = some (.ok r.2) := by
  intro r hmem
  rcases List.mem_append.1 hmem with hold | hnew
  · -- the caller has not come back before, so it is none of those who were served
    refine outcome_update (fun o hout => ?_) (ho.bound r hold)
    rw [hr.pending.2] at hout
    cases hout
  · obtain ⟨source, hsource, rfl⟩ := List.mem_map.1 hnew
    rw [Function.update_self]
    exact Point.outcome?_of_source? (Option.mem_toList.1 hsource)

theorem Orderly.order_answered (ho : l.Orderly channel) (hr : Received channel (l.callers caller) p channel') :
    ((l.answered slot channel' caller p).served.map (·.1)).Sublist l.sessions := by
  obtain ⟨earlier, hearlier, hsub⟩ := ho.last caller hr.pending
  show ((l.served ++ p.source?.toList.map (caller, ·)).map (·.1)).Sublist l.sessions
  rw [hearlier, List.map_append, List.map_map]
  refine hsub.append ?_
  cases p.source? with
  | none => exact List.nil_sublist _
  | some source => exact .refl _

/-- Nobody waits any more: two requests that wait would both hold the slot. -/
theorem Received.none_pending (hs : Crowd.Single ⟨slot, l.callers, []⟩)
    (hr : Received channel (l.callers caller) p channel') (i : Nat) :
    ¬ Pending (Function.update l.callers caller p i) :=
  (Function.forall_update_iff l.callers fun _ q => ¬ Pending q).2
    ⟨fun hp => hr.outcome_ne hp.2, fun i hi hp => hi (hs.unique i caller hp.1 hr.pending.1)⟩ i

end Receive

theorem orderly_receive (ho : l.Orderly channel) {caller : Nat} (h : l.receive caller = some l') :
    ∃ channel', l'.Orderly channel' ∧ Later l l' channel channel' := by
  obtain ⟨gate, p, channel', hg, hr, rfl⟩ := receive_ok ho.wire h
  obtain ⟨hclients, hreceiving, hstops⟩ := hr.rest
  obtain ⟨waited, hw⟩ := hr.waiting
  -- the request is bound to return something now, which no point before the end is
  have hne {q : Point} (hq : q.outcome? = none) : p ≠ q := fun he => hr.outcome_ne (he ▸ hq)
  refine ⟨channel', {
    wire := rfl
    receiving := by rw [hreceiving, ho.receiving, hg]; rfl
    conserved := ?_
    single := fun gate' hg' => ?_
    empty := (Function.forall_update_iff l.callers fun _ q => ∀ received, q = .waiting received → received = none).2
      ⟨fun _ hp => absurd hp (hne rfl), fun i _ => ho.empty i⟩
    came := ho.came_answered hr
    bound := ho.bound_answered hr
    order := ho.order_answered hr
    last := fun i hi => absurd hi (hr.none_pending (ho.single gate hg) i)
    once := ho.once
    begun := (Function.forall_update_iff l.callers fun i q => i ∈ l.sessions → q ≠ .outside).2
      ⟨fun _ => hne rfl, fun i _ => ho.begun i⟩
    stops := ?_ }, List.prefix_append .., fun hc => ⟨hclients.trans hc, rfl⟩⟩
  · show l.accepted = (l.served ++ p.source?.toList.map (caller, ·)).map (·.2) ++ _
    have hid : (fun r : Nat × Source => r.2) ∘ (caller, ·) = id := rfl
    rw [List.map_append, List.map_map, List.append_assoc, hid, List.map_id, ← hr.queue]
    exact ho.conserved
  · cases hg'
    exact single_of_holds (ho.single gate hg) hr.holds
  · have hasking : (l.answered gate.state channel' caller p).Asking ↔ l.Asking :=
      asking_update (fun hb => by rw [hw] at hb; cases hb) (hne rfl)
    rw [hasking, hstops]
    exact ho.stops

/-! ## Steps and runs -/

theorem orderly_step (ho : l.Orderly channel) {act : Act} (h : l.step act = some l') :
    ∃ channel', l'.Orderly channel' ∧ Later l l' channel channel' := by
  cases act with
  | send name source => exact orderly_send ho h
  | cloneClient =>
    cases h
    refine ⟨_, orderly_cloneClient ho, List.prefix_rfl, fun hc => ⟨?_, rfl⟩⟩
    rw [Channel.cloneClient, if_pos hc, hc]
  | dropClient =>
    cases h
    refine ⟨_, orderly_dropClient ho, List.prefix_rfl, fun hc => ⟨?_, rfl⟩⟩
    rw [Channel.dropClient, hc]
  | stopDebuggee =>
    obtain ⟨gate, hg, rfl⟩ := Option.map_eq_some_iff.1 h
    exact ⟨_, orderly_stop ho hg, List.prefix_rfl, fun hc => ⟨hc, rfl⟩⟩
  | dropGate => cases h; exact orderly_dropGate ho
  | ask caller phase => exact orderly_ask ho h
  | receive caller => exact orderly_receive ho h

theorem orderly_run : ∀ (acts : List Act) {l l' : Line} {channel : Channel}, l.Orderly channel →
    l.run acts = some l' → ∃ channel', l'.Orderly channel' ∧ Later l l' channel channel'
  | [], l, _, channel, ho, h => by
    cases h
    exact ⟨channel, ho, .refl l channel⟩
  | _ :: rest, _, _, _, ho, h => by
    obtain ⟨l₁, h₁, h⟩ := Option.bind_eq_some_iff.1 h
    obtain ⟨channel₁, ho₁, hlater₁⟩ := orderly_step ho h₁
    obtain ⟨channel', ho', hlater'⟩ := orderly_run rest ho₁ h
    exact ⟨channel', ho', hlater₁.trans hlater'⟩

/-- Where nothing is queued and nobody can send, nobody is served any more. -/
theorem Orderly.served_of_closed (ho : l.Orderly channel) (hq : channel.queue = []) (hc : channel.clients = 0)
    {acts : List Act} (h : l.run acts = some l') : l'.served = l.served := by
  obtain ⟨channel', ho', hlater⟩ := orderly_run acts ho h
  obtain ⟨-, haccepted⟩ := hlater.mute hc
  have hlength : l'.served.length + channel'.queue.length = l.served.length := by
    have := congrArg List.length (ho'.conserved.symm.trans (haccepted.trans ho.conserved))
    simpa [hq] using this
  exact (hlater.served.eq_of_length_le (by omega)).symm

end ScriptHost.Debugger.Line
