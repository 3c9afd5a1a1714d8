/-
What a call of the host comes to: the engine does the work, and the call is written down.
-/
import ScriptHost.Host.Basic
import ScriptHost.Proofs.Engine.Basic

namespace ScriptHost

/-- A computation that ends in two parts, each of which ends. -/
theorem exists_of_run_bind {σ α β : Type} {x : StateT σ (Except Halt) α} {f : α → StateT σ (Except Halt) β}
    {s : σ} {r : β × σ} (h : (x >>= f) s = .ok r) : ∃ a s₁, x s = .ok (a, s₁) ∧ f a s₁ = .ok r := by
  obtain ⟨⟨a, s₁⟩, hx, hf⟩ := exists_of_bind_ok h
  exact ⟨a, s₁, hx, hf⟩

theorem exists_of_run_map {σ α β : Type} {x : StateT σ (Except Halt) α} {f : α → β} {s s' : σ} {b : β}
    (h : (f <$> x) s = .ok (b, s')) : ∃ a, x s = .ok (a, s') ∧ f a = b := by
  obtain ⟨⟨a, s₁⟩, hx, hf⟩ := exists_of_bind_ok h
  cases hf
  exact ⟨a, hx, rfl⟩

theorem run_bind_of_ok {σ α β : Type} {x : StateT σ (Except Halt) α} {f : α → StateT σ (Except Halt) β}
    {s s₁ : σ} {a : α} (h : x s = .ok (a, s₁)) : (x >>= f) s = f a s₁ := by
  show (x s).bind (fun r => f r.1 r.2) = _
  rw [h]
  rfl

namespace Host

variable {α : Type}

theorem call_eq (op : EngineM α) (entry : α → EngineCall) (h : Host) : call op entry h =
    (op h.engine).map fun r => (r.1, { h with engine := r.2, transcript := h.transcript.push (entry r.1) }) := by
  show (onEngine op h >>= fun r => _) = _
  unfold onEngine
  rcases op h.engine with _ | _ <;> rfl

/-- The engine after a call. -/
theorem engine_of_call {op : EngineM α} {entry : α → EngineCall} {h h' : Host} {a : α}
    (hr : call op entry h = .ok (a, h')) : op h.engine = .ok (a, h'.engine) := by
  rw [call_eq] at hr
  obtain ⟨⟨_, _⟩, hop, he⟩ := exists_of_map_ok hr
  cases he
  exact hop

theorem engine_of_emit {event : Event} {h h' : Host} {u : Unit} (hr : emit event h = .ok (u, h')) :
    h'.engine = h.engine := by
  cases hr
  rfl

theorem call_of_ok {op : EngineM α} (entry : α → EngineCall) {h : Host} {a : α} {e : Engine}
    (hop : op h.engine = .ok (a, e)) :
    call op entry h = .ok (a, { h with engine := e, transcript := h.transcript.push (entry a) }) := by
  rw [call_eq, hop]
  rfl

/-- A call ends where the engine does. -/
theorem call_ok {op : EngineM α} (entry : α → EngineCall) {h : Host} {a : α} {e : Engine}
    (hop : op h.engine = .ok (a, e)) : ∃ h', call op entry h = .ok (a, h') ∧ h'.engine = e :=
  ⟨_, call_of_ok entry hop, rfl⟩

theorem emit_ok (event : Event) (h : Host) : ∃ h', emit event h = .ok ((), h') ∧ h'.engine = h.engine :=
  ⟨_, rfl, rfl⟩

theorem messageOf_ok (error : Ref) (h : Host) :
    ∃ h', messageOf error h = .ok (h.engine.messageOf error, h') ∧ h'.engine = h.engine :=
  ⟨_, rfl, rfl⟩

end Host

namespace Attempt

variable {α β : Type}

/-- An attempt that begins with a computation of the host, taken apart. -/
theorem exists_of_lift_bind {op : HostM α} {next : α → Attempt β} {h : Host}
    {r : Except HostError β × Host} (hr : ((liftM op : Attempt α) >>= next).run h = .ok r) :
    ∃ a h₁, op h = .ok (a, h₁) ∧ (next a).run h₁ = .ok r := by
  change ((op h >>= fun x => _) >>= fun x => _) = _ at hr
  rcases hop : op h with _ | ⟨a, h₁⟩
  · rw [hop] at hr; cases hr
  · rw [hop] at hr; exact ⟨a, h₁, rfl, hr⟩

/-- An attempt that succeeds, in two parts that do. -/
theorem exists_of_ok_bind {op : Attempt α} {next : α → Attempt β} {h h' : Host} {v : β}
    (hr : (op >>= next).run h = .ok (.ok v, h')) :
    ∃ a h₁, op.run h = .ok (.ok a, h₁) ∧ (next a).run h₁ = .ok (.ok v, h') := by
  obtain ⟨result, h₁, hop, hr⟩ := exists_of_run_bind (x := op.run) hr
  cases result with
  | ok a => exact ⟨a, h₁, hop, hr⟩
  | error e => cases hr

/-- Work that was done while a reference was held, before that is given back. -/
theorem exists_of_holding {ref : Ref} {work : Attempt α} {h h' : Host} {r : Except HostError α}
    (hr : (holding ref work).run h = .ok (r, h')) :
    ∃ h₁, work.run h = .ok (r, h₁) ∧ Host.release ref h₁ = .ok ((), h') := by
  obtain ⟨result, h₁, hwork, hr⟩ := exists_of_run_bind (x := work.run) hr
  obtain ⟨_, h₂, hrelease, hr⟩ := exists_of_run_bind hr
  cases hr
  exact ⟨h₁, hwork, hrelease⟩

/-- A call of the host in front of an attempt. -/
theorem run_call {op : HostM α} {next : α → Attempt β} {h h₁ : Host} {a : α} (hop : op h = .ok (a, h₁)) :
    ((liftM op : Attempt α) >>= next).run h = (next a).run h₁ := by
  show ((op h >>= fun x => _) >>= fun x => _) = _
  rw [hop]
  rfl

/-- An attempt in front of another one. -/
theorem run_ok {op : Attempt α} {next : α → Attempt β} {h h₁ : Host} {a : α} (hop : op.run h = .ok (.ok a, h₁)) :
    (op >>= next).run h = (next a).run h₁ :=
  run_bind_of_ok (x := op.run) hop

theorem run_error {op : Attempt α} {next : α → Attempt β} {h h₁ : Host} {e : HostError}
    (hop : op.run h = .ok (.error e, h₁)) : (op >>= next).run h = .ok (.error e, h₁) :=
  run_bind_of_ok (x := op.run) hop

/-- Work while a reference is held. -/
theorem run_holding {ref : Ref} {work : Attempt α} {h h₁ h' : Host} {r : Except HostError α}
    (hwork : work.run h = .ok (r, h₁)) (hrelease : Host.release ref h₁ = .ok ((), h')) :
    (holding ref work).run h = .ok (r, h') := by
  show (work.run >>= fun outcome => Host.release ref >>= fun _ => pure outcome) h = _
  rw [run_bind_of_ok hwork, run_bind_of_ok hrelease]
  rfl

/-- An error value that is held is given back, and its message goes into the error of the attempt. -/
theorem run_refuse (error : Ref) {message : String} {h : Host} (hheld : 0 < h.engine.heap.refs error.slot)
    (hpayload : h.engine.heap.payload error.slot = .error message) (refusal : String → HostError) :
    ∃ h', (holding error do
        let message ← Host.messageOf error
        throw (refusal message) : Attempt α).run h = .ok (.error (refusal message), h') ∧
      Engine.release error h.engine = .ok ((), h'.engine) := by
  obtain ⟨h₁, hmessage, he⟩ := Host.messageOf_ok error h
  rw [Engine.messageOf, hpayload] at hmessage
  -- reading the message does not touch the counts, so the error can still be given back
  obtain ⟨e, hrelease⟩ := Engine.exists_of_held hheld
  rw [← he] at hrelease
  obtain ⟨h', hcall, rfl⟩ := Host.call_ok (fun _ => .release error) hrelease
  rw [← he]
  exact ⟨h', run_holding (run_call hmessage) hcall, hrelease⟩

end Attempt

end ScriptHost
