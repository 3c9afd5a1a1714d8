/-
What running the operations of a bridge comes to, one equation for each way of composing them. An
operation that fails keeps what it did to the bridge and to the host.
-/
import ScriptHost.Bridge
import ScriptHost.Proofs.Engine.Basic

namespace ScriptHost.Bridge

variable {α β : Type} (b : Bridge) (host : Host)

theorem run_bind (op : BridgeM α) (next : α → BridgeM β) : (op >>= next).run b host =
    (op.run b host).bind fun r => match r.1.1 with
      | .ok a => (next a).run r.1.2 r.2
      | .error e => .ok ((.error e, r.1.2), r.2) := by
  show (op.run b host >>= fun r => _) = _
  rcases op.run b host with _ | ⟨⟨_ | _, _⟩, _⟩ <;> rfl

theorem run_get (next : Bridge → BridgeM α) : (get >>= next).run b host = (next b).run b host := rfl

theorem run_lift (op : HostM α) : (liftM op : BridgeM α).run b host =
    (op host).bind fun r => .ok ((.ok r.1, b), r.2) := by
  show ((op host >>= fun r => _) >>= fun r => _) = _
  rcases op host with _ | _ <;> rfl

theorem run_attempt (op : Attempt α) : (attempt op).run b host =
    (op.run host).bind fun r => .ok ((r.1, b), r.2) := by
  show (op.run host >>= fun r => _) = _
  rcases op.run host with _ | _ <;> rfl

theorem run_attempt_bind (op : Attempt α) (next : α → BridgeM β) : (attempt op >>= next).run b host =
    (op.run host).bind fun r => match r.1 with
      | .ok a => (next a).run b r.2
      | .error e => .ok ((.error e, b), r.2) := by
  rw [run_bind, run_attempt]
  rcases op.run host with _ | _ <;> rfl

theorem run_outcomeOf (op : BridgeM α) : (outcomeOf op).run b host =
    (op.run b host).bind fun r => .ok ((.ok r.1.1, r.1.2), r.2) := by
  show (op.run b host >>= fun r => _) = _
  rcases op.run b host with _ | _ <;> rfl

theorem run_holding (ref : Ref) (work : BridgeM α) : (holding ref work).run b host =
    (work.run b host).bind fun r => (Host.release ref r.2).bind fun s => .ok (r.1, s.2) := by
  show (work.run b host >>= fun r => _) = _
  rcases work.run b host with _ | r
  · rfl
  · show ((Host.release ref r.2 >>= fun s => _) >>= fun s => _) = (Host.release ref r.2).bind fun s => _
    rcases Host.release ref r.2 with _ | _ <;> rfl

theorem run_native (id : String) : (native id).run b host =
    (b.registry.natives.get id host).bind fun r =>
      .ok ((r.1.1, { b with registry := { b.registry with natives := r.1.2 } }), r.2) := by
  show (((b.registry.natives.get id host >>= fun r => _) >>= fun r => _) >>= fun r => _) = _
  rcases b.registry.natives.get id host with _ | ⟨⟨_ | _, _⟩, _⟩ <;> rfl

/-! ## Operations that end, taken apart -/

section Ends

variable {b b' : Bridge} {host host' : Host}

theorem of_run_attempt {op : Attempt α} {r : Except HostError α}
    (hr : (attempt op).run b host = .ok ((r, b'), host')) : op.run host = .ok (r, host') ∧ b' = b := by
  rw [run_attempt] at hr
  obtain ⟨⟨_, _⟩, hop, he⟩ := exists_of_bind_ok hr
  cases he
  exact ⟨hop, rfl⟩

theorem of_run_lift {op : HostM α} {r : Except HostError α}
    (hr : (liftM op : BridgeM α).run b host = .ok ((r, b'), host')) :
    ∃ a, r = .ok a ∧ op host = .ok (a, host') ∧ b' = b := by
  rw [run_lift] at hr
  obtain ⟨⟨a, _⟩, hop, he⟩ := exists_of_bind_ok hr
  cases he
  exact ⟨a, rfl, hop, rfl⟩

theorem of_run_holding {ref : Ref} {work : BridgeM α} {r : Except HostError α}
    (hr : (holding ref work).run b host = .ok ((r, b'), host')) :
    ∃ host₁, work.run b host = .ok ((r, b'), host₁) ∧ Host.release ref host₁ = .ok ((), host') := by
  rw [run_holding] at hr
  obtain ⟨⟨⟨_, _⟩, host₁⟩, hwork, hr⟩ := exists_of_bind_ok hr
  obtain ⟨⟨_, _⟩, hrelease, he⟩ := exists_of_bind_ok hr
  cases he
  exact ⟨host₁, hwork, hrelease⟩

/-- An operation that succeeds, in two parts that do. -/
theorem exists_of_ok_bind {op : BridgeM α} {next : α → BridgeM β} {v : β}
    (hr : (op >>= next).run b host = .ok ((.ok v, b'), host')) : ∃ a b₁ host₁,
      op.run b host = .ok ((.ok a, b₁), host₁) ∧ (next a).run b₁ host₁ = .ok ((.ok v, b'), host') := by
  rw [run_bind] at hr
  obtain ⟨⟨⟨_ | a, b₁⟩, host₁⟩, hop, hr⟩ := exists_of_bind_ok hr
  · cases hr
  · exact ⟨a, b₁, host₁, hop, hr⟩

/-- A call of the host in front of an operation that ends. -/
theorem of_run_call {x : HostM α} {next : α → BridgeM β} {result : (Except HostError β × Bridge) × Host}
    (hr : (liftM x >>= next).run b host = .ok result) :
    ∃ a host₁, x host = .ok (a, host₁) ∧ (next a).run b host₁ = .ok result := by
  rw [run_bind] at hr
  obtain ⟨⟨⟨r, b₁⟩, host₁⟩, hlift, hrest⟩ := exists_of_bind_ok hr
  obtain ⟨a, rfl, hx, rfl⟩ := of_run_lift hlift
  exact ⟨a, host₁, hx, hrest⟩

/-- An attempt in front of an operation that ends. -/
theorem of_run_attempt_bind {op : Attempt α} {next : α → BridgeM β} {result : (Except HostError β × Bridge) × Host}
    (hr : (attempt op >>= next).run b host = .ok result) :
    ∃ r host₁, op.run host = .ok (r, host₁) ∧ (match r with
      | .ok a => (next a).run b host₁
      | .error e => .ok ((.error e, b), host₁)) = .ok result := by
  rw [run_attempt_bind] at hr
  obtain ⟨⟨r, host₁⟩, hop, hrest⟩ := exists_of_bind_ok hr
  exact ⟨r, host₁, hop, hrest⟩

theorem reportLoad_ok {id : String} {succeeded : Bool} {r : Except HostError Unit}
    (hr : (reportLoad id succeeded).run b host = .ok ((r, b'), host')) : r = .ok () := by
  change ((if b.config.loadstat then _ else _ : BridgeM Unit).run b host) = _ at hr
  split at hr
  · obtain ⟨_, rfl, -, -⟩ := of_run_lift hr
    rfl
  · cases hr
    rfl

/-- The outcome of an attempt is passed on after the load is reported. -/
theorem of_run_reported {id : String} {op : Attempt α} {r : Except HostError α} (hr : (do
      let result ← outcomeOf (attempt op)
      reportLoad id result.isOk
      ExceptT.mk (pure result) : BridgeM α).run b host = .ok ((r, b'), host')) :
    ∃ host₁, op.run host = .ok (r, host₁) ∧ (reportLoad id r.isOk).run b host₁ = .ok ((.ok (), b'), host') := by
  rw [run_bind, run_outcomeOf] at hr
  obtain ⟨_, hout, hreported⟩ := exists_of_bind_ok hr
  obtain ⟨⟨⟨result, b₁⟩, host₁⟩, hattempt, he₁⟩ := exists_of_bind_ok hout
  cases he₁
  obtain ⟨hop, rfl⟩ := of_run_attempt hattempt
  change (reportLoad id result.isOk >>= fun _ => ExceptT.mk (pure result) : BridgeM α).run b₁ host₁ = _ at hreported
  rw [run_bind] at hreported
  obtain ⟨⟨⟨reported, b₂⟩, host₂⟩, hreport, hlast⟩ := exists_of_bind_ok hreported
  -- the report cannot fail, so the outcome that is passed on is that of the operation
  obtain rfl := reportLoad_ok hreport
  cases hlast
  exact ⟨host₁, hop, hreport⟩

end Ends

end ScriptHost.Bridge
