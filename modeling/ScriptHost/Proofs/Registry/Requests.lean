/-
One call of a table of native modules. Asking for a name comes to one of four things, by the state of its
entry; a new registration gives back the one reference that the table had, and does nothing else to the
engine. Both end where the functions of the host do that they call.
-/
import ScriptHost.Proofs.Host.Basic
import ScriptHost.Proofs.Registry.Native

namespace ScriptHost

open Engine (refOf)

/-! ## References taken and given back -/

theorem Engine.acquire_eq (ref : Ref) (e : Engine) :
    acquire ref e = .ok (⟨ref.slot, e.issued + 1⟩, e.handOut e.heap ref.slot) := rfl

/-- One more reference to a cell of the heap, and no other change. -/
theorem Engine.refs_of_acquire {ref handle : Ref} {e e' : Engine} (h : acquire ref e = .ok (handle, e')) :
    handle.slot = ref.slot ∧
      (0 < e.heap.refs ref.slot → ∀ slot, e'.heap.refs slot = e.heap.refs slot + one ref.slot slot) := by
  rw [acquire_eq] at h
  cases h
  refine ⟨rfl, fun hpos slot => ?_⟩
  have hlt : ref.slot < e.heap.size := by
    by_contra hle
    rw [Heap.refs_eq_zero_of_le (Nat.not_lt.1 hle)] at hpos
    exact Nat.lt_irrefl 0 hpos
  show (e.heap.setRefs ref.slot (e.heap.refs ref.slot + 1)).refs slot = _
  rw [Heap.refs_setRefs]
  by_cases he : slot = ref.slot
  · subst he; rw [if_pos ⟨rfl, hlt⟩, one_self]
  · rw [if_neg fun hc => he hc.1, one_of_ne he, Nat.add_zero]

/-- What is given back was held, and is counted once less. No cell changes what it holds. -/
theorem Engine.refs_of_release {ref : Ref} {e e' : Engine} (h : release ref e = .ok ((), e')) :
    (∀ slot, e'.heap.refs slot + one ref.slot slot = e.heap.refs slot) ∧
    (∀ slot, e'.heap.payload slot = e.heap.payload slot) ∧ e'.releases = e.releases + 1 := by
  rcases hn : e.heap.refs ref.slot with _ | n
  · rw [release_of_zero hn] at h; cases h
  · rw [release_of_succ hn] at h
    cases h
    have hlt : ref.slot < e.heap.size := by
      by_contra hle
      rw [Heap.refs_eq_zero_of_le (Nat.not_lt.1 hle)] at hn
      cases hn
    refine ⟨fun slot => ?_, fun slot => Heap.payload_setRefs .., rfl⟩
    show (e.heap.setRefs ref.slot n).refs slot + _ = _
    rw [Heap.refs_setRefs]
    by_cases he : slot = ref.slot
    · subst he; rw [if_pos ⟨rfl, hlt⟩, one_self, hn]
    · rw [if_neg fun hc => he hc.1, one_of_ne he, Nat.add_zero]

namespace NativeTable

/-! ## One call -/

/-- What asking for a name comes to, by the state of its entry. -/
inductive Got (t : NativeTable) (name : String) (h : Host) :
    Except HostError (Option Ref) → NativeTable → Host → Prop where
  | unknown : t.entries.get? name = none → Got t name h (.ok none) t h
  | again {entry : NativeModule} {exports handle : Ref} {h' : Host} :
      t.entries.get? name = some entry → entry.exports = some exports →
      Host.acquire exports h = .ok (handle, h') → Got t name h (.ok (some handle)) t h'
  | built {entry : NativeModule} {exports handle : Ref} {mid h' : Host} :
      t.entries.get? name = some entry → entry.exports = none →
      entry.init entry.runs h = .ok (.ok exports, mid) →
      Engine.acquire exports mid.engine = .ok (handle, h'.engine) →
      Got t name h (.ok (some handle)) (t.afterRun name entry (some exports)) h'
  | failed {entry : NativeModule} {error : Ref} {mid h' : Host} :
      t.entries.get? name = some entry → entry.exports = none →
      entry.init entry.runs h = .ok (.error error, mid) →
      Engine.release error mid.engine = .ok ((), h'.engine) →
      Got t name h (.error (.nativeLoad name (mid.engine.messageOf error))) (t.afterRun name entry none) h'

theorem got_of_get {t t' : NativeTable} {name : String} {h h' : Host} {result : Except HostError (Option Ref)}
    (hr : t.get name h = .ok ((result, t'), h')) : Got t name h result t' h' := by
  cases hentry : t.entries.get? name with
  | none =>
    rw [get, hentry] at hr
    cases hr
    exact .unknown hentry
  | some entry =>
    rw [get, hentry] at hr
    cases hexports : entry.exports with
    | some exports =>
      simp only [hexports] at hr
      obtain ⟨handle, h₁, hacquire, hr⟩ := exists_of_run_bind hr
      cases hr
      exact .again hentry hexports hacquire
    | none =>
      simp only [hexports] at hr
      obtain ⟨outcome, mid, hinit, hr⟩ := exists_of_run_bind hr
      cases outcome with
      | ok exports =>
        obtain ⟨_, h₁, hemit, hr⟩ := exists_of_run_bind hr
        obtain ⟨handle, h₂, hacquire, hr⟩ := exists_of_run_bind hr
        cases hr
        -- the event in between is none of the engine's business
        have hacquire := Host.engine_of_call hacquire
        rw [Host.engine_of_emit hemit] at hacquire
        exact .built hentry hexports hinit hacquire
      | error error =>
        obtain ⟨reason, h₁, hmessage, hr⟩ := exists_of_run_bind hr
        obtain ⟨_, h₂, hemit, hr⟩ := exists_of_run_bind hr
        obtain ⟨_, h₃, hrelease, hr⟩ := exists_of_run_bind hr
        cases hr
        obtain ⟨rfl, he⟩ := Prod.mk.inj (Except.ok.inj (Host.engine_of_call hmessage))
        have hrelease := Host.engine_of_call hrelease
        rw [Host.engine_of_emit hemit, ← he] at hrelease
        exact .failed hentry hexports hinit hrelease

theorem Got.get?_ne {t t' : NativeTable} {name other : String} {h h' : Host}
    {result : Except HostError (Option Ref)} (hg : Got t name h result t' h') (hne : other ≠ name) :
    t'.entries.get? other = t.entries.get? other := by
  cases hg with
  | unknown => rfl
  | again => rfl
  | built => exact Table.get?_insert_ne _ _ hne
  | failed => exact Table.get?_insert_ne _ _ hne

/-- Asking for a name ends where its builder ends, if the error of a run that failed is held. -/
theorem exists_get_of_init {t : NativeTable} {name : String} {entry : NativeModule} {h mid : Host}
    {result : Except Ref Ref} (hentry : t.entries.get? name = some entry) (hnone : entry.exports = none)
    (hinit : entry.init entry.runs h = .ok (result, mid))
    (hheld : 0 < mid.engine.heap.refs (refOf result).slot) : ∃ r, t.get name h = .ok r := by
  rw [get, hentry]
  simp only [hnone]
  rw [run_bind_of_ok hinit]
  cases result with
  | ok exports => exact ⟨_, rfl⟩
  | error error =>
    obtain ⟨h₁, hmessage, he₁⟩ := Host.messageOf_ok error mid
    obtain ⟨h₂, hemit, he₂⟩ := Host.emit_ok
      ⟨.warn, "native module init failed", [("module", name), ("reason", mid.engine.messageOf error)]⟩ h₁
    obtain ⟨e, he⟩ := Engine.exists_of_held hheld
    rw [← he₁, ← he₂] at he
    obtain ⟨h₃, hrelease, -⟩ := Host.call_ok (fun _ => .release error) he
    change Host.release error h₂ = _ at hrelease
    simp only
    rw [run_bind_of_ok hmessage, run_bind_of_ok hemit, run_bind_of_ok hrelease]
    exact ⟨_, rfl⟩

theorem exists_get_of_exports {t : NativeTable} {name : String} {entry : NativeModule} {exports : Ref} (h : Host)
    (hentry : t.entries.get? name = some entry) (hexports : entry.exports = some exports) :
    ∃ r, t.get name h = .ok r := by
  rw [get, hentry]
  simp only [hexports]
  exact ⟨_, rfl⟩

/-- The reference that a table keeps for a name. -/
def kept (t : NativeTable) (name : String) : Option Ref := (t.entries.get? name).bind (·.exports)

/-- The table with a new registration. -/
def renewed (t : NativeTable) (name : String) (init : ExportsBuilder) : NativeTable :=
  { t with entries := t.entries.insert name ⟨init, 0, none⟩ }

theorem register_eq (t : NativeTable) (name : String) (init : ExportsBuilder) (h : Host) :
    t.register name init h = match t.kept name with
      | some exports => (Host.release exports h).map fun r => (t.renewed name init, r.2)
      | none => .ok (t.renewed name init, h) := by
  unfold register kept
  cases (t.entries.get? name).bind (·.exports) with
  | none => rfl
  | some exports =>
    show (Host.release exports h).bind (fun r => .ok (t.renewed name init, r.2)) = (Host.release exports h).map _
    cases Host.release exports h <;> rfl

/-- A new registration gives back the reference that was kept for the name, once, and nothing else happens
to the engine. -/
theorem of_register {t t' : NativeTable} {name : String} {init : ExportsBuilder} {h h' : Host}
    (hr : t.register name init h = .ok (t', h')) : t' = t.renewed name init ∧
      (∀ slot, h'.engine.heap.refs slot + tally (t.kept name).toList slot = h.engine.heap.refs slot) ∧
      (∀ slot, h'.engine.heap.payload slot = h.engine.heap.payload slot) ∧
      h'.engine.releases = h.engine.releases + (t.kept name).toList.length := by
  rw [register_eq] at hr
  cases hk : t.kept name with
  | none =>
    rw [hk] at hr
    cases hr
    exact ⟨rfl, fun _ => rfl, fun _ => rfl, rfl⟩
  | some exports =>
    rw [hk] at hr
    obtain ⟨⟨_, h₁⟩, hrelease, hr⟩ := exists_of_map_ok hr
    cases hr
    obtain ⟨hrefs, hpayload, hreleases⟩ := Engine.refs_of_release (Host.engine_of_call hrelease)
    refine ⟨rfl, fun slot => ?_, hpayload, hreleases⟩
    rw [Option.toList_some, tally_cons, tally_nil, zero_add]
    exact hrefs slot

/-- What the new registration gives back is what the table keeps less. -/
theorem tally_cached_renewed (t : NativeTable) (name : String) (init : ExportsBuilder) :
    tally (t.renewed name init).cached + tally (t.kept name).toList = tally t.cached := by
  show tally ((Table.insertRow name _ t.entries.rows).filterMap (·.2.exports)) + _ = _
  unfold kept cached
  cases hentry : t.entries.get? name with
  | none =>
    obtain ⟨before, after, hrows, hins⟩ := Table.insertRow_of_lookup_none hentry
    rw [hins, hrows]
    simp only [List.filterMap_append, List.filterMap_cons]
    rw [Option.bind_none, Option.toList_none, tally_nil, add_zero]
  | some entry =>
    obtain ⟨before, after, hrows, hins⟩ :=
      Table.insertRow_of_mem t.entries.sorted ((Table.get?_eq_some_iff ..).1 hentry)
    rw [hins, hrows]
    simp only [List.filterMap_append, List.filterMap_cons, Option.bind_some]
    cases entry.exports with
    | none => rw [Option.toList_none, tally_nil, add_zero]
    | some exports =>
      simp only [Option.toList_some, tally_append, tally_cons, tally_nil, zero_add]
      rw [add_assoc]

/-- Nothing that callers see of a table has changed: its loader, its names, and for each name the builder
and what it built. Only how often builders ran may differ. -/
structure Alike (t t' : NativeTable) : Prop where
  loader : t'.loader = t.loader
  names : t'.names = t.names
  modules : ∀ name, (t'.entries.get? name).map (fun m => (m.init, m.exports)) =
    (t.entries.get? name).map fun m => (m.init, m.exports)

theorem Alike.afterRun {t : NativeTable} {name : String} {entry : NativeModule}
    (hentry : t.entries.get? name = some entry) (hnone : entry.exports = none) :
    t.Alike (t.afterRun name entry none) := by
  refine ⟨rfl, Table.names_insert_of_get? hentry _, fun other => ?_⟩
  show ((t.entries.insert name _).get? other).map _ = _
  rw [Table.get?_insert]
  split
  · rename_i he
    subst he
    rw [hentry, Option.map_some, Option.map_some, hnone]
  · rfl

end NativeTable

end ScriptHost
