/-
Module objects. A module object that has an id is an object, so its properties can be read and written unless
their names are guarded, and it remains one while nothing is written. Nothing that is done with them asks the
engine for a factory, and whatever fails there is a module that is refused.
-/
import ScriptHost.Proofs.Bridge.Wholeness
import ScriptHost.Proofs.Host.Work
import Mathlib.Tactic

namespace ScriptHost

/-! ## Properties of objects -/

section Objects

variable {h h' : Host} {object value : Ref} {name : String} {properties : Table Slot}

theorem Run.readProperty_of_object {slot : Slot} {heap : Heap} (ho : heap.payload slot = .object properties)
    (name : String) : (Run.readProperty slot name).run heap = match properties.get? name with
      | some next => (.ok next, heap)
      | none => (.ok heap.size, heap.push .undefined) := by
  rw [Run.readProperty, Region.run_get, ho]
  dsimp only
  cases properties.get? name <;> rfl

/-- Properties of objects are read, unless they are guarded, and what is there is found. -/
theorem Host.readProperty_of_object {result : Except Ref Ref}
    (ho : h.engine.heap.payload object.slot = .object properties) (hg : name ∉ h.guards.reads)
    (hr : readProperty object name h = .ok (result, h')) :
    ∃ value, result = .ok value ∧ ∀ slot, properties.get? name = some slot → value.slot = slot := by
  change call (if name ∈ h.guards.reads then _ else _) _ h = _ at hr
  rw [if_neg hg] at hr
  have hop := engine_of_call hr
  change Engine.runOut _ _ = _ at hop
  rw [Engine.runOut_eq, Run.readProperty_of_object ho] at hop
  cases hget : properties.get? name with
  | some next =>
    rw [hget] at hop
    obtain ⟨rfl, -⟩ := Prod.mk.inj (Except.ok.inj hop)
    exact ⟨_, rfl, fun slot hslot => Option.some.inj hslot⟩
  | none =>
    rw [hget] at hop
    obtain ⟨rfl, -⟩ := Prod.mk.inj (Except.ok.inj hop)
    exact ⟨_, rfl, nofun⟩

theorem Host.writeProperty_of_object {result : Except Ref Unit}
    (ho : h.engine.heap.payload object.slot = .object properties) (hg : name ∉ h.guards.writes)
    (hr : writeProperty object name value h = .ok (result, h')) : result = .ok () := by
  change call (if name ∈ h.guards.writes then _ else _) _ h = _ at hr
  rw [if_neg hg] at hr
  have hop := engine_of_call hr
  rw [Engine.writeProperty_of_object value ho] at hop
  exact (Prod.mk.inj (Except.ok.inj hop)).1.symm

end Objects

/-- Neither ids nor exports of modules are guarded. -/
structure Host.Unguarded (h : Host) : Prop where
  id : "id" ∉ h.guards.reads
  exports : "exports" ∉ h.guards.reads
  written : "exports" ∉ h.guards.writes

theorem Host.Unguarded.after {h h' : Host} {w : Work} (hg : h.Unguarded) (hd : h.Does w h') : h'.Unguarded :=
  ⟨hd.guards ▸ hg.id, hd.guards ▸ hg.exports, hd.guards ▸ hg.written⟩

namespace Bridge

variable {α : Type}

/-- Nothing is asked of the engine, and what fails is a module that is refused. -/
def Refuses (r : Except HostError α) (w : Work) : Prop :=
  Good (fun _ => True) (fun e => ∃ text, e = .invalidModule text) r ∧ w = 0

theorem takes_refuseProperty (name : String) (error : Ref) :
    Attempt.Takes Refuses (refuseProperty name error : Attempt α) :=
  Attempt.takes_holding (Attempt.takes_call (Host.idle_messageOf error) fun _ =>
    Attempt.takes_throw ⟨⟨_, rfl⟩, rfl⟩)

theorem takes_readProperty (object : Ref) (name : String) : Attempt.Takes Refuses (readProperty object name) := by
  refine Attempt.takes_call (Host.idle_readProperty object name) fun result => ?_
  cases result with
  | ok value => exact Attempt.takes_ok ⟨trivial, rfl⟩
  | error error => exact takes_refuseProperty name error

theorem takes_writeProperty (object : Ref) (name : String) (value : Ref) :
    Attempt.Takes Refuses (writeProperty object name value) := by
  refine Attempt.takes_call (Host.idle_writeProperty object name value) fun result => ?_
  cases result with
  | ok value => exact Attempt.takes_ok ⟨trivial, rfl⟩
  | error error => exact takes_refuseProperty name error

theorem takes_idOf (module : Ref) : Attempt.Takes Refuses (idOf module) := by
  refine Attempt.takes_bind (takes_readProperty module "id") (fun value w hw => ?_) fun e w hw => hw
  rw [hw.2]
  simp only [zero_add]
  refine Attempt.takes_holding (Attempt.takes_call (Host.idle_textOf value) fun text => ?_)
  cases text with
  | some text => exact Attempt.takes_ok ⟨trivial, rfl⟩
  | none => exact Attempt.takes_throw ⟨⟨_, rfl⟩, rfl⟩

section Properties

variable {h h' : Host} {object value : Ref} {name : String} {properties : Table Slot}

theorem readProperty_of_object {r : Except HostError Ref} (ho : h.engine.heap.payload object.slot = .object properties)
    (hg : name ∉ h.guards.reads) (hr : (readProperty object name).run h = .ok (r, h')) :
    ∃ value, r = .ok value ∧ ∀ slot, properties.get? name = some slot → value.slot = slot := by
  obtain ⟨result, h₁, hread, hr⟩ := Attempt.exists_of_lift_bind hr
  obtain ⟨value, rfl, hvalue⟩ := Host.readProperty_of_object ho hg hread
  cases hr
  exact ⟨value, rfl, hvalue⟩

theorem writeProperty_of_object {r : Except HostError Unit}
    (ho : h.engine.heap.payload object.slot = .object properties) (hg : name ∉ h.guards.writes)
    (hr : (writeProperty object name value).run h = .ok (r, h')) : r = .ok () := by
  obtain ⟨result, h₁, hwrite, hr⟩ := Attempt.exists_of_lift_bind hr
  obtain rfl := Host.writeProperty_of_object ho hg hwrite
  cases hr
  rfl

end Properties

/-- A module object that has an id is an object, with a string under that name. -/
theorem exists_of_idAt? {e : Engine} {module : Ref} {id : String} (h : idAt? e module = some id) :
    ∃ properties slot, e.heap.payload module.slot = .object properties ∧ properties.get? "id" = some slot ∧
      e.heap.payload slot = .text id := by
  unfold idAt? at h
  obtain ⟨slot, hget, htext⟩ := Option.bind_eq_some_iff.1 h
  -- whatever has a property is an object
  have hobject : ∃ properties, e.heap.payload module.slot = .object properties := by
    unfold Heap.properties at hget
    split at hget
    · rename_i properties ho
      exact ⟨properties, ho⟩
    · cases hget
  obtain ⟨properties, ho⟩ := hobject
  rw [Heap.properties_of_object ho] at hget
  refine ⟨properties, slot, ho, hget, ?_⟩
  unfold Heap.text? at htext
  split at htext
  · rename_i hpayload
    cases htext
    exact hpayload
  · cases htext

/-- The id of a module object is found where it is a string, and nothing else is an id. -/
theorem idOf_iff {h h' : Host} {module : Ref} {r : Except HostError String} (hg : "id" ∉ h.guards.reads)
    (hr : (idOf module).run h = .ok (r, h')) :
    h.Does 0 h' ∧ match idAt? h.engine module with
      | some id => r = .ok id
      | none => ∃ text, r = .error (.invalidModule text) := by
  obtain ⟨w, hdoes, hrefuses, rfl⟩ := takes_idOf module h r h' hr
  refine ⟨hdoes, ?_⟩
  cases hid : idAt? h.engine module with
  | none =>
    cases r with
    | error e => exact hrefuses.imp fun _ => congrArg _
    | ok id =>
      rw [idOf_ok hr] at hid
      cases hid
  | some id =>
    obtain ⟨properties, slot, ho, hget, htext⟩ := exists_of_idAt? hid
    obtain ⟨result, h₁, hread, hr⟩ := exists_of_run_bind (x := (readProperty module "id").run) hr
    obtain ⟨value, rfl, hvalue⟩ := readProperty_of_object ho hg hread
    obtain rfl := hvalue slot hget
    -- the reference that was read is a new one, but to a value that was there
    have hquiet : h.engine.Quiet h₁.engine := quiet_readProperty module "id" h _ h₁ hread
    obtain ⟨h₂, hr, -⟩ := Attempt.exists_of_holding hr
    obtain ⟨text, h₃, hcall, hr⟩ := Attempt.exists_of_lift_bind hr
    obtain ⟨rfl, -⟩ := Prod.mk.inj (Except.ok.inj (Host.engine_of_call hcall))
    have hlt : value.slot < h.engine.heap.size := Heap.lt_size_of_payload_ne (by rw [htext]; exact nofun)
    have hread : h₁.engine.textOf? value = some id := by
      rw [Engine.textOf?, Heap.text?, hquiet.heap.payload _ hlt, htext]
    rw [hread] at hr
    cases hr
    rfl

end Bridge

end ScriptHost
