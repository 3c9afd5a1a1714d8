/-
Listings are exact and all or nothing. The target gets one new value, which is true, under each listed id,
and nothing else that was there is changed; where the target is no object the first write fails, nothing is
changed, and the error names the least id. Either way the flag and the error are given back, so that the
counts of references are what they were, and no native module is asked for.
-/
import ScriptHost.Proofs.Bridge.Basic
import ScriptHost.Proofs.Engine.Quiet
import ScriptHost.Proofs.Registry.Views

namespace ScriptHost

/-! ## What a listing comes to -/

/-- The value is an object. -/
def Heap.IsObject (h : Heap) (slot : Slot) : Prop := ∃ properties, h.payload slot = .object properties

/-- Each of the ids stands in the target with one new value, which is true; nothing else that was there is
changed. -/
structure Heap.Marked (ids : String → Prop) (target : Slot) (h h' : Heap) : Prop where
  flag : h'.payload h.size = .bool true
  object : h.IsObject target → h'.IsObject target
  listed : ∀ id, ids id → (h'.properties target).get? id = some h.size
  unlisted : ∀ name, ¬ ids name → (h'.properties target).get? name = (h.properties target).get? name
  others : ∀ slot < h.size, slot ≠ target ∨ ¬ h.IsObject target → h'.payload slot = h.payload slot

/-- What comes of listing ids in a target: it succeeds where the target is an object or there is nothing to
list, and else changes nothing that was there and names the least id. No reference is left over. -/
structure Listed (ids : String → Prop) (target : Ref) (h : Host) (outcome : Except HostError Unit)
    (h' : Host) : Prop where
  succeeds : outcome = .ok () ↔ h.engine.heap.IsObject target.slot ∨ ∀ id, ¬ ids id
  marked : outcome = .ok () → h.engine.heap.Marked ids target.slot h'.engine.heap
  refused : ∀ e, outcome = .error e → (∀ slot < h.engine.heap.size,
      h'.engine.heap.payload slot = h.engine.heap.payload slot) ∧
    ∃ least, ids least ∧ (∀ id, ids id → id = least ∨ Text.encode least < Text.encode id) ∧
      e = .invalidModule ("cannot access '" ++ least ++ "': " ++ (RuntimeError.writeToNonObject least).message)
  refs : ∀ slot, h'.engine.heap.refs slot = h.engine.heap.refs slot

theorem Listed.of_ok {ids : String → Prop} {target : Ref} {h h' : Host}
    (hc : h.engine.heap.IsObject target.slot ∨ ∀ id, ¬ ids id)
    (hm : h.engine.heap.Marked ids target.slot h'.engine.heap)
    (hr : ∀ slot, h'.engine.heap.refs slot = h.engine.heap.refs slot) : Listed ids target h (.ok ()) h' where
  succeeds := ⟨fun _ => hc, fun _ => rfl⟩
  marked _ := hm
  refused e he := by cases he
  refs := hr

/-! ## Single operations -/

namespace Engine

theorem writeProperty_of_not_object {object : Ref} (value : Ref) (name : String) {e : Engine}
    (ho : ¬ e.heap.IsObject object.slot) : writeProperty object name value e =
      .ok (.error ⟨e.heap.size, e.issued + 1⟩,
        e.handOut (e.heap.push (.error (RuntimeError.writeToNonObject name).message)) e.heap.size) := by
  rw [writeProperty_eq, Run.writeProperty, Region.run_get]
  cases hp : e.heap.payload object.slot with
  | object properties => exact absurd ⟨properties, hp⟩ ho
  | _ => rfl

end Engine

namespace Host

theorem writeProperty_unguarded {object value : Ref} {name : String} {h : Host} {e : Engine}
    {result : Except Ref Unit} (hg : name ∉ h.guards.writes)
    (hop : Engine.writeProperty object name value h.engine = .ok (result, e)) :
    ∃ h', writeProperty object name value h = .ok (result, h') ∧ h'.engine = e ∧ h'.guards = h.guards := by
  refine ⟨{ h with engine := e, transcript := h.transcript.push (.writeProperty object name value result) },
    ?_, rfl, rfl⟩
  show call (if name ∈ h.guards.writes then _ else _) _ h = _
  rw [if_neg hg]
  exact call_of_ok (.writeProperty object name value) hop

theorem newBool_eq (value : Bool) (h : Host) : ∃ h',
    newBool value h = .ok (⟨h.engine.heap.size, h.engine.issued + 1⟩, h') ∧ h'.guards = h.guards ∧
      h'.engine = h.engine.handOut (h.engine.heap.push (.bool value)) h.engine.heap.size :=
  ⟨_, rfl, rfl, rfl⟩

end Host

namespace Bridge

/-! ## Writes to an object -/

/-- What writes of one value under some names do to a heap. -/
structure Wrote (names : List String) (target value : Slot) (h h' : Heap) : Prop where
  object : h'.IsObject target
  properties : ∀ name, (h'.properties target).get? name =
    if name ∈ names then some value else (h.properties target).get? name
  others : ∀ slot, slot ≠ target → h'.payload slot = h.payload slot
  refs : ∀ slot, h'.refs slot = h.refs slot

theorem Wrote.nil {target value : Slot} {h : Heap} (ho : h.IsObject target) : Wrote [] target value h h :=
  ⟨ho, fun _ => (if_neg List.not_mem_nil).symm, fun _ _ => rfl, fun _ => rfl⟩

theorem Wrote.cons {name : String} {names : List String} {target value : Slot} {h h' : Heap}
    {properties : Table Slot} (ho : h.payload target = .object properties) (hlt : target < h.size)
    (hw : Wrote names target value (h.setPayload target (.object (properties.insert name value))) h') :
    Wrote (name :: names) target value h h' := by
  have hset : (h.setPayload target (.object (properties.insert name value))).payload target =
      .object (properties.insert name value) := by
    rw [Heap.payload_setPayload, if_pos ⟨rfl, hlt⟩]
  refine ⟨hw.object, fun other => ?_, fun slot hne => ?_, fun slot => ?_⟩
  · rw [hw.properties, Heap.properties_of_object hset, Heap.properties_of_object ho, Table.get?_insert]
    by_cases hname : other = name
    · subst hname; simp
    · simp [hname]
  · rw [hw.others slot hne, Heap.payload_setPayload, if_neg fun hc => hne hc.1]
  · rw [hw.refs, Heap.refs_setPayload]

theorem lt_size_of_isObject {h : Heap} {slot : Slot} (ho : h.IsObject slot) : slot < h.size := by
  obtain ⟨properties, hp⟩ := ho
  exact Heap.lt_size_of_payload_ne (by rw [hp]; exact nofun)

/-- One name after the other is written, and none fails. -/
theorem setEach_of_object {target : Ref} (flag : Ref) : ∀ (names : List String) {h : Host},
    (∀ name ∈ names, name ∉ h.guards.writes) → h.engine.heap.IsObject target.slot →
    ∃ h', (setEach target flag names).run h = .ok (.ok (), h') ∧
      Wrote names target.slot flag.slot h.engine.heap h'.engine.heap
  | [], h, _, ho => ⟨h, rfl, .nil ho⟩
  | name :: names, h, hg, ho => by
    obtain ⟨properties, hp⟩ := ho
    have hlt : target.slot < h.engine.heap.size := lt_size_of_isObject ⟨properties, hp⟩
    obtain ⟨h₁, hcall, he, hguards⟩ := Host.writeProperty_unguarded (hg name List.mem_cons_self)
      (Engine.writeProperty_of_object flag hp)
    have hwrite : (writeProperty target name flag).run h = .ok (.ok (), h₁) := Attempt.run_call hcall
    have ho₁ : h₁.engine.heap.IsObject target.slot := by
      refine ⟨properties.insert name flag.slot, ?_⟩
      rw [he, Heap.payload_setPayload, if_pos ⟨rfl, hlt⟩]
    obtain ⟨h', hrun, hwrote⟩ := setEach_of_object flag names (h := h₁)
      (fun other hother => by rw [hguards]; exact hg other (List.mem_cons_of_mem _ hother)) ho₁
    refine ⟨h', (Attempt.run_ok hwrite).trans hrun, ?_⟩
    rw [he] at hwrote
    exact hwrote.cons hp hlt

/-- The first write fails; its error is given back. -/
theorem setEach_of_not_object {target : Ref} (flag : Ref) {name : String} (names : List String) {h : Host}
    (hg : name ∉ h.guards.writes) (ho : ¬ h.engine.heap.IsObject target.slot) :
    ∃ h', (setEach target flag (name :: names)).run h = .ok (.error (.invalidModule
        ("cannot access '" ++ name ++ "': " ++ (RuntimeError.writeToNonObject name).message)), h') ∧
      (∀ slot < h.engine.heap.size, h'.engine.heap.payload slot = h.engine.heap.payload slot) ∧
      ∀ slot, h'.engine.heap.refs slot = h.engine.heap.refs slot := by
  obtain ⟨h₁, hcall, he, -⟩ := Host.writeProperty_unguarded hg
    (Engine.writeProperty_of_not_object flag name ho)
  -- the error is a value behind all that were there, and its reference is the only new one
  have hpayload : h₁.engine.heap.payload h.engine.heap.size = .error (RuntimeError.writeToNonObject name).message := by
    rw [he, Engine.payload_handOut_fresh]
  have hrefs : ∀ slot, h₁.engine.heap.refs slot = h.engine.heap.refs slot + one h.engine.heap.size slot := by
    intro slot
    rw [he, Engine.refs_handOut_fresh]
  have hheld : 0 < h₁.engine.heap.refs h.engine.heap.size := by
    rw [he]
    exact Engine.held_handOut_fresh ..
  obtain ⟨h', hrefuse, hrelease⟩ := Attempt.run_refuse (α := Unit) ⟨h.engine.heap.size, h.engine.issued + 1⟩
    hheld hpayload fun message => .invalidModule ("cannot access '" ++ name ++ "': " ++ message)
  have hwrite : (writeProperty target name flag).run h = _ := (Attempt.run_call hcall).trans hrefuse
  obtain ⟨hback, hsame, -⟩ := Engine.refs_of_release hrelease
  refine ⟨h', Attempt.run_error hwrite, fun slot hs => ?_, fun slot => ?_⟩
  · rw [hsame, he, Engine.payload_handOut_push _ _ hs]
  · have := hback slot
    rw [hrefs] at this
    exact Nat.add_right_cancel this

/-! ## The flag -/

/-- A flag is a new value, which is true, with one reference to it; nothing else is changed. -/
structure Flagged (h : Host) (flag : Ref) (h₁ : Host) : Prop where
  fresh : flag.slot = h.engine.heap.size
  value : h₁.engine.heap.payload h.engine.heap.size = .bool true
  others : ∀ slot, slot ≠ h.engine.heap.size → h₁.engine.heap.payload slot = h.engine.heap.payload slot
  grown : h.engine.heap.size ≤ h₁.engine.heap.size
  refs : ∀ slot, h₁.engine.heap.refs slot = h.engine.heap.refs slot + one flag.slot slot
  guards : h₁.guards = h.guards

theorem exists_flagged (h : Host) : ∃ flag h₁, Host.newBool true h = .ok (flag, h₁) ∧ Flagged h flag h₁ := by
  obtain ⟨h₁, hnew, hguards, he⟩ := Host.newBool_eq true h
  refine ⟨_, h₁, hnew, rfl, ?_, fun slot hne => ?_, ?_, fun slot => ?_, hguards⟩
  · rw [he, Engine.payload_handOut_fresh]
  · rw [he, Engine.payload_handOut, Heap.payload_push, if_neg hne]
  · rw [he, Engine.size_handOut]
    exact Nat.le_of_lt (Heap.size_lt_push ..)
  · rw [he, Engine.refs_handOut_fresh]

namespace Flagged

variable {h h₁ : Host} {flag : Ref}

/-- A flag is no object, and neither is what there is not. -/
theorem isObject (hf : Flagged h flag h₁) (slot : Slot) :
    h₁.engine.heap.IsObject slot ↔ h.engine.heap.IsObject slot := by
  unfold Heap.IsObject
  by_cases he : slot = h.engine.heap.size
  · subst he
    rw [hf.value, Heap.payload_eq_undefined_of_le (le_refl _)]
    constructor <;> rintro ⟨_, hp⟩ <;> cases hp
  · rw [hf.others slot he]

theorem properties (hf : Flagged h flag h₁) (slot : Slot) :
    h₁.engine.heap.properties slot = h.engine.heap.properties slot := by
  rw [Heap.properties_eq, Heap.properties_eq]
  by_cases he : slot = h.engine.heap.size
  · subst he
    rw [hf.value, Heap.payload_eq_undefined_of_le (le_refl _)]
    rfl
  · rw [hf.others slot he]

/-- The flag is held during the writes and given back; if the writes keep the counts, so does all of it. -/
theorem run_listInto (hf : Flagged h flag h₁) (hnew : Host.newBool true h = .ok (flag, h₁)) {target : Ref}
    {names : List String} {outcome : Except HostError Unit} {h₂ : Host}
    (hset : (setEach target flag names).run h₁ = .ok (outcome, h₂))
    (hrefs : ∀ slot, h₂.engine.heap.refs slot = h₁.engine.heap.refs slot) (b : Bridge) : ∃ h',
      (listInto target names).run b h = .ok ((outcome, b), h') ∧
      (∀ slot, h'.engine.heap.payload slot = h₂.engine.heap.payload slot) ∧
      ∀ slot, h'.engine.heap.refs slot = h.engine.heap.refs slot := by
  -- it is held still, so it can be given back
  have hheld : 0 < h₂.engine.heap.refs flag.slot := by
    rw [hrefs, hf.refs, one_self]
    exact Nat.succ_pos _
  obtain ⟨e, hrelease⟩ := Engine.exists_of_held hheld
  obtain ⟨h', hcall, rfl⟩ := Host.call_ok (fun _ => .release flag) hrelease
  change Host.release flag h₂ = _ at hcall
  obtain ⟨hback, hsame, -⟩ := Engine.refs_of_release hrelease
  refine ⟨h', ?_, hsame, fun slot => ?_⟩
  · rw [listInto, run_bind, run_lift, hnew]
    show (holding flag (attempt (setEach target flag names))).run b h₁ = _
    rw [run_holding, run_attempt, hset]
    show (Host.release flag h₂).bind _ = _
    rw [hcall]
    rfl
  · have hsum := hback slot
    rw [hrefs, hf.refs] at hsum
    exact Nat.add_right_cancel hsum

end Flagged

/-! ## Listings -/

section Listings

variable {target : Ref} {h : Host}

/-- Into an object all names are written. -/
theorem listInto_object {names : List String} (hg : ∀ name ∈ names, name ∉ h.guards.writes)
    (ho : h.engine.heap.IsObject target.slot) (b : Bridge) : ∃ h',
      (listInto target names).run b h = .ok ((.ok (), b), h') ∧
      h.engine.heap.Marked (· ∈ names) target.slot h'.engine.heap ∧
      ∀ slot, h'.engine.heap.refs slot = h.engine.heap.refs slot := by
  obtain ⟨flag, h₁, hnew, hf⟩ := exists_flagged h
  have hlt : target.slot < h.engine.heap.size := lt_size_of_isObject ho
  obtain ⟨h₂, hset, hwrote⟩ := setEach_of_object flag names (by rw [hf.guards]; exact hg) ((hf.isObject _).2 ho)
  obtain ⟨h', hrun, hsame, hrefs⟩ := hf.run_listInto hnew hset hwrote.refs b
  have hprops : h'.engine.heap.properties target.slot = h₂.engine.heap.properties target.slot := by
    rw [Heap.properties_eq, hsame, ← Heap.properties_eq]
  refine ⟨h', hrun, ⟨?_, fun _ => ?_, fun id hid => ?_, fun name hname => ?_, fun slot hs hne => ?_⟩, hrefs⟩
  · rw [hsame, hwrote.others _ (Nat.ne_of_gt hlt), hf.value]
  · obtain ⟨properties, hp⟩ := hwrote.object
    exact ⟨properties, by rw [hsame, hp]⟩
  · rw [hprops, hwrote.properties, if_pos hid, hf.fresh]
  · rw [hprops, hwrote.properties, if_neg hname, hf.properties]
  · have hne : slot ≠ target.slot := hne.resolve_right (not_not_intro ho)
    rw [hsame, hwrote.others _ hne, hf.others _ (Nat.ne_of_lt hs)]

/-- Where there are no names, the flag is made and given back. -/
theorem listInto_nil (target : Ref) (h : Host) (b : Bridge) : ∃ h',
    (listInto target []).run b h = .ok ((.ok (), b), h') ∧
    h.engine.heap.Marked (· ∈ []) target.slot h'.engine.heap ∧
    ∀ slot, h'.engine.heap.refs slot = h.engine.heap.refs slot := by
  obtain ⟨flag, h₁, hnew, hf⟩ := exists_flagged h
  have hset : (setEach target flag []).run h₁ = .ok (.ok (), h₁) := rfl
  obtain ⟨h', hrun, hsame, hrefs⟩ := hf.run_listInto hnew hset (fun _ => rfl) b
  refine ⟨h', hrun, ⟨?_, fun ho => ?_, fun id hid => ?_, fun name _ => ?_, fun slot hs _ => ?_⟩, hrefs⟩
  · rw [hsame, hf.value]
  · obtain ⟨properties, hp⟩ := (hf.isObject _).2 ho
    exact ⟨properties, by rw [hsame, hp]⟩
  · exact absurd hid List.not_mem_nil
  · rw [Heap.properties_eq, hsame, ← Heap.properties_eq, hf.properties]
  · rw [hsame, hf.others _ (Nat.ne_of_lt hs)]

/-- Into anything else nothing is written, and the error names the first name. -/
theorem listInto_not_object {name : String} (names : List String) (hg : name ∉ h.guards.writes)
    (ho : ¬ h.engine.heap.IsObject target.slot) (b : Bridge) : ∃ h',
      (listInto target (name :: names)).run b h = .ok ((.error (.invalidModule
        ("cannot access '" ++ name ++ "': " ++ (RuntimeError.writeToNonObject name).message)), b), h') ∧
      (∀ slot < h.engine.heap.size, h'.engine.heap.payload slot = h.engine.heap.payload slot) ∧
      ∀ slot, h'.engine.heap.refs slot = h.engine.heap.refs slot := by
  obtain ⟨flag, h₁, hnew, hf⟩ := exists_flagged h
  obtain ⟨h₂, hset, hkept, hcounts⟩ := setEach_of_not_object flag names (by rw [hf.guards]; exact hg)
    fun hc => ho ((hf.isObject _).1 hc)
  obtain ⟨h', hrun, hsame, hrefs⟩ := hf.run_listInto hnew hset hcounts b
  refine ⟨h', hrun, fun slot hs => ?_, hrefs⟩
  rw [hsame, hkept slot (lt_of_lt_of_le hs hf.grown), hf.others slot (Nat.ne_of_lt hs)]

theorem listInto_listed (target : Ref) {names : List String}
    (hsorted : names.Pairwise fun x y => Text.encode x < Text.encode y)
    (hg : ∀ name ∈ names, name ∉ h.guards.writes) (b : Bridge) : ∃ outcome h',
      (listInto target names).run b h = .ok ((outcome, b), h') ∧ Listed (· ∈ names) target h outcome h' := by
  by_cases ho : h.engine.heap.IsObject target.slot
  · obtain ⟨h', hrun, hmarked, hrefs⟩ := listInto_object hg ho b
    exact ⟨.ok (), h', hrun, .of_ok (.inl ho) hmarked hrefs⟩
  cases names with
  | nil =>
    obtain ⟨h', hrun, hmarked, hrefs⟩ := listInto_nil target h b
    exact ⟨.ok (), h', hrun, .of_ok (.inr fun _ => List.not_mem_nil) hmarked hrefs⟩
  | cons least rest =>
    -- the names are in order, so the one that is written first is the least
    obtain ⟨hleast, -⟩ := List.pairwise_cons.1 hsorted
    obtain ⟨h', hrun, hkept, hrefs⟩ := listInto_not_object rest (hg least List.mem_cons_self) ho b
    refine ⟨_, h', hrun, ⟨fun hc => (by cases hc), fun hc => ?_⟩, fun hc => (by cases hc), fun e hc => ?_, hrefs⟩
    · exact absurd List.mem_cons_self (hc.resolve_left ho least)
    · cases hc
      exact ⟨hkept, least, List.mem_cons_self, fun id hid => (List.mem_cons.1 hid).imp_right (hleast id), rfl⟩

end Listings

/-- Every module of the host is listed, or every builtin module. The bridge is left as it was, its count of the
runs of native builders included. -/
theorem listings_exact (b : Bridge) {h : Host} (target : Ref)
    (hg : ∀ name ∈ b.registry.moduleNames, name ∉ h.guards.writes) :
    (∃ outcome h', (listModules target).run b h = .ok ((outcome, b), h') ∧
      Listed (fun id => id ∈ b.registry.builtins.names ∨ id ∈ b.registry.natives.names) target h outcome h') ∧
    ∃ outcome h', (listBuiltins target).run b h = .ok ((outcome, b), h') ∧
      Listed (fun id => id ∈ b.registry.builtins.names) target h outcome h' := by
  have hids : ∀ id, id ∈ b.registry.moduleNames ↔ id ∈ b.registry.builtins.names ∨ id ∈ b.registry.natives.names := by
    intro id
    rw [Registry.mem_moduleNames]
    exact or_congr (Table.contains_iff_mem_names ..) (Table.contains_iff_mem_names ..)
  constructor
  · have hlisted := listInto_listed target b.registry.moduleNames_sorted hg b
    rw [funext fun id => propext (hids id)] at hlisted
    exact hlisted
  · refine listInto_listed target ((Table.names_sorted _).imp Text.encode_lt_encode) (fun name hname => ?_) b
    exact hg name ((hids name).2 (.inl hname))

/-- Two builtin modules and a native one, whose id is the least. -/
def mixedBridge : Bridge where
  registry := ⟨.ofRows [⟨"c", [], 0⟩, ⟨"b", [], 1⟩] [] .source,
    ⟨.ofList [("a", ⟨.ofPrograms [], 0, none⟩)], none, .empty⟩⟩
  config := ⟨none, false⟩
  gate := none
  files := .ofEntries .empty

/-- An object with a property of the name of a module and one of another name, and a value that is no object. -/
def targetsHost : Host where
  engine := {
    heap := ⟨#[⟨.object (.ofList [("b", 1), ("z", 1)]), 1⟩, ⟨.bool false, 1⟩]⟩
    parses := #[]
    calls := 0
    releases := 0
    issued := 2
    depth := 0 }
  guards := ⟨[], ["z"]⟩
  transcript := #[]
  log := #[]

/-- All three modules are listed in the object, where "z" stays what it was; in the other value the builtin ones
cannot be listed, and the error names "b". -/
theorem listings_exact_mixedBridge : (∀ name ∈ mixedBridge.registry.moduleNames, name ∉ targetsHost.guards.writes) ∧
    (∃ h', (listModules ⟨0, 1⟩).run mixedBridge targetsHost = .ok ((.ok (), mixedBridge), h') ∧
      h'.engine.heap.payload 2 = .bool true ∧
      (∀ id ∈ ["a", "b", "c"], (h'.engine.heap.properties 0).get? id = some 2) ∧
      (h'.engine.heap.properties 0).get? "z" = some 1) ∧
    ∃ h', (listBuiltins ⟨1, 2⟩).run mixedBridge targetsHost = .ok ((.error (.invalidModule
        "cannot access 'b': TypeError: Cannot set properties of non-object (setting 'b')"), mixedBridge), h') ∧
      h'.engine.heap.payload 1 = .bool false ∧ h'.engine.heap.refs 1 = 1 := by
  have hg : ∀ name ∈ mixedBridge.registry.moduleNames, name ∉ targetsHost.guards.writes := by decide +kernel
  refine ⟨hg, ?_, ?_⟩
  · obtain ⟨outcome, h', hrun, hlisted⟩ := (listings_exact mixedBridge ⟨0, 1⟩ hg).1
    have hok : outcome = .ok () := hlisted.succeeds.2 (.inl ⟨_, rfl⟩)
    have hmarked := hlisted.marked hok
    subst hok
    refine ⟨h', hrun, hmarked.flag, fun id hid => hmarked.listed id ?_, hmarked.unlisted "z" (by decide +kernel)⟩
    revert id
    decide +kernel
  · obtain ⟨outcome, h', hrun, hlisted⟩ := (listings_exact mixedBridge ⟨1, 2⟩ hg).2
    cases outcome with
    | ok =>
      rcases hlisted.succeeds.1 rfl with ⟨_, hobject⟩ | hnone
      · cases hobject
      · exact absurd (by decide +kernel) (hnone "b")
    | error e =>
      obtain ⟨hkept, least, hleast, hmin, rfl⟩ := hlisted.refused e rfl
      have hnames : mixedBridge.registry.builtins.names = ["b", "c"] := by decide +kernel
      have hcases : least = "b" ∨ least = "c" := by
        rw [hnames] at hleast
        simpa using hleast
      have hb : least = "b" := by
        rcases hcases with rfl | rfl
        · rfl
        · exact absurd (hmin "b" (by decide +kernel)) (by decide +kernel)
      subst hb
      exact ⟨h', hrun, hkept 1 (by decide), hlisted.refs 1⟩

end Bridge

end ScriptHost
