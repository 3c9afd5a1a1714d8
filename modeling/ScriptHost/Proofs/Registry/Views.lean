/-
The views of a registry describe one table. An id is listed if a builtin or a native module has it; the
listing is in the order of bytes; there is one descriptor for each listed id; and what an id resolves to is
what its descriptor says. Builtin modules hide native ones of the same id in all views alike, and where an
id has several rows the last one counts.
-/
import ScriptHost.Proofs.Bridge.Basic
import ScriptHost.Proofs.Registry.Builtin
import ScriptHost.Proofs.Registry.Requests
import ScriptHost.Proofs.Text.Order

namespace ScriptHost

/-! ## Tables by their names -/

namespace Table

variable {α : Type}

theorem contains_iff_mem_names (t : Table α) (name : String) : t.contains name = true ↔ name ∈ t.names :=
  (t.mem_names name).symm

theorem mem_names_ofList (rows : List (String × α)) (name : String) :
    name ∈ (ofList rows).names ↔ name ∈ rows.map (·.1) := by
  rw [mem_names, get?_ofList, List.lookup_isSome_iff, List.mem_map]
  simp only [List.mem_reverse, beq_iff_eq, @eq_comm _ name]

theorem names_sorted (t : Table α) : t.names.Pairwise (· < ·) :=
  List.pairwise_map.2 t.sorted

theorem filter_names (t : Table α) (name : String) :
    t.names.filter (fun other => other = name) = if t.contains name then [name] else [] := by
  have h := congrArg (List.map (·.1)) (t.filter_rows name)
  unfold names contains
  rw [List.filter_map]
  refine h.trans ?_
  cases t.get? name <;> rfl

end Table

theorem BuiltinTable.contains_eq (t : BuiltinTable) (id : String) : t.contains id = (t.get? id).isSome := rfl

theorem BuiltinTable.contains_ofRows (rows : List BuiltinRow) (blob : Bytes) (strategy : Strategy) (id : String) :
    (ofRows rows blob strategy).contains id = true ↔ ∃ row ∈ rows, row.name = id := by
  rw [contains_eq, get?_ofRows, Option.isSome_map, List.find?_isSome]
  simp only [List.mem_reverse, beq_iff_eq, @eq_comm _ id]

/-! ## Listings and descriptors -/

namespace Registry

variable (r : Registry) (id : String)

theorem mem_moduleNames : id ∈ r.moduleNames ↔ r.builtins.contains id = true ∨ r.natives.contains id = true := by
  unfold moduleNames
  rw [Table.mem_names_ofList, List.map_map, Function.comp_def, List.map_id', List.mem_append]
  exact or_congr (Table.contains_iff_mem_names ..).symm (Table.contains_iff_mem_names ..).symm

theorem moduleNames_sorted : r.moduleNames.Pairwise fun a b => Text.encode a < Text.encode b :=
  (Table.names_sorted _).imp Text.encode_lt_encode

theorem descriptor_of_get? {code : Code} (h : r.builtins.get? id = some code) :
    r.descriptor id = some ⟨id, .builtin code⟩ := by
  rw [descriptor, h]

theorem descriptor_of_get?_none (h : r.builtins.get? id = none) :
    r.descriptor id = if r.natives.contains id then some ⟨id, .native⟩ else none := by
  rw [descriptor, h]

theorem descriptor_eq_builtin_iff (code : Code) :
    r.descriptor id = some ⟨id, .builtin code⟩ ↔ r.builtins.get? id = some code := by
  cases h : r.builtins.get? id with
  | some other => simp [descriptor_of_get? r id h]
  | none => rw [descriptor_of_get?_none r id h]; split <;> simp

theorem descriptor_eq_native_iff :
    r.descriptor id = some ⟨id, .native⟩ ↔ r.builtins.get? id = none ∧ r.natives.contains id = true := by
  cases h : r.builtins.get? id with
  | some code => simp [descriptor_of_get? r id h]
  | none => simp [descriptor_of_get?_none r id h]

theorem descriptor_eq_none_iff : r.descriptor id = none ↔
    r.builtins.get? id = none ∧ r.natives.contains id = false := by
  cases h : r.builtins.get? id with
  | some code => simp [descriptor_of_get? r id h]
  | none => simp [descriptor_of_get?_none r id h]

theorem isSome_descriptor : (r.descriptor id).isSome = true ↔ id ∈ r.moduleNames := by
  rw [mem_moduleNames, BuiltinTable.contains_eq, Option.isSome_iff_ne_none, ne_eq, descriptor_eq_none_iff]
  cases r.builtins.get? id <;> simp

/-- The descriptors of an id among all: the one that it has, if it has one. -/
theorem filter_descriptors : r.descriptors.filter (fun d => d.id = id) = (r.descriptor id).toList := by
  have hbuiltin : r.builtins.codes.rows.filter (fun row => row.1 = id) =
      ((r.builtins.get? id).map fun code => (id, code)).toList := Table.filter_rows ..
  have hnative : (r.natives.names.filter fun other => !r.builtins.contains other).filter (fun other => other = id) =
      if r.natives.contains id && !r.builtins.contains id then [id] else [] := by
    rw [List.filter_comm, NativeTable.names, Table.filter_names]
    by_cases h : r.natives.contains id = true
    · have h' : r.natives.entries.contains id = true := h
      rw [if_pos h', h, Bool.true_and]
      cases hb : r.builtins.contains id <;> simp [hb]
    · have h' : ¬ r.natives.entries.contains id = true := h
      simp [if_neg h', h]
  unfold descriptors
  rw [List.filter_append, List.filter_map, List.filter_map]
  simp only [Function.comp_def]
  rw [hbuiltin, hnative, BuiltinTable.contains_eq]
  cases h : r.builtins.get? id with
  | some code => simp [descriptor_of_get? r id h]
  | none => rw [descriptor_of_get?_none r id h]; cases r.natives.contains id <;> rfl

end Registry

/-! ## Resolving -/

/-- The host after it has reported something and done nothing else. -/
def Host.reporting (h : Host) (event : Event) : Host := { h with log := h.log.push event }

/-- What a native table answers for an id that it has: exports, or why there are none. -/
theorem NativeTable.Got.of_contains {t t' : NativeTable} {id : String} {h h' : Host}
    {result : Except HostError (Option Ref)} (hg : t.Got id h result t' h') (hc : t.contains id = true) :
    (∃ exports, result = .ok (some exports)) ∨ ∃ reason, result = .error (.nativeLoad id reason) := by
  cases hg with
  | unknown hnone =>
    rw [contains, Table.contains, hnone] at hc
    cases hc
  | again => exact .inl ⟨_, rfl⟩
  | built => exact .inl ⟨_, rfl⟩
  | failed => exact .inr ⟨_, rfl⟩

namespace Bridge

variable (b : Bridge) (host : Host) (id : String)

/-- The code of a builtin module is found in its table, and nothing is built for it. -/
theorem resolve_builtin {code : Code} (h : b.registry.builtins.get? id = some code) :
    (resolve id).run b host = .ok ((.ok (.builtin code), b), host.reporting
      ⟨.debug, "resolved builtin module", [("module", id), ("origin", (Resolved.builtin code).debug)]⟩) := by
  unfold resolve
  rw [run_get, h]
  rfl

/-- What an id comes to that is no builtin module, by what the native table answers. -/
def fromNatives : Except HostError (Option Ref) → Except HostError Resolved
  | .ok (some exports) => .ok (.native exports)
  | .ok none => .error (.moduleNotFound id)
  | .error e => .error e

theorem resolve_native (h : b.registry.builtins.get? id = none) :
    ((resolve id).run b host).map (·.1.1) = (b.registry.natives.get id host).map fun r => fromNatives id r.1.1 := by
  unfold resolve
  rw [run_get, h]
  simp only
  rw [run_bind, run_native]
  rcases b.registry.natives.get id host with _ | ⟨⟨_ | _ | exports, t⟩, host'⟩ <;> rfl

theorem resolve_unknown (h : b.registry.builtins.get? id = none) (hn : b.registry.natives.contains id = false) :
    (resolve id).run b host = .ok ((.error (.moduleNotFound id), b), host.reporting
      ⟨.debug, "module not found", [("module", id)]⟩) := by
  have hnone : b.registry.natives.entries.get? id = none := by
    rwa [NativeTable.contains, Table.contains, Option.isSome_eq_false_iff, Option.isNone_iff_eq_none] at hn
  unfold resolve
  rw [run_get, h]
  simp only
  rw [run_bind, run_native, NativeTable.get, hnone]
  rfl

/-- An id that resolves to something, or to an error, does so as its descriptor says. -/
theorem resolve_fits {b' : Bridge} {host' : Host} {outcome : Except HostError Resolved}
    (hr : (resolve id).run b host = .ok ((outcome, b'), host')) :
    (∃ code, outcome = .ok (.builtin code) ∧ b.registry.descriptor id = some ⟨id, .builtin code⟩) ∨
    (((∃ exports, outcome = .ok (.native exports)) ∨ ∃ reason, outcome = .error (.nativeLoad id reason)) ∧
      b.registry.descriptor id = some ⟨id, .native⟩) ∨
    outcome = .error (.moduleNotFound id) ∧ b.registry.descriptor id = none := by
  cases h : b.registry.builtins.get? id with
  | some code =>
    rw [resolve_builtin b host id h] at hr
    cases hr
    exact .inl ⟨code, rfl, b.registry.descriptor_of_get? id h⟩
  | none =>
    rw [Registry.descriptor_of_get?_none _ _ h]
    have hn := resolve_native b host id h
    rw [hr] at hn
    obtain ⟨⟨⟨result, natives⟩, last⟩, hget, hn⟩ := exists_of_map_ok hn.symm
    -- a registered id is answered or blamed on its module; any other one is not found
    by_cases hc : b.registry.natives.contains id = true
    · rw [if_pos hc]
      refine .inr (.inl ⟨?_, rfl⟩)
      rcases (NativeTable.got_of_get hget).of_contains hc with ⟨exports, rfl⟩ | ⟨reason, rfl⟩
      · exact .inl ⟨exports, hn.symm⟩
      · exact .inr ⟨reason, hn.symm⟩
    · rw [if_neg hc]
      rw [resolve_unknown b host id h (Bool.eq_false_iff.2 hc)] at hr
      cases hr
      exact .inr (.inr ⟨rfl, rfl⟩)

/-- All views of a registry agree, for builtin modules given by rows and any native modules, whatever of them
is built. The ids are listed in the strict order of their bytes, and they are those of the rows and of the
native modules. Each has one descriptor among all, its own, which for a builtin module is read off the last
row of the id. Resolving a builtin module comes to the code in its descriptor, and changes nothing but the
log, so no native module is built; an id without a descriptor is not found; any other id is left to the
native table, and ends if that does, in exports or in the failure to build them. -/
theorem views_agree (rows : List BuiltinRow) (blob : Bytes) (strategy : Strategy) (natives : NativeTable)
    (rest : Bridge) :
    let r : Registry := ⟨.ofRows rows blob strategy, natives⟩
    let b : Bridge := { rest with registry := r }
    r.moduleNames.Pairwise (fun x y => Text.encode x < Text.encode y) ∧ ∀ id,
      (id ∈ r.moduleNames ↔ (∃ row ∈ rows, row.name = id) ∨ natives.contains id = true) ∧
      r.descriptors.filter (fun d => d.id = id) = (r.descriptor id).toList ∧
      ((r.descriptor id).isSome = true ↔ id ∈ r.moduleNames) ∧
      (∀ code, r.descriptor id = some ⟨id, .builtin code⟩ ↔
        ∃ row, rows.reverse.find? (fun row => id == row.name) = some row ∧ code = row.code strategy) ∧
      ∀ host,
        (∀ code, r.descriptor id = some ⟨id, .builtin code⟩ →
          ∃ event, (resolve id).run b host = .ok ((.ok (.builtin code), b), host.reporting event)) ∧
        (r.descriptor id = none →
          ∃ event, (resolve id).run b host = .ok ((.error (.moduleNotFound id), b), host.reporting event)) ∧
        (r.descriptor id = some ⟨id, .native⟩ →
          ((∃ end', (resolve id).run b host = .ok end') ↔ ∃ end', natives.get id host = .ok end')) ∧
        ∀ outcome b' host', (resolve id).run b host = .ok ((outcome, b'), host') →
          (∀ code, outcome = .ok (.builtin code) ↔ r.descriptor id = some ⟨id, .builtin code⟩) ∧
          (((∃ exports, outcome = .ok (.native exports)) ∨ ∃ reason, outcome = .error (.nativeLoad id reason)) ↔
            r.descriptor id = some ⟨id, .native⟩) ∧
          (outcome = .error (.moduleNotFound id) ↔ r.descriptor id = none) := by
  intro r b
  refine ⟨r.moduleNames_sorted, fun id => ⟨?_, r.filter_descriptors id, r.isSome_descriptor id, fun code => ?_,
    fun host => ⟨fun code hd => ?_, fun hd => ?_, fun hd => ?_, fun outcome b' host' hr => ?_⟩⟩⟩
  · rw [r.mem_moduleNames, BuiltinTable.contains_ofRows]
  · rw [r.descriptor_eq_builtin_iff, BuiltinTable.get?_ofRows, Option.map_eq_some_iff]
    simp only [eq_comm]
  · exact ⟨_, resolve_builtin b host id ((r.descriptor_eq_builtin_iff id code).1 hd)⟩
  · obtain ⟨hnone, hc⟩ := (r.descriptor_eq_none_iff id).1 hd
    exact ⟨_, resolve_unknown b host id hnone hc⟩
  · have hn := resolve_native b host id ((r.descriptor_eq_native_iff id).1 hd).1
    constructor
    · rintro ⟨last, hlast⟩
      rw [hlast] at hn
      obtain ⟨found, hget, -⟩ := exists_of_map_ok hn.symm
      exact ⟨found, hget⟩
    · rintro ⟨found, hget⟩
      have hget : b.registry.natives.get id host = .ok found := hget
      rw [hget] at hn
      obtain ⟨last, hlast, -⟩ := exists_of_map_ok hn
      exact ⟨last, hlast⟩
  · -- the three cases exclude each other, so each outcome tells which descriptor there is
    rcases resolve_fits b host id hr with ⟨code, rfl, hd⟩ | ⟨⟨exports, rfl⟩ | ⟨reason, rfl⟩, hd⟩ | ⟨rfl, hd⟩ <;>
      have hd : r.descriptor id = _ := hd <;> simp [hd]

end Bridge

end ScriptHost
