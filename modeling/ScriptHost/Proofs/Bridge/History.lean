/-
A load does not depend on unrelated history. Two hosts may have come a long way before, and their heaps may
be numbered differently and be full of what nobody asks for. Where the module objects, the `require`
functions and the native exports built so far are paired, and the bridges have the same modules, a load comes
to the same on both: the results are paired, or the errors are equal with their texts, and so is all that is
reachable afterwards.

Most of it is that a load follows on the second host what it does on the first one. A pairing says nothing of
the counts of references, so that the second host holds all that a load gives back is the balance of its own
load, with which the loader of libraries has nothing to do.
-/
import ScriptHost.Proofs.Bridge.Correspondence

namespace ScriptHost

variable {α β γ : Type} {R : Pairing}

/-! ## What is held -/

theorem ExportsBuilder.Fixed.handsOver {init : ExportsBuilder} (h : init.Fixed) (lo : Nat) : init.HandsOver lo := by
  intro size counts run _
  cases h with
  | object => exact triple_map Host.triple_newObject
  | blob blob => exact Host.triple_runBlob blob

namespace NativeTable

theorem run_bind_map {x : HostM α} {f : α → HostM β} {g : α → HostM γ} {change : γ × Host → β × Host}
    (hfg : ∀ a h, f a h = (g a h).map change) (h : Host) : (x >>= f) h = ((x >>= g) h).map change := by
  show (x h).bind _ = ((x h).bind _).map _
  rcases x h with _ | ⟨a, h'⟩
  · rfl
  · exact hfg a h'

/-- The table without a loader of libraries. -/
def unloaded (t : NativeTable) : NativeTable := { t with loader := none }

theorem get_unloaded (t : NativeTable) (id : String) (h : Host) :
    t.unloaded.get id h = (t.get id h).map fun r => ((r.1.1, r.1.2.unloaded), r.2) := by
  cases hentry : t.entries.get? id with
  | none =>
    rw [get, get, hentry, show t.unloaded.entries.get? id = none from hentry]
    rfl
  | some entry =>
    rw [get, get, hentry, show t.unloaded.entries.get? id = some entry from hentry]
    cases hexports : entry.exports with
    | some exports =>
      simp only [hexports]
      refine run_bind_map (fun _ _ => ?_) h
      rfl
    | none =>
      simp only [hexports]
      refine run_bind_map (fun result h' => ?_) h
      cases result with
      | ok exports =>
        refine run_bind_map (fun _ h₁ => run_bind_map (fun _ _ => ?_) h₁) h'
        rfl
      | error error =>
        refine run_bind_map (fun _ h₁ => run_bind_map (fun _ h₂ => run_bind_map (fun _ _ => ?_) h₂) h₁) h'
        rfl

end NativeTable

namespace Bridge

/-- The bridge without a loader of libraries. -/
def unloaded (b : Bridge) : Bridge := { b with registry := { b.registry with natives := b.natives.unloaded } }

/-- The operation does the same with a loader and without. -/
def Loaderless (op : BridgeM α) : Prop :=
  ∀ b h, op.run b.unloaded h = (op.run b h).map fun r => ((r.1.1, r.1.2.unloaded), r.2)

theorem loaderless_outcome (outcome : Except HostError α) : Loaderless (ExceptT.mk (pure outcome)) := fun _ _ => rfl

theorem loaderless_pure (a : α) : Loaderless (pure a) := loaderless_outcome (.ok a)

theorem loaderless_throw (e : HostError) : Loaderless (throw e : BridgeM α) := loaderless_outcome (.error e)

theorem loaderless_bind {op : BridgeM α} {next : α → BridgeM β} (h : Loaderless op) (hn : ∀ a, Loaderless (next a)) :
    Loaderless (op >>= next) := by
  intro b host
  rw [run_bind, run_bind, h b host]
  rcases op.run b host with _ | ⟨⟨_ | a, b'⟩, host'⟩
  · rfl
  · rfl
  · exact hn a b' host'

theorem loaderless_get {next : Bridge → BridgeM α} (heq : ∀ b, next b.unloaded = next b)
    (h : ∀ b, Loaderless (next b)) : Loaderless (get >>= next) := by
  intro b host
  show (next b.unloaded).run b.unloaded host = _
  rw [heq b]
  exact h b b host

theorem loaderless_lift (op : HostM α) : Loaderless (liftM op) := by
  intro b host
  rw [run_lift, run_lift]
  rcases op host with _ | _ <;> rfl

theorem loaderless_attempt (op : Attempt α) : Loaderless (attempt op) := by
  intro b host
  rw [run_attempt, run_attempt]
  rcases op.run host with _ | _ <;> rfl

theorem loaderless_outcomeOf {op : BridgeM α} (h : Loaderless op) : Loaderless (outcomeOf op) := by
  intro b host
  rw [run_outcomeOf, run_outcomeOf, h b host]
  rcases op.run b host with _ | _ <;> rfl

theorem loaderless_holding {ref : Ref} {op : BridgeM α} (h : Loaderless op) : Loaderless (holding ref op) := by
  intro b host
  rw [run_holding, run_holding, h b host]
  rcases op.run b host with _ | r
  · rfl
  · show (Host.release ref r.2).bind _ = ((Host.release ref r.2).bind _).map _
    rcases Host.release ref r.2 with _ | _ <;> rfl

theorem loaderless_native (id : String) : Loaderless (native id) := by
  intro b host
  have hget : b.unloaded.registry.natives.get id host = _ := NativeTable.get_unloaded b.natives id host
  rw [run_native, run_native, hget]
  rcases b.registry.natives.get id host with _ | _ <;> rfl

theorem loaderless_resolve (id : String) : Loaderless (resolve id) := by
  refine loaderless_get (fun _ => rfl) fun b => ?_
  split
  · exact loaderless_bind (loaderless_lift _) fun _ => loaderless_pure _
  · refine loaderless_bind (loaderless_native id) fun exports => ?_
    cases exports with
    | some exports => exact loaderless_bind (loaderless_lift _) fun _ => loaderless_pure _
    | none => exact loaderless_bind (loaderless_lift _) fun _ => loaderless_throw _

theorem loaderless_reportLoad (id : String) (succeeded : Bool) : Loaderless (reportLoad id succeeded) := by
  refine loaderless_get (fun _ => rfl) fun b => ?_
  split
  · exact loaderless_lift _
  · exact loaderless_pure ()

theorem loaderless_orUndefined (counterpart : Option Ref) {next : Ref → BridgeM α}
    (h : ∀ native, Loaderless (next native)) :
    Loaderless (match counterpart with
      | some native => do next (← pure native)
      | none => do next (← liftM Host.newUndefined)) := by
  cases counterpart with
  | some native => exact h native
  | none => exact loaderless_bind (loaderless_lift _) h

/-- Only libraries are loaded by the loader. -/
theorem loaderless_loadModule (module require : Ref) : Loaderless (loadModule module require) := by
  refine loaderless_bind (loaderless_attempt _) fun id => loaderless_bind (loaderless_resolve id) fun resolved => ?_
  cases resolved with
  | native exports =>
    exact loaderless_holding (loaderless_bind (loaderless_attempt _) fun _ => loaderless_lift _)
  | builtin code =>
    refine loaderless_bind (loaderless_native id) fun counterpart => ?_
    refine loaderless_orUndefined counterpart fun native => loaderless_holding ?_
    refine loaderless_bind (loaderless_attempt _) fun exports => loaderless_holding ?_
    refine loaderless_get (fun _ => rfl) fun b => ?_
    refine loaderless_bind (loaderless_outcomeOf (loaderless_attempt _)) fun result => ?_
    exact loaderless_bind (loaderless_reportLoad _ _) fun _ => loaderless_outcome result

/-- Properties lead to cells of the heap, and what the native modules keep is held. -/
structure Sound (b : Bridge) (h : Host) : Prop where
  closed : h.engine.heap.Closed
  held : ∀ slot, tally b.natives.cached slot ≤ h.engine.heap.refs slot

/-- A load gives back nothing that is not held. -/
theorem loadModule_not_overReleased {b : Bridge} {h : Host} {module require : Ref} (hs : b.Sound h)
    (hfixed : ∀ row ∈ b.natives.entries.rows, row.2.init.Fixed) (hm : module.slot < h.engine.heap.size)
    (hr : require.slot < h.engine.heap.size) (slot : Slot) :
    (loadModule module require).run b h ≠ .error (.overReleased slot) := by
  intro hrun
  have hhonest : b.unloaded.natives.Honest h.engine.heap.size :=
    ⟨fun row hrow => (hfixed row hrow).handsOver _, fun _ hload => by cases hload⟩
  -- what is held besides the exports that the native modules keep
  have hbalanced : b.unloaded.Balanced h.engine.heap.size
      (fun slot => h.engine.heap.refs slot - tally b.natives.cached slot) h :=
    ⟨hhonest, hs.closed, le_refl _, fun slot => (Nat.sub_add_cancel (hs.held slot)).symm⟩
  have hends := settles_loadModule (.inl hm) (.inl hr) b.unloaded h hbalanced
  rw [loaderless_loadModule module require b h, hrun] at hends
  exact hends

/-! ## Unrelated history -/

theorem Paired.flip {b c : Bridge} (h : b.Paired R c) : c.Paired (flip R) b := ⟨h.builtins.symm, h.natives.flip⟩

theorem outcome_flip {r u : Except HostError Ref} (h : R.Outcome Pairing.Refs r u) :
    Pairing.Outcome Pairing.Refs (flip R) u r := by
  cases h with
  | ok hvw => exact .ok hvw
  | error he => exact .error he.symm

/-- The slots that a load is about: those of the module object and of `require`, of its result, and of the
native exports that are built. -/
def scope (module require : Ref) (outcome : Except HostError Ref) (b : Bridge) : List Slot :=
  (module :: require :: (outcome.toOption.toList ++ b.natives.cached)).map (·.slot)

theorem scope_paired {module module' require require' : Ref} {outcome outcome' : Except HostError Ref}
    {b c : Bridge} (hm : R.Refs module module') (hr : R.Refs require require')
    (ho : R.Outcome Pairing.Refs outcome outcome') (hb : b.Paired R c) :
    ∀ x ∈ scope module require outcome b, ∃ y ∈ scope module' require' outcome' c, R x y := by
  intro x hx
  obtain ⟨ref, href, rfl⟩ := List.mem_map.1 hx
  -- each thing in scope has its own counterpart, in the same place of the other list
  have hpartner : ∃ other ∈ module' :: require' :: (outcome'.toOption.toList ++ c.natives.cached),
      R.Refs ref other := by
    simp only [List.mem_cons, List.mem_append] at href ⊢
    rcases href with rfl | rfl | href | href
    · exact ⟨module', .inl rfl, hm⟩
    · exact ⟨require', .inr (.inl rfl), hr⟩
    · cases ho with
      | @ok v w hvw =>
        obtain rfl := List.mem_singleton.1 href
        exact ⟨w, .inr (.inr (.inl (List.mem_singleton.2 rfl))), hvw⟩
      | error _ => cases href
    · obtain ⟨exports, hexports, hrel⟩ := hb.natives.cached href
      exact ⟨exports, .inr (.inr (.inr hexports)), hrel⟩
  obtain ⟨other, hother, hrel⟩ := hpartner
  exact ⟨other.slot, List.mem_map_of_mem hother, hrel⟩

/-- Where a load ends on one host, the load of what is paired with it ends on the other one, and comes to the
same: to paired values or to the same error. The pairing grows by what both have made meanwhile, and then
covers all that can be reached from the module object and from `require`, from the result, and from the native
exports that are built, on either side. -/
theorem loadModule_ignores_history {b c b' : Bridge} {h k h' : Host} {module module' require require' : Ref}
    {outcome : Except HostError Ref} (hb : b.Paired R c) (hh : h.Paired R k) (hm : R.Refs module module')
    (hr : R.Refs require require') (hs : c.Sound k)
    (hrun : (loadModule module require).run b h = .ok ((outcome, b'), h')) :
    ∃ outcome' c' k' R', (loadModule module' require').run c k = .ok ((outcome', c'), k') ∧
      R ≤ R' ∧ R'.Outcome Pairing.Refs outcome outcome' ∧ b'.Paired R' c' ∧ h'.Paired R' k' ∧
      (∀ x, h'.engine.heap.Reaches (scope module require outcome b') x →
        ∃ y, R' x y ∧ k'.engine.heap.Reaches (scope module' require' outcome' c') y) ∧
      ∀ y, k'.engine.heap.Reaches (scope module' require' outcome' c') y →
        ∃ x, R' x y ∧ h'.engine.heap.Reaches (scope module require outcome b') x := by
  have hfollows := follows_loadModule hm hr R b c (le_refl R) hb R h k (le_refl R) hh
  rw [hrun] at hfollows
  rcases hrun' : (loadModule module' require').run c k with (_ | slot) | ⟨⟨outcome', c'⟩, k'⟩ <;> rw [hrun'] at hfollows
  · exact False.elim hfollows
  · -- this is where the balance of the second host is needed
    have hp := hh.engine.heap
    exact absurd hrun' (loadModule_not_overReleased hs hb.natives.flip.fixed (hp.cells hm).2 (hp.cells hr).2 slot)
  · obtain ⟨R', hle, hh', ho, hb'⟩ := hfollows
    have hm' := hm.mono hle
    have hr' := hr.mono hle
    refine ⟨outcome', c', k', R', rfl, hle, ho, hb', hh', fun x hx => ?_, fun y hy => ?_⟩
    · exact hh'.engine.heap.reaches (scope_paired hm' hr' ho hb') hx
    · exact hh'.engine.heap.flip.reaches (scope_paired hm' hr' (outcome_flip ho) hb'.flip) hy

/-- A bridge with one module, whose native counterpart is built. -/
def pairedBridge (runs : Nat) (exports : Ref) (config : Config) : Bridge where
  registry := {
    builtins := .ofRows [⟨"a", "exports.base = native\nexports.me = module\nrequire('b')".toUTF8.toList, 0⟩] [] .source
    natives := ⟨.ofList [("a", ⟨.ofPrograms ["\x7b\x7d".toUTF8.toList], runs, some exports⟩)], none, .empty⟩ }
  config := config
  gate := none
  files := .ofEntries .empty

/-- A host with a heap of its own and nothing else. -/
def hostOf (cells : Array Cell) (depth : Nat) : Host where
  engine := { heap := ⟨cells⟩, parses := #[], calls := 0, releases := 0, issued := 0, depth := depth }
  guards := ⟨[], []⟩
  transcript := #[]
  log := #[]

/-- A module object with its id and exports, `require`, and the native exports. -/
def youngHost : Host :=
  hostOf #[⟨.text "a", 0⟩, ⟨.emptyObject, 0⟩, ⟨.object ⟨[("exports", 1), ("id", 0)], by decide⟩, 1⟩,
    ⟨.moduleLookup .empty, 1⟩, ⟨.emptyObject, 1⟩] 4

/-- The same in other cells, beside what is left of earlier loads. -/
def oldHost : Host :=
  hostOf #[⟨.error "Error: no", 0⟩, ⟨.emptyObject, 2⟩, ⟨.text "a", 0⟩, ⟨.moduleLookup .empty, 1⟩,
    ⟨.object ⟨[("base", 1), ("old", 0)], by decide⟩, 3⟩, ⟨.emptyObject, 0⟩,
    ⟨.object ⟨[("exports", 5), ("id", 2)], by decide⟩, 1⟩] 9

/-- What belongs together of the two. -/
def oldPairs : List (Slot × Slot) := [(0, 2), (1, 5), (2, 6), (3, 3), (4, 1)]

def oldPairing : Pairing := fun x y => (x, y) ∈ oldPairs

theorem youngHost_paired : youngHost.Paired oldPairing oldHost := by
  have hleft : ∀ p ∈ oldPairs, ∀ q ∈ oldPairs, p.2 = q.2 → p.1 = q.1 := by decide
  have hright : ∀ p ∈ oldPairs, ∀ q ∈ oldPairs, p.1 = q.1 → p.2 = q.2 := by decide
  have hcells : ∀ p ∈ oldPairs, p.1 < youngHost.engine.heap.size ∧ p.2 < oldHost.engine.heap.size := by decide
  refine ⟨⟨⟨⟨fun a b c ha hb => hleft _ ha _ hb rfl, fun a b c ha hb => hright _ ha _ hb rfl⟩,
    fun hxy => hcells _ hxy, fun {x y} hxy => ?_⟩, by decide⟩, rfl⟩
  simp only [oldPairing, oldPairs, List.mem_cons, List.not_mem_nil, Prod.mk.injEq, or_false] at hxy
  rcases hxy with ⟨rfl, rfl⟩ | ⟨rfl, rfl⟩ | ⟨rfl, rfl⟩ | ⟨rfl, rfl⟩ | ⟨rfl, rfl⟩
  · exact .text "a"
  · exact .emptyObject
  · have hexports : (1, 5) ∈ oldPairs := by decide
    have hid : (0, 2) ∈ oldPairs := by decide
    exact .object (Pairing.Binds.lookup (.cons ⟨rfl, hexports⟩ (.cons ⟨rfl, hid⟩ .nil)))
  · exact .moduleLookup .empty
  · exact .emptyObject

theorem pairedBridge_paired {exports exports' : Ref} (he : R.Refs exports exports') (runs runs' : Nat)
    (config config' : Config) : (pairedBridge runs exports config).Paired R (pairedBridge runs' exports' config') := by
  refine ⟨rfl, fun id => ?_⟩
  show Option.Rel _ ((Table.ofList _).get? id) ((Table.ofList _).get? id)
  rw [Table.get?_ofList, Table.get?_ofList]
  simp only [List.reverse_cons, List.reverse_nil, List.nil_append, List.lookup_cons, List.lookup_nil]
  split
  · exact .some ⟨rfl, ExportsBuilder.fixed_ofPrograms [_] (Nat.le_refl 1), .some he⟩
  · exact .none

theorem youngHost_throws : ((loadModule ⟨2, 1⟩ ⟨3, 1⟩).run (pairedBridge 1 ⟨4, 1⟩ ⟨none, false⟩) youngHost).map
    (fun r => (match r.1.1 with
      | .error (.execution id message) => some (id, message)
      | _ => none, (r.2.engine.heap.properties 1).get? "base")) =
    .ok (some ("a", "Error: Cannot find module 'b'"), some 4) := by
  decide +kernel

theorem oldHost_sound : (pairedBridge 4 ⟨1, 2⟩ ⟨none, true⟩).Sound oldHost := by
  refine ⟨Heap.closed_of_rows (by decide), fun slot => ?_⟩
  show (tally [] + one 1) slot ≤ oldHost.engine.heap.refs slot
  rw [tally_nil, zero_add]
  by_cases he : slot = 1
  · subst he; rw [one_self]; decide
  · rw [one_of_ne he]; exact Nat.zero_le _

/-- `require` throws on both hosts, with the same text; both have taken in the native exports before. -/
theorem loadModule_ignores_history_oldHost :
    ∃ b' c' h' k', (loadModule ⟨2, 1⟩ ⟨3, 1⟩).run (pairedBridge 1 ⟨4, 1⟩ ⟨none, false⟩) youngHost =
        .ok ((.error (.execution "a" "Error: Cannot find module 'b'"), b'), h') ∧
      (loadModule ⟨6, 8⟩ ⟨3, 5⟩).run (pairedBridge 4 ⟨1, 2⟩ ⟨none, true⟩) oldHost =
        .ok ((.error (.execution "a" "Error: Cannot find module 'b'"), c'), k') ∧
      (h'.engine.heap.properties 1).get? "base" = some 4 ∧ (k'.engine.heap.properties 5).get? "base" = some 1 := by
  obtain ⟨⟨⟨outcome, b'⟩, h'⟩, hrun, hv⟩ := exists_of_map_ok youngHost_throws
  obtain ⟨houtcome, hbase⟩ := Prod.mk.inj hv
  dsimp only at houtcome
  split at houtcome
  · cases houtcome
    have hm : oldPairing.Refs ⟨2, 1⟩ ⟨6, 8⟩ := show (2, 6) ∈ oldPairs by decide
    have hr : oldPairing.Refs ⟨3, 1⟩ ⟨3, 5⟩ := show (3, 3) ∈ oldPairs by decide
    have he : oldPairing.Refs ⟨4, 1⟩ ⟨1, 2⟩ := show (4, 1) ∈ oldPairs by decide
    have hexports : oldPairing 1 5 := show (1, 5) ∈ oldPairs by decide
    obtain ⟨outcome', c', k', R', hrun', hle, ho, -, hh', -⟩ := loadModule_ignores_history
      (pairedBridge_paired he 1 4 ⟨none, false⟩ ⟨none, true⟩) youngHost_paired hm hr oldHost_sound hrun
    cases ho with
    | error heq =>
      subst heq
      -- the exports got what is paired with the native ones, which have no other partner
      obtain ⟨base, hbase', hrel⟩ := exists_of_rel_some (hbase ▸ hh'.engine.heap.properties (hle _ _ hexports) "base")
      obtain rfl := hh'.engine.heap.oneToOne.2 hrel (he.mono hle)
      exact ⟨b', c', h', k', hrun, hrun', hbase, hbase'⟩
  · cases houtcome

end Bridge

end ScriptHost
