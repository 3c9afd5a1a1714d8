/-
The balance of native modules. What the functions of the host have to do for it: a builder hands over
the one reference that it returns, and a loader gives back all that it takes. Then asking for a module
leaves one reference with whoever asked and one with the table, which keeps it for the next time; a
module that cannot be built and a library that cannot be loaded leave none.

Builders and loaders that only run scripts do so.
-/
import ScriptHost.Proofs.Host.Balance
import ScriptHost.Registry.Native

namespace ScriptHost

open Engine (refOf errorOf)

variable {lo : Nat} {counts : Counts}

/-! ## What is expected of the host -/

/-- The builder hands over the reference that it returns, and nothing else, on every heap of at least
`lo` cells. -/
def ExportsBuilder.HandsOver (lo : Nat) (init : ExportsBuilder) : Prop :=
  ∀ size counts run, lo ≤ size → Triple (Host.Balanced size counts) (init run) fun result =>
    Host.Balanced size (counts + one (refOf result).slot)

/-- The loader gives back what it takes, where the object that it loads into is held. -/
def Loader.GivesBack (lo : Nat) (load : Loader) : Prop :=
  ∀ size counts location exports, lo ≤ size → Known size counts exports.slot →
    Triple (Host.Balanced size counts) (load location exports) fun _ => Host.Balanced size counts

/-- The builders and the loader of a table are as expected. -/
structure NativeTable.Honest (lo : Nat) (t : NativeTable) : Prop where
  builders : ∀ row ∈ t.entries.rows, row.2.init.HandsOver lo
  loader : ∀ load ∈ t.loader, load.GivesBack lo

theorem NativeTable.Honest.mono {lo hi : Nat} {t : NativeTable} (h : t.Honest lo) (hle : lo ≤ hi) :
    t.Honest hi :=
  ⟨fun row hrow size counts run hs => h.builders row hrow size counts run (le_trans hle hs),
    fun load hload size counts location exports hs =>
      h.loader load hload size counts location exports (le_trans hle hs)⟩

/-! ## Native modules -/

namespace NativeTable

/-- The references that a table keeps. -/
def cached (t : NativeTable) : List Ref := t.entries.rows.filterMap (·.2.exports)

theorem mem_cached {t : NativeTable} {id : String} {entry : NativeModule} {exports : Ref}
    (h : t.entries.get? id = some entry) (he : entry.exports = some exports) : exports ∈ t.cached :=
  List.mem_filterMap.2 ⟨(id, entry), (Table.get?_eq_some_iff ..).1 h, he⟩

/-- After a run the table keeps what was built, besides what it kept before. -/
theorem tally_cached_afterRun {t : NativeTable} {id : String} {entry : NativeModule}
    (h : t.entries.get? id = some entry) (hnone : entry.exports = none) (exports : Option Ref) :
    tally (t.afterRun id entry exports).cached = tally t.cached + tally exports.toList := by
  obtain ⟨before, after, hrows, hins⟩ :=
    Table.insertRow_of_mem t.entries.sorted ((Table.get?_eq_some_iff ..).1 h)
  show tally ((Table.insertRow id _ t.entries.rows).filterMap (·.2.exports)) = _
  unfold cached
  rw [hins, hrows]
  simp only [List.filterMap_append, List.filterMap_cons, hnone, tally_append]
  cases exports with
  | none => rw [Option.toList_none, tally_nil, add_zero]
  | some exports => rw [Option.toList_some, tally_cons, tally_cons, tally_nil, zero_add, ← add_assoc]

/-- Runs do not change the builders. -/
theorem builders_afterRun {P : ExportsBuilder → Prop} {t : NativeTable} {id : String} {entry : NativeModule}
    (ht : ∀ row ∈ t.entries.rows, P row.2.init) (h : t.entries.get? id = some entry) (exports : Option Ref) :
    ∀ row ∈ (t.afterRun id entry exports).entries.rows, P row.2.init := by
  intro row hrow
  rcases Table.mem_insertRow hrow with rfl | hrow
  · exact ht (id, entry) ((Table.get?_eq_some_iff ..).1 h)
  · exact ht row hrow

theorem Honest.afterRun {t : NativeTable} {id : String} {entry : NativeModule} (ht : t.Honest lo)
    (h : t.entries.get? id = some entry) (exports : Option Ref) : (t.afterRun id entry exports).Honest lo :=
  ⟨builders_afterRun ht.builders h exports, ht.loader⟩

/-- The counts when a table was asked for a module. -/
def asked (counts : Counts) (r : Except HostError (Option Ref) × NativeTable) : Counts :=
  settled (fun exports => counts + tally exports.toList) counts r.1 + tally r.2.cached

/-- Asking for a module hands out one reference to its exports, if there are any; the table keeps one of
its own from when they are built. -/
theorem triple_get {t : NativeTable} (ht : t.Honest lo) (id : String) :
    Triple (Host.Balanced lo (counts + tally t.cached)) (t.get id) fun r host =>
      r.2.Honest lo ∧ host.Balanced lo (asked counts r) := by
  unfold NativeTable.get
  split
  · exact triple_pure fun host hb => ⟨ht, by rw [asked, settled, Option.toList_none, tally_nil, add_zero]; exact hb⟩
  · rename_i entry hentry
    split
    · -- the reference of the table keeps the cell, and the caller gets another one
      rename_i exports hexports
      have hk : Known lo (counts + tally t.cached) exports.slot :=
        .inr (Nat.add_pos_right _ (tally_pos (mem_cached hentry hexports)))
      refine triple_bind (Host.triple_acquire hk) fun handle => triple_pure fun host hb => ⟨ht, ?_⟩
      rw [add_right_comm] at hb
      rw [asked, settled, Option.toList_some, tally_cons, tally_nil, zero_add]
      exact hb
    · rename_i hnone
      have hinit := ht.builders (id, entry) ((Table.get?_eq_some_iff ..).1 hentry)
      refine triple_bind (hinit lo _ entry.runs (le_refl lo)) fun result => ?_
      cases result with
      | ok exports =>
        -- what the builder hands over becomes the reference of the table
        refine triple_bind (Host.triple_emit _) fun _ => ?_
        refine triple_bind (Host.triple_acquire known_one) fun handle => triple_pure fun host hb => ?_
        refine ⟨ht.afterRun hentry _, ?_⟩
        rw [asked, settled, tally_cached_afterRun hentry hnone]
        simp only [Option.toList_some, tally_cons, tally_nil, zero_add]
        rw [add_right_comm counts, ← add_assoc]
        exact hb
      | error error =>
        refine triple_bind (Host.triple_messageOf error) fun reason => ?_
        refine triple_bind (Host.triple_emit _) fun _ => ?_
        refine triple_bind Host.triple_release fun _ => triple_pure fun host hb => ?_
        refine ⟨ht.afterRun hentry _, ?_⟩
        rw [asked, settled, tally_cached_afterRun hentry hnone, Option.toList_none, tally_nil, add_zero]
        exact hb

/-- A library is loaded into an object of its own, which is given back where it cannot be loaded. -/
theorem settles_loadLibrary {t : NativeTable} (ht : t.Honest lo) (location : String) :
    Attempt.Settles lo counts (t.loadLibrary location) (fun ref => counts + one ref.slot) counts := by
  unfold NativeTable.loadLibrary
  split
  · exact Attempt.settles_throw
  · rename_i load hload
    refine Attempt.settles_bind (Attempt.settles_lift Host.triple_newObject) fun exports => ?_
    refine Attempt.settles_bind (Attempt.settles_lift
      (ht.loader load hload lo _ location exports (le_refl lo) known_one)) fun outcome => ?_
    cases outcome with
    | ok _ => exact Attempt.settles_pure rfl
    | error reason =>
      refine Attempt.settles_bind (Attempt.settles_lift (Host.triple_emit _)) fun _ => ?_
      exact Attempt.settles_bind (Attempt.settles_lift Host.triple_release) fun _ => Attempt.settles_throw

end NativeTable

/-! ## Scripted modules and libraries -/

theorem ExportsBuilder.handsOver_ofPrograms (lo : Nat) (programs : List Bytes) :
    (ExportsBuilder.ofPrograms programs).HandsOver lo := by
  intro size counts run _
  unfold ExportsBuilder.ofPrograms
  split
  · exact triple_map Host.triple_newObject
  · exact Host.triple_runBlob _

theorem triple_loadProperty {exports : Ref} (hk : Known lo counts exports.slot) (name : String) (program : Bytes) :
    Triple (Host.Balanced lo counts) (loadProperty exports name program) fun _ => Host.Balanced lo counts := by
  refine triple_bind (Host.triple_runBlob _) fun result => ?_
  cases result with
  | error error =>
    refine triple_bind (Host.triple_messageOf error) fun reason => ?_
    exact triple_bind Host.triple_release fun _ => triple_pure fun _ hb => hb
  | ok value =>
    refine triple_bind (Host.triple_writeProperty (hk.add _) known_one name) fun result => ?_
    cases result with
    | ok _ => exact triple_bind Host.triple_release fun _ => triple_pure fun _ hb => hb
    | error error =>
      refine triple_bind (Host.triple_messageOf error) fun reason => ?_
      refine triple_bind Host.triple_release fun _ => ?_
      exact triple_bind Host.triple_release fun _ => triple_pure fun _ hb => hb

theorem triple_loadProperties {exports : Ref} (hk : Known lo counts exports.slot) :
    ∀ properties : List (String × Bytes),
      Triple (Host.Balanced lo counts) (loadProperties exports properties) fun _ => Host.Balanced lo counts
  | [] => triple_pure fun _ hb => hb
  | (name, program) :: rest => by
    refine triple_bind (triple_loadProperty hk name program) fun outcome => ?_
    cases outcome with
    | ok _ => exact triple_loadProperties hk rest
    | error reason => exact triple_pure fun _ hb => hb

theorem Loader.givesBack_ofLibraries (lo : Nat) (libraries : Table (List (String × Bytes))) :
    (Loader.ofLibraries libraries).GivesBack lo := by
  intro size counts location exports _ hk
  unfold Loader.ofLibraries
  split
  · exact triple_loadProperties hk _
  · exact triple_pure fun _ hb => hb

end ScriptHost
