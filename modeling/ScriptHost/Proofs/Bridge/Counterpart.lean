/-
Native modules as a load meets them. A builder that makes an object or runs a blob asks the engine for no factory
and calls none; and since a blob is given no values, whether it throws depends on the depth of the engine alone,
so that one can tell beforehand, before anything else has happened on the heap, that a builder will fail.
-/
import ScriptHost.Proofs.Bridge.Wholeness
import ScriptHost.Proofs.Host.Correspondence
import ScriptHost.Proofs.Host.Work
import Mathlib.Tactic

namespace ScriptHost

/-! ## Builders that fail -/

theorem Engine.runOut_ne_overReleased (r : Run Slot) (e : Engine) (slot : Slot) :
    runOut r e ≠ .error (.overReleased slot) := by
  rw [runOut_eq]
  split <;> exact nofun

/-- A blob is given no values, so that it throws on one engine as it does on another of the same depth. -/
theorem Engine.runBlob_throws {blob : Bytes} {e e' f : Engine} {error : Ref} (hdepth : e.depth = f.depth)
    (hr : runBlob blob e = .ok (.error error, e')) : ∃ error' f', runBlob blob f = .ok (.error error', f') := by
  -- no two values are paired: the run starts from nothing on either side
  have hpaired : e.Paired ⊥ f := ⟨⟨⟨fun _ _ _ h => h.elim, fun _ _ _ h => h.elim⟩, fun h => h.elim, fun h => h.elim⟩,
    hdepth.le⟩
  have hmatched := follows_runBlob (R := ⊥) blob ⊥ e f (le_refl _) hpaired
  rw [hr] at hmatched
  rcases hf : runBlob blob f with (_ | slot) | ⟨result, f'⟩
  · rw [hf] at hmatched
    exact hmatched.elim
  · rw [runBlob_eq] at hf
    exact absurd hf (runOut_ne_overReleased _ _ slot)
  · rw [hf] at hmatched
    obtain ⟨_, -, -, hsides⟩ := hmatched
    cases hsides with
    | error _ => exact ⟨_, f', rfl⟩

namespace ExportsBuilder.Scripted

variable {init : ExportsBuilder}

theorem idle (h : init.Scripted) (run : Nat) : Idle (init run) := by
  rcases h run with he | ⟨blob, he⟩
  · rw [he]; exact idle_map _ Host.idle_newObject
  · rw [he]; exact Host.idle_runBlob blob

theorem fails {h k mid : Host} {run : Nat} {error : Ref} (hs : init.Scripted)
    (hdepth : h.engine.depth = k.engine.depth) (hr : init run h = .ok (.error error, mid)) :
    ∃ error' mid', init run k = .ok (.error error', mid') := by
  rcases hs run with he | ⟨blob, he⟩
  · rw [he] at hr
    obtain ⟨_, -, hok⟩ := exists_of_run_map hr
    cases hok
  · rw [he] at hr ⊢
    obtain ⟨error', f', hf⟩ := Engine.runBlob_throws hdepth (Host.engine_of_call hr)
    obtain ⟨mid', hmid, -⟩ := Host.call_ok (.runBlob blob.length) hf
    exact ⟨error', mid', hmid⟩

end ExportsBuilder.Scripted

namespace NativeTable

variable {t t' : NativeTable} {id : String} {h h' k : Host}

/-- The table has a module of this id that is not built yet, and its builder fails. -/
def Fails (t : NativeTable) (id : String) (h : Host) : Prop :=
  ∃ entry error mid, t.entries.get? id = some entry ∧ entry.exports = none ∧
    entry.init entry.runs h = .ok (.error error, mid)

theorem Scripted.fails (ht : t.Scripted) (hdepth : h.engine.depth = k.engine.depth) (hf : t.Fails id h) :
    t.Fails id k := by
  obtain ⟨entry, error, mid, hentry, hnone, hinit⟩ := hf
  obtain ⟨error', mid', hinit'⟩ := (ht (id, entry) ((Table.get?_eq_some_iff ..).1 hentry)).fails hdepth hinit
  exact ⟨entry, error', mid', hentry, hnone, hinit'⟩

/-- What asking for a module comes to: there is none, there is one, or its builder fails. -/
inductive Asked (t : NativeTable) (id : String) (h : Host) : Except HostError (Option Ref) → Prop where
  | unknown : t.entries.get? id = none → Asked t id h (.ok none)
  | given {entry : NativeModule} {handle : Ref} :
      t.entries.get? id = some entry → ¬ t.Fails id h → Asked t id h (.ok (some handle))
  | failed {reason : String} : t.Fails id h → Asked t id h (.error (.nativeLoad id reason))

theorem not_fails_of_unknown (hnone : t.entries.get? id = none) : ¬ t.Fails id h := by
  rintro ⟨entry, _, _, hentry, -⟩
  rw [hnone] at hentry
  cases hentry

theorem Got.asked {result : Except HostError (Option Ref)} (hg : t.Got id h result t' h') : t.Asked id h result := by
  cases hg with
  | unknown hnone => exact .unknown hnone
  | again hentry hexports _ =>
    refine .given hentry fun ⟨other, _, _, hother, hnone, _⟩ => ?_
    rw [hentry] at hother
    cases hother
    rw [hexports] at hnone
    cases hnone
  | built hentry _ hinit _ =>
    refine .given hentry fun ⟨other, _, _, hother, _, hfails⟩ => ?_
    rw [hentry] at hother
    cases hother
    rw [hinit] at hfails
    cases hfails
  | failed hentry hnone hinit _ => exact .failed ⟨_, _, _, hentry, hnone, hinit⟩

theorem Scripted.idle_get (ht : t.Scripted) (id : String) : Idle (t.get id) := by
  unfold get
  split
  · exact takes_pure rfl
  · rename_i entry hentry
    split
    · exact takes_next (Host.idle_acquire _) fun _ => takes_pure rfl
    · have hscripted := ht (id, entry) ((Table.get?_eq_some_iff ..).1 hentry)
      refine takes_next (hscripted.idle entry.runs) fun result => ?_
      cases result with
      | ok exports =>
        exact takes_next (Host.idle_emit _) fun _ => takes_next (Host.idle_acquire _) fun _ => takes_pure rfl
      | error error =>
        refine takes_next (Host.idle_messageOf error) fun reason => ?_
        exact takes_next (Host.idle_emit _) fun _ => takes_next (Host.idle_release _) fun _ => takes_pure rfl

end NativeTable

/-- Asking for the native counterpart of a module is idle. -/
theorem Bridge.native_asked {b b' : Bridge} {h h' : Host} {id : String} {r : Except HostError (Option Ref)}
    (hb : b.natives.Scripted) (hr : (native id).run b h = .ok ((r, b'), h')) :
    h.Does 0 h' ∧ b.natives.Asked id h r := by
  rw [run_native] at hr
  obtain ⟨⟨⟨result, natives⟩, host₁⟩, hget, he⟩ := exists_of_bind_ok hr
  cases he
  exact ⟨(hb.idle_get id).does hget, (NativeTable.got_of_get hget).asked⟩

end ScriptHost
