/-
What a program does with owners and raw references, command by command. Each command is an equation over the tables
and the engine, and it does something to the history of the program (`Deed`), which is told by the commands and by
what the engine hands out for them, not by the tables that they change. Main result: whoever loses a name gives back
a reference that is held, and everything else is still held.
-/
import ScriptHost.Proofs.Engine.Deeds
import ScriptHost.Proofs.Engine.Turnover

namespace ScriptHost

open Engine (refOf)
open scoped List

namespace Owners

variable {α β : Type}

/-! ## Runs of operations -/

theorem run_lift (x : EngineM α) (s : Owners) (e : Engine) :
    (liftM x : OwnersM α) s e = (x e).map fun r => ((r.1, s), r.2) := by
  show (x e >>= fun r => _) = _
  rcases x e with halt | ⟨a, e'⟩ <;> rfl

theorem run_lift_bind (x : EngineM α) (f : α → OwnersM β) (s : Owners) (e : Engine) :
    ((liftM x : OwnersM α) >>= f) s e = x e >>= fun r => f r.1 s r.2 := by
  show ((x e >>= fun r => _) >>= fun r => _) = _
  rcases x e with halt | ⟨a, e'⟩ <;> rfl

theorem run_get_bind (f : Owners → OwnersM β) (s : Owners) (e : Engine) : (get >>= f) s e = f s s e := rfl

theorem run_takeOwned_bind (name : String) (f : Option Ref → OwnersM β) (s : Owners) (e : Engine) :
    (takeOwned name >>= f) s e = f (s.owned.get? name) { s with owned := s.owned.erase name } e := rfl

theorem run_takeRaw_bind (name : String) (f : Option Ref → OwnersM β) (s : Owners) (e : Engine) :
    (takeRaw name >>= f) s e = f (s.raw.get? name) { s with raw := s.raw.erase name } e := rfl

theorem run_discard (x : OwnersM α) (s : Owners) (e : Engine) :
    (discard x) s e = (x s e).map fun r => (((), r.1.2), r.2) := by
  show (x s e >>= fun r => _) = _
  rcases x s e with halt | ⟨⟨a, s'⟩, e'⟩ <;> rfl

/-- What is answered behind it does not matter. -/
theorem run_discard_then (x : OwnersM Unit) (a : α) (s : Owners) (e : Engine) :
    (discard (x >>= fun _ => pure a)) s e = x s e := by
  rw [run_discard]
  show Except.map _ (x s e >>= fun r => _) = _
  rcases x s e with halt | ⟨⟨_, s'⟩, e'⟩ <;> rfl

/-- A reference is given back, if there is one. -/
def giveBack : Option Ref → EngineM Unit
  | some ref => Engine.release ref
  | none => pure ()

theorem run_keep (name : String) (ref : Ref) (s : Owners) (e : Engine) : keep name ref s e =
    (giveBack (s.owned.get? name) e).map fun r => (((), { s with owned := s.owned.insert name ref }), r.2) := by
  unfold keep
  rw [run_get_bind]
  cases s.owned.get? name with
  | none => rfl
  | some old => exact run_lift ..

/-- What is taken out of a table is given back, whatever is answered. -/
theorem run_discard_release (found : Option Ref) (s : Owners) (e : Engine) :
    (discard (match found with
      | some ref => do
        Engine.release ref
        return true
      | none => return false : OwnersM Bool)) s e = (giveBack found e).map fun r => (((), s), r.2) := by
  rw [run_discard]
  cases found with
  | none => rfl
  | some ref =>
    dsimp only
    rw [run_lift_bind]
    show _ = (Engine.release ref e).map _
    rcases Engine.release ref e with halt | ⟨_, e'⟩ <;> rfl

/-! ## Commands -/

/-- What a program may do with owners and raw references. -/
inductive Command where
  | create (name : String) (payload : Payload)
  | adopt (name : String) (program : Bytes)
  | duplicate (name source : String)
  | rewrap (name source : String)
  | unwrap (name : String)
  | release (name : String)
  | drop (name : String)
  | dropAll

namespace Command

def perform : Command → OwnersM Unit
  | .create name payload => Owners.create name payload
  | .adopt name program => discard (Owners.adopt name program)
  | .duplicate name source => discard (Owners.duplicate name source)
  | .rewrap name source => discard (Owners.rewrap name source)
  | .unwrap name => discard (Owners.unwrap name)
  | .release name => discard (Owners.release name)
  | .drop name => discard (Owners.drop name)
  | .dropAll => Owners.dropAll

/-- A value that is created leads nowhere. -/
def Legal : Command → Prop
  | .create _ payload => payload.properties = .empty
  | _ => True

/-- The reference that an engine would hand out. -/
def handedOut (op : EngineM α) (answer : α → Ref) (e : Engine) : Option Ref :=
  match op e with
  | .ok (a, _) => some (answer a)
  | .error _ => none

/-- An owner is made of a reference that is handed out, if one is; whoever has its name goes. -/
def gains (past : List Deed) (name : String) : Option Ref → List Deed
  | some ref => .made name ref :: Deed.vacated past name
  | none => []

/-- What the command does, by what was done before it and what the engine hands out for it. -/
def deeds (past : List Deed) (e : Engine) : Command → List Deed
  | .create name payload => gains past name (handedOut (Engine.create payload) id e)
  | .adopt name program => gains past name (handedOut (Engine.runSource program) refOf e)
  | .duplicate name source =>
    gains past name (((Deed.owners past).lookup source).bind fun ref => handedOut (Engine.acquire ref) id e)
  | .rewrap name source =>
    match (Deed.raws past).lookup source with
    | some ref => .rewrapped name source ref :: Deed.vacated past name
    | none => []
  | .unwrap name =>
    match (Deed.owners past).lookup name with
    | some ref => .unwrapped name ref :: Deed.overwritten past name
    | none => []
  | .release name => ((Deed.raws past).lookup name).toList.map (.released name)
  | .drop name => Deed.vacated past name
  | .dropAll => (Deed.owners past).map fun row => .dropped row.1 row.2

end Command

section Perform

variable {name source : String} {s : Owners}

theorem perform_create (payload : Payload) (e : Engine) : Command.perform (.create name payload) s e =
    Engine.create payload e >>= fun r => keep name r.1 s r.2 :=
  run_lift_bind ..

theorem perform_adopt (program : Bytes) (e : Engine) : Command.perform (.adopt name program) s e =
    Engine.runSource program e >>= fun r => keep name (refOf r.1) s r.2 := by
  show (discard (adopt name program)) s e = _
  rw [run_discard]
  unfold adopt
  rw [run_lift_bind]
  rcases Engine.runSource program e with halt | ⟨result, e'⟩
  · rfl
  · -- what is returned and what is thrown are kept alike, and only the answer tells them apart
    cases result <;> exact (run_discard ..).symm.trans (run_discard_then ..)

theorem perform_duplicate (e : Engine) : Command.perform (.duplicate name source) s e =
    match s.owned.get? source with
    | some ref => Engine.acquire ref e >>= fun r => keep name r.1 s r.2
    | none => .ok (((), s), e) := by
  show (discard (duplicate name source)) s e = _
  rw [run_discard]
  unfold duplicate
  rw [run_get_bind]
  cases s.owned.get? source with
  | none => rfl
  | some ref =>
    dsimp only
    rw [run_lift_bind]
    rcases Engine.acquire ref e with halt | ⟨copy, e'⟩
    · rfl
    · exact (run_discard ..).symm.trans (run_discard_then ..)

theorem perform_rewrap (e : Engine) : Command.perform (.rewrap name source) s e =
    match s.raw.get? source with
    | some ref => keep name ref { s with raw := s.raw.erase source } e
    | none => .ok (((), { s with raw := s.raw.erase source }), e) := by
  show (discard (rewrap name source)) s e = _
  rw [run_discard]
  unfold rewrap
  rw [run_takeRaw_bind]
  cases s.raw.get? source with
  | none => rfl
  | some ref => exact (run_discard ..).symm.trans (run_discard_then ..)

theorem perform_unwrap (e : Engine) : Command.perform (.unwrap name) s e =
    match s.owned.get? name with
    | some ref => .ok (((), { s with owned := s.owned.erase name, raw := s.raw.insert name ref }), e)
    | none => .ok (((), { s with owned := s.owned.erase name }), e) := by
  show (discard (unwrap name)) s e = _
  rw [run_discard]
  unfold unwrap
  rw [run_takeOwned_bind]
  cases s.owned.get? name <;> rfl

theorem perform_release (e : Engine) : Command.perform (.release name) s e =
    (giveBack (s.raw.get? name) e).map fun r => (((), { s with raw := s.raw.erase name }), r.2) :=
  run_discard_release (s.raw.get? name) _ e

theorem perform_drop (e : Engine) : Command.perform (.drop name) s e =
    (giveBack (s.owned.get? name) e).map fun r => (((), { s with owned := s.owned.erase name }), r.2) :=
  run_discard_release (s.owned.get? name) _ e

theorem perform_dropAll (e : Engine) : Command.perform .dropAll s e =
    (s.owned.rows.forM fun row => (liftM (Engine.release row.2) : OwnersM Unit)) { s with owned := .empty } e :=
  rfl

end Perform

/-! ## References that are given back -/

theorem exists_giveBack {found : Option Ref} {others : List Ref} {e : Engine}
    (h : e.Settled (found.toList ++ others)) : ∃ e', giveBack found e = .ok ((), e') ∧ e'.Settled others ∧
      Engine.Turnover 0 found.toList.length e e' := by
  cases found with
  | none => exact ⟨e, rfl, h, rfl, rfl⟩
  | some ref => exact Engine.exists_release h

/-- Whoever has the name gives its reference back, and all others are still held. -/
theorem exists_vacate {past : List Deed} {t : Table Ref} {e : Engine} {others : List Ref}
    (ht : t.rows ~ Deed.owners past) (h : e.Settled (Deed.owned past ++ others)) (name : String) :
    ∃ e', giveBack (t.get? name) e = .ok ((), e') ∧
      e'.Settled (Deed.owned (Deed.vacated past name ++ past) ++ others) ∧
      Engine.Turnover 0 ((Deed.owners past).lookup name).toList.length e e' := by
  rw [Table.get?_eq_lookup ht]
  exact exists_giveBack (h.perm (((Deed.owned_vacated past name).append_right others).trans
    (.of_eq (List.append_assoc ..))))

/-- An owner takes a reference that is held. -/
theorem exists_keep {past : List Deed} {s : Owners} {e : Engine} {ref : Ref} {others : List Ref}
    (howned : s.owned.rows ~ Deed.owners past) (h : e.Settled (ref :: (Deed.owned past ++ others))) (name : String) :
    ∃ e', keep name ref s e = .ok (((), { s with owned := s.owned.insert name ref }), e') ∧
      e'.Settled (ref :: (Deed.owned (Deed.vacated past name ++ past) ++ others)) ∧
      Engine.Turnover 0 ((Deed.owners past).lookup name).toList.length e e' := by
  obtain ⟨e', hback, hsettled, hturn⟩ := exists_vacate howned (h.perm List.perm_middle.symm) name
  refine ⟨e', ?_, hsettled.perm List.perm_middle, hturn⟩
  rw [run_keep, hback]
  rfl

theorem exists_forM_release (s : Owners) {others : List Ref} : ∀ {rows : List (String × Ref)} {e : Engine},
    e.Settled (rows.map (·.2) ++ others) → ∃ e',
      (rows.forM fun row => (liftM (Engine.release row.2) : OwnersM Unit)) s e = .ok (((), s), e') ∧
        e'.Settled others ∧ Engine.Turnover 0 rows.length e e'
  | [], e, h => ⟨e, rfl, h, rfl, rfl⟩
  | row :: rows, e, h => by
    obtain ⟨e₁, hrelease, hs, hturn⟩ := Engine.exists_release h
    obtain ⟨e', hrest, hs', hturn'⟩ := exists_forM_release s hs
    refine ⟨e', ?_, hs', hturn'.issued.trans hturn.issued, ?_⟩
    · show ((liftM (Engine.release row.2) : OwnersM Unit) >>= fun _ => rows.forM _) s e = _
      rw [run_lift_bind, hrelease]
      exact hrest
    · rw [hturn'.releases, hturn.releases, List.length_cons, Nat.add_assoc, Nat.add_comm 1]

/-- A reference that is unwrapped and wrapped again leaves the engine as it was. -/
theorem unwrap_rewrap {name other : String} {ref : Ref} {s : Owners} (h : s.owned.get? name = some ref)
    (hfree : (s.owned.erase name).get? other = none) (e : Engine) :
    (unwrap name >>= fun _ => rewrap other name) s e =
      .ok ((true, ⟨(s.owned.erase name).insert other ref, (s.raw.insert name ref).erase name⟩), e) := by
  unfold unwrap
  rw [bind_assoc, run_takeOwned_bind, h]
  show rewrap other name ⟨s.owned.erase name, s.raw.insert name ref⟩ e = _
  unfold rewrap
  rw [run_takeRaw_bind, Table.get?_insert_self]
  show (keep other ref ⟨s.owned.erase name, (s.raw.insert name ref).erase name⟩ e >>= fun _ => _) = _
  rw [run_keep, hfree]
  rfl

end Owners

end ScriptHost
