/-
A history of owners and raw references, newest deed first. It says who became an owner of what and who has gone,
which references were taken out of their owners, wrapped again, given back or forgotten, and nothing in it is read
off the tables of a program: the owners of a history are those that were made and neither dropped nor unwrapped
since, its raw references those that were neither wrapped again nor given back. What a command does to a history
depends on the history and on what the engine hands out for it, and on nothing else.
-/
import ScriptHost.Engine.Ownership
import ScriptHost.Proofs.Table

namespace ScriptHost

open scoped List

/-! ## Deeds -/

/-- What is done with a reference, and with the name under which it is known. -/
inductive Deed where
  /-- The engine hands out a reference, which gets an owner. -/
  | made (name : String) (ref : Ref)
  /-- An owner goes, and its reference is given back. -/
  | dropped (name : String) (ref : Ref)
  | unwrapped (name : String) (ref : Ref)
  | rewrapped (name source : String) (ref : Ref)
  /-- The engine hands out a reference, which stays raw. -/
  | received (name : String) (ref : Ref)
  | released (name : String) (ref : Ref)
  /-- Another raw reference takes the name. -/
  | forgotten (name : String) (ref : Ref)

namespace Deed

/-- The owners that were made and neither dropped nor unwrapped. -/
def owners : List Deed → List (String × Ref)
  | [] => []
  | .made name ref :: past | .rewrapped name _ ref :: past => (name, ref) :: owners past
  | .dropped name ref :: past | .unwrapped name ref :: past => (owners past).erase (name, ref)
  | .received .. :: past | .released .. :: past | .forgotten .. :: past => owners past

/-- The raw references that have a name still. -/
def raws : List Deed → List (String × Ref)
  | [] => []
  | .unwrapped name ref :: past | .received name ref :: past => (name, ref) :: raws past
  | .rewrapped _ source ref :: past => (raws past).erase (source, ref)
  | .released name ref :: past | .forgotten name ref :: past => (raws past).erase (name, ref)
  | .made .. :: past | .dropped .. :: past => raws past

/-- The raw references that were forgotten. -/
def lost : List Deed → List Ref
  | [] => []
  | .forgotten _ ref :: past => ref :: lost past
  | _ :: past => lost past

/-- How many references were handed out. -/
def handed : List Deed → Nat
  | [] => 0
  | .made .. :: past | .received .. :: past => handed past + 1
  | _ :: past => handed past

/-- How many references were given back. -/
def returned : List Deed → Nat
  | [] => 0
  | .dropped .. :: past | .released .. :: past => returned past + 1
  | _ :: past => returned past

/-- The references that have an owner. -/
def owned (past : List Deed) : List Ref := (owners past).map (·.2)

/-- The references that have none and were neither wrapped again nor given back. -/
def raw (past : List Deed) : List Ref := (raws past).map (·.2) ++ lost past

def held (past : List Deed) : List Ref := owned past ++ raw past

/-! ## Names that are taken -/

/-- The owner that has the name goes. -/
def vacated (past : List Deed) (name : String) : List Deed :=
  ((owners past).lookup name).toList.map (.dropped name)

/-- The raw reference that has the name is forgotten. -/
def overwritten (past : List Deed) (name : String) : List Deed :=
  ((raws past).lookup name).toList.map (.forgotten name)

variable (past : List Deed) (name : String)

theorem owners_vacated : owners (vacated past name ++ past) = Table.without name (owners past) := by
  unfold vacated Table.without
  cases (owners past).lookup name <;> rfl

theorem raws_vacated : raws (vacated past name ++ past) = raws past := by
  unfold vacated
  cases (owners past).lookup name <;> rfl

theorem lost_vacated : lost (vacated past name ++ past) = lost past := by
  unfold vacated
  cases (owners past).lookup name <;> rfl

theorem raw_vacated : raw (vacated past name ++ past) = raw past := by
  rw [raw, raws_vacated, lost_vacated, raw]

theorem handed_vacated : handed (vacated past name ++ past) = handed past := by
  unfold vacated
  cases (owners past).lookup name <;> rfl

theorem returned_vacated :
    returned (vacated past name ++ past) = returned past + ((owners past).lookup name).toList.length := by
  unfold vacated
  cases (owners past).lookup name <;> rfl

/-- The reference of the name is given back, and all others are still held. -/
theorem owned_vacated : owned past ~ ((owners past).lookup name).toList ++ owned (vacated past name ++ past) := by
  have hperm := (Table.perm_without name (owners past)).map (·.2)
  unfold owned
  rw [owners_vacated]
  cases hrow : (owners past).lookup name <;> rw [hrow] at hperm <;> exact hperm

theorem raws_overwritten : raws (overwritten past name ++ past) = Table.without name (raws past) := by
  unfold overwritten Table.without
  cases (raws past).lookup name <;> rfl

theorem owners_overwritten : owners (overwritten past name ++ past) = owners past := by
  unfold overwritten
  cases (raws past).lookup name <;> rfl

theorem handed_overwritten : handed (overwritten past name ++ past) = handed past := by
  unfold overwritten
  cases (raws past).lookup name <;> rfl

theorem returned_overwritten : returned (overwritten past name ++ past) = returned past := by
  unfold overwritten
  cases (raws past).lookup name <;> rfl

/-- A reference that is forgotten is held all the same. -/
theorem raw_overwritten : raw (overwritten past name ++ past) ~ raw past := by
  unfold raw
  have hperm := (Table.perm_without name (raws past)).map (·.2)
  rw [raws_overwritten]
  unfold overwritten
  cases hrow : (raws past).lookup name with
  | none =>
    rw [hrow] at hperm
    exact hperm.symm.append_right _
  | some ref =>
    rw [hrow] at hperm
    exact List.perm_middle.trans (hperm.symm.append_right (lost past))

section Rows

variable {past} {t : Table Ref}

/-- A table of owners that takes another one under the name. -/
theorem rows_insert_vacated (h : t.rows ~ owners past) (name : String) (ref : Ref) :
    (t.insert name ref).rows ~ (name, ref) :: owners (vacated past name ++ past) := by
  rw [owners_vacated]
  exact Table.rows_insert_perm h name ref

/-- A table of raw references that takes another one under the name. -/
theorem rows_insert_overwritten (h : t.rows ~ raws past) (name : String) (ref : Ref) :
    (t.insert name ref).rows ~ (name, ref) :: raws (overwritten past name ++ past) := by
  rw [raws_overwritten]
  exact Table.rows_insert_perm h name ref

end Rows

/-! ## Deeds on references that are held -/

/-- Owners that are dropped one after the other. -/
theorem owners_dropped (past : List Deed) : ∀ rows : List (String × Ref),
    owners (rows.map (fun row => .dropped row.1 row.2) ++ past) = (owners past).diff rows
  | [] => rfl
  | row :: rows => by
    rw [List.diff_cons_right, ← owners_dropped past rows]
    rfl

theorem owners_dropped_all (past : List Deed) :
    owners ((owners past).map (fun row => .dropped row.1 row.2) ++ past) = [] := by
  rw [owners_dropped]
  induction owners past with
  | nil => rfl
  | cons row rows ih => rw [List.diff_cons, List.erase_cons_head, ih]

theorem rest_dropped (past : List Deed) : ∀ rows : List (String × Ref),
    let dropped := rows.map (fun row => Deed.dropped row.1 row.2) ++ past
    raws dropped = raws past ∧ lost dropped = lost past ∧ handed dropped = handed past ∧
      returned dropped = returned past + rows.length
  | [] => ⟨rfl, rfl, rfl, rfl⟩
  | _ :: rows => by
    obtain ⟨hraws, hlost, hhanded, hreturned⟩ := rest_dropped past rows
    exact ⟨hraws, hlost, hhanded, congrArg (· + 1) hreturned⟩

variable {past name} {ref : Ref}

theorem owned_of_mem (h : (name, ref) ∈ owners past) :
    owned past ~ ref :: ((owners past).erase (name, ref)).map (·.2) := by
  have hperm := (List.perm_cons_erase h).map Prod.snd
  exact hperm

theorem mem_held (h : (name, ref) ∈ owners past) : ref ∈ held past :=
  List.mem_append_left _ (List.mem_map_of_mem h)

theorem raw_of_mem (h : (name, ref) ∈ raws past) :
    raw past ~ ref :: (((raws past).erase (name, ref)).map (·.2) ++ lost past) := by
  have hperm := (List.perm_cons_erase h).map Prod.snd
  exact hperm.append_right (lost past)

/-- A raw reference that is given back is held no more. -/
theorem held_released (h : (name, ref) ∈ raws past) : held past ~ ref :: held (.released name ref :: past) :=
  ((raw_of_mem h).append_left (owned past)).trans List.perm_middle

/-- A reference that is taken out of its owner is held as before. -/
theorem held_unwrapped (h : (name, ref) ∈ owners past) : held (.unwrapped name ref :: past) ~ held past :=
  calc held (.unwrapped name ref :: past)
    _ ~ ref :: (((owners past).erase (name, ref)).map (·.2) ++ raw past) := List.perm_middle
    _ ~ held past := (owned_of_mem h).symm.append_right (raw past)

/-- A name that is taken from a raw reference changes nothing about what is held. -/
theorem held_overwritten (past : List Deed) (name : String) : held (overwritten past name ++ past) ~ held past := by
  unfold held owned
  rw [owners_overwritten]
  exact (raw_overwritten past name).append_left _

theorem held_received (past : List Deed) (name : String) (ref : Ref) :
    held (.received name ref :: (overwritten past name ++ past)) ~ ref :: held past :=
  calc held (.received name ref :: (overwritten past name ++ past))
    _ ~ ref :: held (overwritten past name ++ past) := List.perm_middle
    _ ~ ref :: held past := (held_overwritten past name).cons ref

end Deed

end ScriptHost
