/-
The order in which an environment is listed. Variables that address different keys can be listed in any order,
unless one of them takes the debugger away and another one sets it up: then whichever comes last wins, and
two orders lead to two configurations.
-/
import ScriptHost.Proofs.Config.Effect

namespace ScriptHost.Config

/-- One of the assignments takes the debugger away, and another one sets it up. -/
def Torn (assignments : List (String × String)) : Prop :=
  (∃ a ∈ assignments, SwitchesOff a) ∧ ∃ a ∈ assignments, SetsUp a

theorem not_clash_of_not_torn {l : List (String × String)} (h : ¬ Torn l) {a b : String × String} (ha : a ∈ l)
    (hb : b ∈ l) : ¬ Effect.Clash (Effect.of a) (Effect.of b) := by
  rintro (⟨hoff, hedit⟩ | ⟨hedit, hoff⟩)
  · exact h ⟨⟨a, ha, Effect.of_eq_off_iff.1 hoff⟩, b, hb, Effect.exists_edit_iff.1 hedit⟩
  · exact h ⟨⟨b, hb, Effect.of_eq_off_iff.1 hoff⟩, a, ha, Effect.exists_edit_iff.1 hedit⟩

/-- Without a clash the order of the variables does not count. -/
theorem withEnvironment_perm {environment other : List Variable} (c : Config)
    (hd : ((assignments environment).map (·.1)).Nodup) (ht : ¬ Torn (assignments environment))
    (hp : other.Perm environment) : c.withEnvironment other = c.withEnvironment environment := by
  rw [withEnvironment_eq_foldl, withEnvironment_eq_foldl]
  have hassign : (assignments environment).Perm (assignments other) := (hp.filterMap _).symm
  refine (hassign.foldl_eq' (fun a ha b hb c => ?_) c).symm
  by_cases hname : a.1 = b.1
  · -- a name is assigned once
    rw [List.inj_on_of_nodup_map hd ha hb hname]
  · exact Effect.of_comm hname (not_clash_of_not_torn ht ha hb) c

theorem SwitchesOff.not_setsUp {a : String × String} (h : SwitchesOff a) : ¬ SetsUp a := by
  rw [← Effect.exists_edit_iff, Effect.of_eq_off_iff.2 h]
  rintro ⟨e, he⟩
  cases he

/-- The debugger that is set up stays until it is taken away. -/
theorem isSome_debugger_apply {a : String × String} (ha : ¬ SwitchesOff a) {c : Config}
    (h : c.debugger.isSome = true ∨ SetsUp a) : ((Effect.of a).apply c).debugger.isSome = true := by
  rw [← Effect.of_eq_off_iff] at ha
  rw [← Effect.exists_edit_iff] at h
  cases he : Effect.of a with
  | off => exact absurd he ha
  | edit e => rfl
  | nothing => simpa [he, Effect.apply] using h
  | loadstat b => simpa [he, Effect.apply] using h

theorem isSome_debugger_foldl : ∀ (l : List (String × String)) (c : Config), (∀ a ∈ l, ¬ SwitchesOff a) →
    (c.debugger.isSome = true ∨ ∃ a ∈ l, SetsUp a) →
    (l.foldl (fun c a => (Effect.of a).apply c) c).debugger.isSome = true
  | [], c, _, h => by simpa using h
  | a :: rest, c, hl, h => by
    refine isSome_debugger_foldl rest _ (fun b hb => hl b (List.mem_cons_of_mem _ hb)) ?_
    rcases h with h | ⟨b, hb, hup⟩
    · exact .inl (isSome_debugger_apply (hl a List.mem_cons_self) (.inl h))
    · rcases List.mem_cons.1 hb with rfl | hb
      · exact .inl (isSome_debugger_apply (hl _ List.mem_cons_self) (.inr hup))
      · exact .inr ⟨b, hb, hup⟩

/-- Two orders of an environment with a clash: the debugger is taken away last, or first. -/
theorem exists_orders_of_torn {environment : List Variable} (c : Config)
    (hd : ((assignments environment).map (·.1)).Nodup) (ht : Torn (assignments environment)) :
    ∃ last first : List Variable, last.Perm environment ∧ first.Perm environment ∧
      (c.withEnvironment last).debugger = none ∧ (c.withEnvironment first).debugger.isSome = true := by
  obtain ⟨⟨a, ha, hoff⟩, b, hb, hup⟩ := ht
  obtain ⟨v, hv, hva⟩ := List.mem_filterMap.1 ha
  have hperm := (List.perm_cons_erase hv).symm
  have hassign : (assignments (v :: environment.erase v)).Perm (assignments environment) := hperm.filterMap _
  have hcons : assignments (v :: environment.erase v) = a :: assignments (environment.erase v) :=
    List.filterMap_cons_some hva
  have happend : assignments (environment.erase v ++ [v]) = assignments (environment.erase v) ++ [a] := by
    simp [assignments, List.filterMap_append, hva]
  refine ⟨environment.erase v ++ [v], v :: environment.erase v, (List.perm_append_singleton _ _).trans hperm,
    hperm, ?_, ?_⟩
  · rw [withEnvironment_eq_foldl, happend, List.foldl_append, List.foldl_cons, List.foldl_nil,
      Effect.of_eq_off_iff.2 hoff]
    rfl
  · rw [hcons] at hassign
    have hnodup : (a.1 :: (assignments (environment.erase v)).map (·.1)).Nodup :=
      (hassign.map Prod.fst).nodup_iff.2 hd
    rw [withEnvironment_eq_foldl, hcons, List.foldl_cons]
    refine isSome_debugger_foldl _ _ (fun x hx hx' => ?_) (.inr ⟨b, ?_, hup⟩)
    · -- no other assignment has the name of the debugger
      refine (List.nodup_cons.1 hnodup).1 (List.mem_map.2 ⟨x, hx, ?_⟩)
      rw [hx'.1, hoff.1]
    · rcases List.mem_cons.1 (hassign.mem_iff.2 hb) with rfl | hb
      · exact absurd hup hoff.not_setsUp
      · exact hb

/-- Variables that address different keys come to one configuration in any order, from whatever configuration,
exactly if it is not the case that one of them takes the debugger away and another one sets it up. -/
theorem order_irrelevant_iff (c : Config) (environment : List Variable)
    (hd : ((assignments environment).map (·.1)).Nodup) :
    (∀ other : List Variable, other.Perm environment → c.withEnvironment other = c.withEnvironment environment) ↔
      ¬ Torn (assignments environment) := by
  constructor
  · intro h ht
    obtain ⟨last, first, hlast, hfirst, hnone, hsome⟩ := exists_orders_of_torn c hd ht
    rw [h last hlast] at hnone
    rw [h first hfirst, hnone] at hsome
    cases hsome
  · intro ht other hp
    exact withEnvironment_perm c hd ht hp

/-- A port, a word that switches the debugger on, and a variable of something else, in two orders. -/
theorem order_irrelevant_iff_port :
    let environment := [("SPACEY_DEBUGGER", "on"), ("HOME", "/"), ("SPACEY_DEBUGGER_PORT", "6000")]
    ((assignments environment).map (·.1)).Nodup ∧ ¬ Torn (assignments environment) ∧
      default.withEnvironment environment.reverse = default.withEnvironment environment := by
  intro environment
  have hassign : assignments environment = [("debugger", "on"), ("debugger-port", "6000")] := by decide +kernel
  have hd : ((assignments environment).map (·.1)).Nodup := by rw [hassign]; decide
  have ht : ¬ Torn (assignments environment) := by
    rw [hassign]
    rintro ⟨⟨a, ha, hoff⟩, -⟩
    simp only [List.mem_cons, List.not_mem_nil, or_false] at ha
    rcases ha with rfl | rfl
    · exact absurd hoff.2 (by decide)
    · exact absurd hoff.1 (by decide)
  exact ⟨hd, ht, (order_irrelevant_iff default environment hd).2 ht _ (List.reverse_perm _)⟩

/-- Different keys are not enough: a variable that takes the debugger away, before or behind one for its
port. -/
theorem order_matters : ((assignments [("SPACEY_DEBUGGER", "0"), ("SPACEY_DEBUGGER_PORT", "6000")]).map (·.1)).Nodup ∧
    [("SPACEY_DEBUGGER_PORT", "6000"), ("SPACEY_DEBUGGER", "0")].Perm
      [("SPACEY_DEBUGGER", "0"), ("SPACEY_DEBUGGER_PORT", "6000")] ∧
    ofEnv [("SPACEY_DEBUGGER", "0"), ("SPACEY_DEBUGGER_PORT", "6000")] =
      ⟨some { DebuggerSettings.default with port := 6000 }, false⟩ ∧
    ofEnv [("SPACEY_DEBUGGER_PORT", "6000"), ("SPACEY_DEBUGGER", "0")] = ⟨none, false⟩ := by
  refine ⟨by decide +kernel, List.Perm.swap .., by decide +kernel, by decide +kernel⟩

end ScriptHost.Config
