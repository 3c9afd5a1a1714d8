/-
What an environment comes to, read off its assignments without going through them: the latest assignment to
a key counts. Only the debugger has two sides to it. Whatever takes it away takes along all that was set of it
before, so its settings are the latest ones since then; and where nothing since then sets it up, it stays as
that left it.
-/
import ScriptHost.Proofs.Config.Effect
import Mathlib.Data.List.DropRight

namespace ScriptHost.Config

instance : DecidablePred SwitchesOff := fun a => inferInstanceAs (Decidable (a.1 = "debugger" ∧ isOn a.2 = false))

instance : DecidablePred SetsUp := fun a => inferInstanceAs (Decidable (a.1 = "debugger" ∧ isOn a.2 = true ∨
  a.1 = "debugger-port" ∧ (Decimal.readWord a.2.toList).isOk = true ∨
    a.1 = "debugger-channel" ∨ a.1 = "debugger-wait-source" ∨ a.1 = "debugger-context-reset"))

/-! ## The latest value of a key -/

/-- What the last assignment to a key gives, of those whose values can be read. -/
def latest {α : Type} (key : Key) (read : String → Option α) (l : List (String × String)) : Option α :=
  l.reverse.findSome? fun a => if a.1 = key.name then read a.2 else none

theorem latest_concat {α : Type} (key : Key) (read : String → Option α) (l : List (String × String))
    (a : String × String) : latest key read (l ++ [a]) =
      if a.1 = key.name then (read a.2).or (latest key read l) else latest key read l := by
  unfold latest
  rw [List.reverse_append, List.reverse_singleton, List.singleton_append, List.findSome?_cons]
  by_cases hname : a.1 = key.name
  · simp only [if_pos hname]
    cases read a.2 <;> rfl
  · simp only [if_neg hname]

/-- An assignment to one key is none to another one. -/
theorem latest_concat_name {α : Type} (key other : Key) (read : String → Option α) (l : List (String × String))
    (value : String) : latest key read (l ++ [(other.name, value)]) =
      if other = key then (read value).or (latest key read l) else latest key read l := by
  have hname : other.name = key.name ↔ other = key := by
    constructor
    · intro h
      have hkey := Key.ofName?_eq_some_iff.2 h
      rw [Key.ofName?_eq_some_iff.2 rfl] at hkey
      exact Option.some.inj hkey
    · exact congrArg Key.name
  rw [latest_concat]
  simp only [hname]

/-- The port that a value is read as. -/
def readPort (value : String) : Option UInt16 := (Decimal.readWord value.toList).toOption

/-- The latest values of all settings, from a start. -/
def latestSettings (start : DebuggerSettings) (l : List (String × String)) : DebuggerSettings where
  port := (latest .port readPort l).getD start.port
  channel := (latest .channel some l).getD start.channel
  waitSource := (latest .waitSource (some ∘ isOn) l).getD start.waitSource
  contextReset := (latest .contextReset (some ∘ isOn) l).getD start.contextReset

namespace Effect

/-- What the effect does to settings that are there. -/
def onSettings : Effect → DebuggerSettings → DebuggerSettings
  | edit e, d => e.apply d
  | _, d => d

/-- The value that the effect gives the load report. -/
def loadstat? : Effect → Option Bool
  | loadstat value => some value
  | _ => none

end Effect

/-- One more assignment does to the latest values what its effect does. -/
theorem latest_concat_effect (start : DebuggerSettings) (l : List (String × String)) (a : String × String) :
    latestSettings start (l ++ [a]) = (Effect.of a).onSettings (latestSettings start l) ∧
    latest .loadstat (some ∘ isOn) (l ++ [a]) =
      (Effect.of a).loadstat?.or (latest .loadstat (some ∘ isOn) l) := by
  cases hkey : Key.ofName? a.1 with
  | none =>
    -- the name is no key, so no key takes its value from here
    have hname : ∀ key : Key, a.1 ≠ key.name := by
      intro key he
      rw [Key.ofName?_eq_some_iff.2 he] at hkey
      cases hkey
    rw [Effect.of, hkey]
    simp [latestSettings, latest_concat, hname, Effect.onSettings, Effect.loadstat?]
  | some key =>
    obtain ⟨name, value⟩ := a
    obtain rfl := Key.ofName?_eq_some_iff.1 hkey
    have hkeyed := Effect.keyed_ofKey value key
    rw [Effect.of_name]
    generalize Effect.ofKey value key = effect at hkeyed ⊢
    cases hkeyed with
    | on => simp [latestSettings, latest_concat_name, Effect.onSettings, Effect.loadstat?, Edit.apply]
    | off => simp [latestSettings, latest_concat_name, Effect.onSettings, Effect.loadstat?]
    | port hport =>
      have hread : readPort value = some _ := congrArg Except.toOption hport
      simp [latestSettings, latest_concat_name, Effect.onSettings, Effect.loadstat?, Edit.apply, hread]
    | noPort hport =>
      have hread : readPort value = none := congrArg Except.toOption hport
      simp [latestSettings, latest_concat_name, Effect.onSettings, Effect.loadstat?, hread]
    | channel => simp [latestSettings, latest_concat_name, Effect.onSettings, Effect.loadstat?, Edit.apply]
    | waitSource => simp [latestSettings, latest_concat_name, Effect.onSettings, Effect.loadstat?, Edit.apply]
    | contextReset => simp [latestSettings, latest_concat_name, Effect.onSettings, Effect.loadstat?, Edit.apply]
    | loadstat => simp [latestSettings, latest_concat_name, Effect.onSettings, Effect.loadstat?]

/-- Where nothing sets up the debugger, no setting has a value. -/
theorem latestSettings_of_not_setsUp (start : DebuggerSettings) (l : List (String × String))
    (h : ∀ a ∈ l, ¬ SetsUp a) : latestSettings start l = start := by
  induction l using List.reverseRecOn with
  | nil => rfl
  | append_singleton l a ih =>
    rw [(latest_concat_effect start l a).1, ih fun b hb => h b (List.mem_append_left _ hb)]
    have ha : ¬ SetsUp a := h a (List.mem_append_right _ List.mem_cons_self)
    cases he : Effect.of a with
    | edit e => exact absurd (Effect.exists_edit_iff.1 ⟨e, he⟩) ha
    | nothing => rfl
    | loadstat value => rfl
    | off => rfl

/-! ## What an environment comes to -/

/-- The assignments since the debugger was taken away for the last time, or all of them. -/
def sinceOff (l : List (String × String)) : List (String × String) := l.rtakeWhile (¬ SwitchesOff ·)

/-- The debugger that those find: none after it was taken away, and else the one from before. -/
def debuggerFound (debugger : Option DebuggerSettings) (l : List (String × String)) : Option DebuggerSettings :=
  if ∃ a ∈ l, SwitchesOff a then none else debugger

/-- The configuration in which the latest assignments count. -/
def latestConfig (c : Config) (l : List (String × String)) : Config where
  debugger :=
    let base := debuggerFound c.debugger l
    if ∃ a ∈ sinceOff l, SetsUp a then some (latestSettings (base.getD .default) (sinceOff l)) else base
  loadstat := (latest .loadstat (some ∘ isOn) l).getD c.loadstat

theorem exists_mem_concat {p : String × String → Prop} (l : List (String × String)) (a : String × String) :
    (∃ b ∈ l ++ [a], p b) ↔ (∃ b ∈ l, p b) ∨ p a := by
  simp [or_and_right, exists_or]

section Concat

variable {a : String × String}

theorem sinceOff_concat_of_off (l : List (String × String)) (ha : SwitchesOff a) : sinceOff (l ++ [a]) = [] :=
  List.rtakeWhile_concat_neg _ _ _ (by simpa using ha)

theorem debuggerFound_concat_of_off (debugger : Option DebuggerSettings) (l : List (String × String))
    (ha : SwitchesOff a) : debuggerFound debugger (l ++ [a]) = none :=
  if_pos ((exists_mem_concat l a).2 (.inr ha))

theorem sinceOff_concat (l : List (String × String)) (ha : ¬ SwitchesOff a) :
    sinceOff (l ++ [a]) = sinceOff l ++ [a] :=
  List.rtakeWhile_concat_pos _ _ _ (by simpa using ha)

theorem debuggerFound_concat (debugger : Option DebuggerSettings) (l : List (String × String)) (ha : ¬ SwitchesOff a) :
    debuggerFound debugger (l ++ [a]) = debuggerFound debugger l :=
  if_congr ((exists_mem_concat l a).trans (or_iff_left ha)) rfl rfl

end Concat

/-- The settings that one more edit is made to: the latest ones, if there are any, are those since the debugger
was taken away. -/
theorem getD_latestConfig (c : Config) (l : List (String × String)) :
    (latestConfig c l).debugger.getD .default =
      latestSettings ((debuggerFound c.debugger l).getD .default) (sinceOff l) := by
  simp only [latestConfig]
  split
  · rfl
  · rename_i hnone
    rw [latestSettings_of_not_setsUp _ _ fun a ha hup => hnone ⟨a, ha, hup⟩]

theorem debugger_concat_of_off (c : Config) (l : List (String × String)) {a : String × String}
    (he : Effect.of a = .off) : (latestConfig c (l ++ [a])).debugger = none := by
  have ha : SwitchesOff a := Effect.of_eq_off_iff.1 he
  simp only [latestConfig, sinceOff_concat_of_off l ha, debuggerFound_concat_of_off c.debugger l ha]
  exact if_neg fun ⟨_, hmem, _⟩ => List.not_mem_nil hmem

theorem debugger_concat_of_edit (c : Config) (l : List (String × String)) {a : String × String} {e : Edit}
    (he : Effect.of a = .edit e) : (latestConfig c (l ++ [a])).debugger =
      some (e.apply ((latestConfig c l).debugger.getD .default)) := by
  have hup : SetsUp a := Effect.exists_edit_iff.1 ⟨e, he⟩
  have ha : ¬ SwitchesOff a := fun ha => by rw [Effect.of_eq_off_iff.2 ha] at he; cases he
  have hsettings := (latest_concat_effect ((debuggerFound c.debugger l).getD .default) (sinceOff l) a).1
  rw [he, Effect.onSettings] at hsettings
  rw [getD_latestConfig, ← hsettings]
  simp only [latestConfig, sinceOff_concat l ha, debuggerFound_concat c.debugger l ha]
  exact if_pos ((exists_mem_concat (sinceOff l) a).2 (.inr hup))

theorem debugger_concat_of_else (c : Config) (l : List (String × String)) {a : String × String}
    (hoff : Effect.of a ≠ .off) (hedit : ∀ e, Effect.of a ≠ .edit e) :
    (latestConfig c (l ++ [a])).debugger = (latestConfig c l).debugger := by
  have hup : ¬ SetsUp a := fun hup => (Effect.exists_edit_iff.2 hup).elim hedit
  have ha : ¬ SwitchesOff a := fun ha => hoff (Effect.of_eq_off_iff.2 ha)
  have hsettings := (latest_concat_effect ((debuggerFound c.debugger l).getD .default) (sinceOff l) a).1
  simp only [latestConfig, sinceOff_concat l ha, debuggerFound_concat c.debugger l ha]
  refine if_congr ((exists_mem_concat (sinceOff l) a).trans (or_iff_left hup)) (congrArg some ?_) rfl
  rw [hsettings]
  cases he : Effect.of a with
  | edit e => exact absurd he (hedit e)
  | off => exact absurd he hoff
  | nothing => rfl
  | loadstat value => rfl

theorem loadstat_concat (c : Config) (l : List (String × String)) (a : String × String) :
    (latestConfig c (l ++ [a])).loadstat = (Effect.of a).loadstat?.getD (latestConfig c l).loadstat := by
  simp only [latestConfig, (latest_concat_effect .default l a).2]
  cases (Effect.of a).loadstat? <;> rfl

/-- The latest assignments count after one more, if they did before. -/
theorem apply_latestConfig (c : Config) (l : List (String × String)) (a : String × String) :
    (Effect.of a).apply (latestConfig c l) = latestConfig c (l ++ [a]) := by
  have hdebugger : ((Effect.of a).apply (latestConfig c l)).debugger = (latestConfig c (l ++ [a])).debugger := by
    cases he : Effect.of a with
    | off => exact (debugger_concat_of_off c l he).symm
    | edit e => exact (debugger_concat_of_edit c l he).symm
    | nothing => exact (debugger_concat_of_else c l (by simp [he]) (by simp [he])).symm
    | loadstat value => exact (debugger_concat_of_else c l (by simp [he]) (by simp [he])).symm
  have hloadstat : ((Effect.of a).apply (latestConfig c l)).loadstat = (latestConfig c (l ++ [a])).loadstat := by
    rw [loadstat_concat]
    cases Effect.of a <;> rfl
  exact (Config.mk.injEq ..).mpr ⟨hdebugger, hloadstat⟩

theorem foldl_eq_latestConfig (c : Config) (l : List (String × String)) :
    l.foldl (fun c a => (Effect.of a).apply c) c = latestConfig c l := by
  induction l using List.reverseRecOn with
  | nil => rfl
  | append_singleton l a ih => rw [List.foldl_append, ih, List.foldl_cons, List.foldl_nil, apply_latestConfig]

/-! ## What does not count -/

/-- The assignment is for the load report, takes the debugger away or sets it up. -/
def Counts (a : String × String) : Prop := a.1 = "loadstat" ∨ SwitchesOff a ∨ SetsUp a

instance : DecidablePred Counts := fun a => inferInstanceAs (Decidable (a.1 = "loadstat" ∨ SwitchesOff a ∨ SetsUp a))

theorem Effect.of_eq_nothing {a : String × String} (h : ¬ Counts a) : Effect.of a = .nothing := by
  cases he : Effect.of a with
  | nothing => rfl
  | off => exact absurd (.inr (.inl (of_eq_off_iff.1 he))) h
  | edit e => exact absurd (.inr (.inr (exists_edit_iff.1 ⟨e, he⟩))) h
  | loadstat value =>
    rcases eq_nothing_or_name a with hn | ⟨key, ha, hk⟩
    · rw [hn] at he; cases he
    · rw [he] at hk
      cases hk
      exact absurd (.inl (congrArg Prod.fst ha)) h

/-- The variables that address what counts. -/
def relevant (environment : List Variable) : List Variable :=
  environment.filter fun v => (keyName? v.1).any fun name => Counts (name, v.2)

theorem assignments_relevant (environment : List Variable) :
    assignments (relevant environment) = (assignments environment).filter (Counts ·) := by
  unfold assignments relevant
  rw [List.filterMap_filter, List.filter_filterMap]
  refine congrArg (List.filterMap · environment) (funext fun v => ?_)
  cases keyName? v.1 with
  | none => rfl
  | some name => by_cases hc : Counts (name, v.2) <;> simp [Option.filter, hc]

theorem withEnvironment_relevant (environment : List Variable) (c : Config) :
    c.withEnvironment (relevant environment) = c.withEnvironment environment := by
  rw [withEnvironment_eq_foldl, withEnvironment_eq_foldl, assignments_relevant, List.foldl_filter]
  refine congrArg (List.foldl · c (assignments environment)) (funext fun c => funext fun a => ?_)
  by_cases hc : Counts a
  · simp [hc]
  · simp [hc, Effect.of_eq_nothing hc, Effect.apply]

example : latestConfig default [("debugger-port", "6000"), ("debugger", "0"), ("debugger-channel", "raw"),
    ("debugger-port", "x")] = ⟨some { DebuggerSettings.default with channel := "raw" }, false⟩ := by
  decide +kernel

end ScriptHost.Config
