/-
What an assignment does to a configuration. It comes to one of four effects: nothing, another value of the
load report, no debugger, or an edit of the debugger's settings, which start from their defaults where there
are none. Which effect it is depends on the name and the value alone, and the effects of two names can be
exchanged unless one takes the debugger away and the other one sets it up.
-/
import ScriptHost.Config.Basic
import Mathlib.Tactic

namespace ScriptHost.Config

/-! ## Effects -/

/-- A change of one of the debugger's settings, or of none. -/
inductive Edit where
  | keep
  | port (value : UInt16)
  | channel (value : String)
  | waitSource (value : Bool)
  | contextReset (value : Bool)
  deriving DecidableEq

def Edit.apply : Edit → DebuggerSettings → DebuggerSettings
  | keep, d => d
  | port value, d => { d with port := value }
  | channel value, d => { d with channel := value }
  | waitSource value, d => { d with waitSource := value }
  | contextReset value, d => { d with contextReset := value }

/-- The key that makes an edit. -/
def Edit.key : Edit → Key
  | keep => .debugger
  | port _ => .port
  | channel _ => .channel
  | waitSource _ => .waitSource
  | contextReset _ => .contextReset

inductive Effect where
  | nothing
  | loadstat (value : Bool)
  | off
  | edit (e : Edit)
  deriving DecidableEq

namespace Effect

def apply : Effect → Config → Config
  | nothing, c => c
  | loadstat value, c => { c with loadstat := value }
  | off, c => { c with debugger := none }
  | edit e, c => c.updateDebugger e.apply

/-- The effect of a value for a key. -/
def ofKey (value : String) : Key → Effect
  | .debugger => if isOn value then edit .keep else off
  | .port =>
    match Decimal.readWord value.toList with
    | .ok port => edit (.port port)
    | .error _ => nothing
  | .channel => edit (.channel value)
  | .waitSource => edit (.waitSource (isOn value))
  | .contextReset => edit (.contextReset (isOn value))
  | .loadstat => loadstat (isOn value)

/-- The effect of a name and a value; a name without a key has none. -/
def of (a : String × String) : Effect :=
  match Key.ofName? a.1 with
  | some key => ofKey a.2 key
  | none => nothing

end Effect

theorem assign_eq_apply (c : Config) (key : Key) (value : String) :
    c.assign key value = (Effect.ofKey value key).apply c := by
  cases key with
  | debugger => cases h : isOn value <;> simp [assign, Effect.ofKey, h, Effect.apply]; rfl
  | port => cases h : Decimal.readWord value.toList <;> simp [assign, Effect.ofKey, h, Effect.apply]; rfl
  | channel => rfl
  | waitSource => rfl
  | contextReset => rfl
  | loadstat => rfl

theorem set_eq_apply (c : Config) (a : String × String) : c.set a.1 a.2 = (Effect.of a).apply c := by
  unfold set Effect.of
  cases Key.ofName? a.1 with
  | some key => exact assign_eq_apply c key a.2
  | none => rfl

/-- An environment is applied effect by effect. -/
theorem withEnvironment_eq_foldl (c : Config) (environment : List Variable) :
    c.withEnvironment environment = (assignments environment).foldl (fun c a => (Effect.of a).apply c) c := by
  unfold withEnvironment
  simp only [set_eq_apply]

/-! ## Names -/

/-- The name of a key. -/
def Key.name : Key → String
  | .debugger => "debugger"
  | .port => "debugger-port"
  | .channel => "debugger-channel"
  | .waitSource => "debugger-wait-source"
  | .contextReset => "debugger-context-reset"
  | .loadstat => "loadstat"

theorem Key.ofName?_eq_some_iff {name : String} {key : Key} : Key.ofName? name = some key ↔ name = key.name := by
  constructor
  · intro h
    unfold Key.ofName? at h
    split at h <;> cases h <;> rfl
  · rintro rfl
    cases key <;> rfl

/-- The debugger is taken away by its own name with a word that does not switch on. -/
def SwitchesOff (a : String × String) : Prop := a.1 = "debugger" ∧ isOn a.2 = false

/-- Settings of the debugger come into being by its own name with a word that switches on, by a port that can
be read, and by any value for another setting. -/
def SetsUp (a : String × String) : Prop :=
  a.1 = "debugger" ∧ isOn a.2 = true ∨ a.1 = "debugger-port" ∧ (Decimal.readWord a.2.toList).isOk = true ∨
    a.1 = "debugger-channel" ∨ a.1 = "debugger-wait-source" ∨ a.1 = "debugger-context-reset"

namespace Effect

/-- An effect and the key that has it. -/
inductive Keyed (value : String) : Key → Effect → Prop
  | on : isOn value = true → Keyed value .debugger (edit .keep)
  | off : isOn value = false → Keyed value .debugger off
  | port {port : UInt16} : Decimal.readWord value.toList = .ok port → Keyed value .port (edit (.port port))
  | noPort {e : Decimal.WordError} : Decimal.readWord value.toList = .error e → Keyed value .port nothing
  | channel : Keyed value .channel (edit (.channel value))
  | waitSource : Keyed value .waitSource (edit (.waitSource (isOn value)))
  | contextReset : Keyed value .contextReset (edit (.contextReset (isOn value)))
  | loadstat : Keyed value .loadstat (loadstat (isOn value))

theorem keyed_ofKey (value : String) (key : Key) : Keyed value key (ofKey value key) := by
  cases key with
  | debugger =>
    cases h : isOn value with
    | true => simpa [ofKey, h] using Keyed.on h
    | false => simpa [ofKey, h] using Keyed.off h
  | port =>
    cases h : Decimal.readWord value.toList with
    | ok port => simpa [ofKey, h] using Keyed.port h
    | error e => simpa [ofKey, h] using Keyed.noPort h
  | channel => exact .channel
  | waitSource => exact .waitSource
  | contextReset => exact .contextReset
  | loadstat => exact .loadstat

@[simp] theorem of_name (key : Key) (value : String) : of (key.name, value) = ofKey value key := by
  rw [of, Key.ofName?_eq_some_iff.2 rfl]

/-- An assignment is one to a key, or has no effect. -/
theorem eq_nothing_or_name (a : String × String) :
    of a = nothing ∨ ∃ key : Key, a = (key.name, a.2) ∧ Keyed a.2 key (of a) := by
  cases h : Key.ofName? a.1 with
  | none => exact .inl (by rw [of, h])
  | some key =>
    have ha : a = (key.name, a.2) := Prod.ext (Key.ofName?_eq_some_iff.1 h) rfl
    refine .inr ⟨key, ha, ?_⟩
    rw [ha, of_name]
    exact keyed_ofKey a.2 key

theorem of_eq_off_iff {a : String × String} : of a = off ↔ SwitchesOff a := by
  constructor
  · intro h
    rcases eq_nothing_or_name a with hn | ⟨key, ha, hk⟩
    · rw [hn] at h; cases h
    · rw [h] at hk
      rw [ha]
      cases hk with
      | off hv => exact ⟨rfl, hv⟩
  · rintro ⟨hname, hv⟩
    rw [show a = (Key.debugger.name, a.2) from Prod.ext hname rfl, of_name]
    simp [ofKey, hv]

theorem exists_edit_iff {a : String × String} : (∃ e, of a = edit e) ↔ SetsUp a := by
  constructor
  · rintro ⟨e, h⟩
    rcases eq_nothing_or_name a with hn | ⟨key, ha, hk⟩
    · rw [hn] at h; cases h
    · rw [h] at hk
      rw [ha]
      cases hk with
      | on hv => exact .inl ⟨rfl, hv⟩
      | port hp => exact .inr (.inl ⟨rfl, by rw [hp]; rfl⟩)
      | channel => exact .inr (.inr (.inl rfl))
      | waitSource => exact .inr (.inr (.inr (.inl rfl)))
      | contextReset => exact .inr (.inr (.inr (.inr rfl)))
  · obtain ⟨name, value⟩ := a
    rintro (⟨rfl, hv⟩ | ⟨rfl, hp⟩ | rfl | rfl | rfl)
    · exact ⟨.keep, (of_name .debugger value).trans (if_pos hv)⟩
    · cases h : Decimal.readWord value.toList with
      | ok port => exact ⟨.port port, (of_name .port value).trans (by simp [ofKey, h])⟩
      | error e => rw [h] at hp; cases hp
    · exact ⟨_, of_name .channel value⟩
    · exact ⟨_, of_name .waitSource value⟩
    · exact ⟨_, of_name .contextReset value⟩

/-! ## Exchanging effects -/

theorem Keyed.key_eq {value : String} {key : Key} {e : Edit} (h : Keyed value key (edit e)) : key = e.key := by
  cases h <;> rfl

/-- Edits by two keys touch different settings. -/
theorem edits_comm {e f : Edit} (h : e.key ≠ f.key) (d : DebuggerSettings) :
    e.apply (f.apply d) = f.apply (e.apply d) := by
  cases e <;> cases f <;> simp_all [Edit.apply, Edit.key]

/-- One of two effects takes the debugger away and the other one sets it up. -/
def Clash (x y : Effect) : Prop := x = off ∧ (∃ e, y = edit e) ∨ (∃ e, x = edit e) ∧ y = off

theorem apply_comm {v w : String} {k l : Key} {x y : Effect} (hne : k ≠ l) (hx : Keyed v k x) (hy : Keyed w l y)
    (hc : ¬ Clash x y) (c : Config) : y.apply (x.apply c) = x.apply (y.apply c) := by
  -- two settings by one key and a clash are excluded; everything else touches different parts
  cases x with
  | nothing => rfl
  | loadstat b =>
    cases y with
    | loadstat b' =>
      cases hx; cases hy
      exact absurd rfl hne
    | nothing => rfl
    | off => rfl
    | edit e => rfl
  | off =>
    cases y with
    | edit e => exact absurd (.inl ⟨rfl, e, rfl⟩) hc
    | nothing => rfl
    | off => rfl
    | loadstat b => rfl
  | edit e =>
    cases y with
    | off => exact absurd (.inr ⟨⟨e, rfl⟩, rfl⟩) hc
    | edit f =>
      rw [hx.key_eq, hy.key_eq] at hne
      simp only [apply, updateDebugger, Option.getD_some, edits_comm hne]
    | nothing => rfl
    | loadstat b => rfl

/-- Assignments to two names can be exchanged unless they clash. -/
theorem of_comm {a b : String × String} (hne : a.1 ≠ b.1) (hc : ¬ Clash (of a) (of b)) (c : Config) :
    (of b).apply ((of a).apply c) = (of a).apply ((of b).apply c) := by
  rcases eq_nothing_or_name a with ha | ⟨k, ha, hk⟩
  · rw [ha]; rfl
  · rcases eq_nothing_or_name b with hb | ⟨l, hb, hl⟩
    · rw [hb]; rfl
    · refine apply_comm (fun he => hne ?_) hk hl hc c
      rw [ha, hb, he]

end Effect

end ScriptHost.Config
