/-
Triples for computations that may halt: from what is known of the state before, what is known of the
value and the state after. A computation may nest calls too deeply, and nothing is known then; but a
triple says that it never gives back a reference that is not held.
-/
import ScriptHost.Engine.Basic
import Mathlib.Tactic

namespace ScriptHost

variable {σ α β : Type} {P : σ → Prop}

/-- An end with something good, or in calls that are nested too deeply. -/
def EndsWell (good : α → Prop) : Except Halt α → Prop
  | .ok a => good a
  | .error .tooDeep => True
  | .error (.overReleased _) => False

/-- From a state with `P` the computation ends with a value and a state with `Q`. -/
def Triple (P : σ → Prop) (op : StateT σ (Except Halt) α) (Q : α → σ → Prop) : Prop :=
  ∀ s, P s → EndsWell (fun r => Q r.1 r.2) (op s)

theorem EndsWell.bind {good : α → Prop} {good' : β → Prop} {x : Except Halt α} {f : α → Except Halt β}
    (hx : EndsWell good x) (hf : ∀ a, good a → EndsWell good' (f a)) : EndsWell good' (x >>= f) := by
  rcases x with (_ | _) | a
  · trivial
  · exact hx
  · exact hf a hx

theorem EndsWell.map {good : α → Prop} {good' : β → Prop} {x : Except Halt α} {f : α → β} (hx : EndsWell good x)
    (hf : ∀ a, good a → good' (f a)) : EndsWell good' (x.map f) := by
  rcases x with (_ | _) | a
  · trivial
  · exact hx
  · exact hf a hx

theorem triple_pure {a : α} {Q : α → σ → Prop} (h : ∀ s, P s → Q a s) : Triple P (pure a) Q :=
  fun s hs => h s hs

theorem triple_bind {x : StateT σ (Except Halt) α} {f : α → StateT σ (Except Halt) β}
    {R : α → σ → Prop} {Q : β → σ → Prop} (hx : Triple P x R) (hf : ∀ a, Triple (R a) (f a) Q) :
    Triple P (x >>= f) Q :=
  fun s hs => (hx s hs).bind fun r hr => hf r.1 r.2 hr

theorem triple_map {x : StateT σ (Except Halt) α} {f : α → β} {Q : β → σ → Prop}
    (hx : Triple P x fun a => Q (f a)) : Triple P (f <$> x) Q :=
  fun s hs => (hx s hs).bind fun _ hr => hr

theorem triple_get {f : σ → StateT σ (Except Halt) β} {Q : β → σ → Prop}
    (hf : ∀ s, P s → EndsWell (fun r => Q r.1 r.2) (f s s)) : Triple P (get >>= f) Q :=
  fun s hs => hf s hs

theorem triple_modify {change : σ → σ} {Q : Unit → σ → Prop} (h : ∀ s, P s → Q () (change s)) :
    Triple P (modify change) Q :=
  fun s hs => h s hs

/-- A computation that is known to end. -/
theorem triple_of_ok {op : StateT σ (Except Halt) α} {Q : α → σ → Prop}
    (h : ∀ s, P s → ∃ a s', op s = .ok (a, s') ∧ Q a s') : Triple P op Q := by
  intro s hs
  obtain ⟨a, s', he, hq⟩ := h s hs
  rw [he]
  exact hq

end ScriptHost
