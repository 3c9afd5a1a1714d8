/-
What attempts of the host may come to: which results, and which errors. The error of a factory that does
not compile names the module that it was compiled for, and no other error of a factory is of this kind.
-/
import ScriptHost.Host.Factory
import ScriptHost.Proofs.Engine.Basic

namespace ScriptHost

variable {σ α β : Type}

/-! ## Results -/

/-- Whenever the computation ends, it ends with such a value. -/
def Yields (V : α → Prop) (x : StateT σ (Except Halt) α) : Prop :=
  ∀ s v s', x s = .ok (v, s') → V v

theorem yields_pure {V : α → Prop} {v : α} (h : V v) : Yields V (pure v : StateT σ (Except Halt) α) := by
  intro _ _ _ hr
  cases hr
  exact h

theorem yields_bind {V : α → Prop} {W : β → Prop} {x : StateT σ (Except Halt) α}
    {f : α → StateT σ (Except Halt) β} (h : Yields V x) (hf : ∀ v, V v → Yields W (f v)) : Yields W (x >>= f) := by
  intro s w s' hr
  obtain ⟨⟨v, s₁⟩, hx, hr⟩ := exists_of_bind_ok hr
  exact hf v (h s v s₁ hx) s₁ w s' hr

theorem yields_map {V : α → Prop} {W : β → Prop} {x : StateT σ (Except Halt) α} {f : α → β} (h : Yields V x)
    (hf : ∀ v, V v → W (f v)) : Yields W (f <$> x) := by
  intro s w s' hr
  obtain ⟨⟨v, s₁⟩, hx, hr⟩ := exists_of_bind_ok hr
  cases hr
  exact hf v (h s v s' hx)

/-- Whatever comes first. -/
theorem yields_next {W : β → Prop} {x : StateT σ (Except Halt) α} {f : α → StateT σ (Except Halt) β}
    (hf : ∀ v, Yields W (f v)) : Yields W (x >>= f) :=
  yields_bind (V := fun _ => True) (fun _ _ _ _ => trivial) fun v _ => hf v

/-! ## Attempts -/

/-- A result with `V`, or an error with `P`. -/
def Good (V : α → Prop) (P : HostError → Prop) : Except HostError α → Prop
  | .ok v => V v
  | .error e => P e

/-- Whenever the attempt ends, it ends so. -/
def Attempt.Gives (V : α → Prop) (P : HostError → Prop) (x : Attempt α) : Prop :=
  Yields (Good V P) x.run

/-- A module that does not compile is blamed under this name. -/
def HostError.Blames (id : String) : HostError → Prop
  | .compile name _ => name = id
  | _ => True

namespace Attempt

variable {V : α → Prop} {W : β → Prop} {P : HostError → Prop}

theorem gives_outcome {r : Except HostError α} (h : Good V P r) : Gives V P (ExceptT.mk (pure r)) :=
  yields_pure h

theorem gives_pure {v : α} (h : V v) : Gives V P (pure v) := gives_outcome (r := .ok v) h

theorem gives_throw {e : HostError} (h : P e) : Gives V P (throw e : Attempt α) := gives_outcome (r := .error e) h

theorem gives_lift {x : HostM α} (h : Yields V x) : Gives V P (liftM x) :=
  yields_map h fun _ hv => hv

theorem gives_bind {x : Attempt α} {f : α → Attempt β} (h : Gives V P x) (hf : ∀ v, V v → Gives W P (f v)) :
    Gives W P (x >>= f) := by
  refine yields_bind h fun r hr => ?_
  cases r with
  | ok v => exact hf v hr
  | error e => exact yields_pure hr

/-- A call of the host does not fail by itself. -/
theorem gives_call {x : HostM α} {f : α → Attempt β} (hf : ∀ v, Gives W P (f v)) :
    Gives W P (liftM x >>= f) :=
  gives_bind (V := fun _ => True) (gives_lift fun _ _ _ _ => trivial) fun v _ => hf v

theorem gives_holding {ref : Ref} {x : Attempt α} (h : Gives V P x) : Gives V P (holding ref x) :=
  yields_bind h fun _ hr => yields_next fun _ => yields_pure hr

end Attempt

/-! ## Factories -/

namespace Factory

open Attempt

variable {id : String}

theorem gives_compile (id : String) (source : Bytes) :
    Gives (fun _ => True) (·.Blames id) (compile id source) := by
  refine gives_call fun _ => gives_call fun result => ?_
  cases result with
  | ok function => exact gives_pure trivial
  | error error => exact gives_holding (gives_call fun message => gives_call fun _ => gives_throw rfl)

theorem gives_orCorrupt (result : Except Ref Ref) :
    Gives (fun _ => True) (·.Blames id) (orCorrupt result) := by
  cases result with
  | ok value => exact gives_pure trivial
  | error error => exact gives_holding (gives_call fun message => gives_throw trivial)

theorem gives_ofRecord (name : String) (blob : Bytes) (index : UInt32) :
    Gives (fun _ => True) (·.Blames id) (ofRecord name blob index) := by
  unfold ofRecord
  split
  · exact gives_throw trivial
  · refine gives_call fun _ => gives_call fun result => ?_
    exact gives_bind (gives_orCorrupt result) fun _ _ => gives_pure trivial

theorem gives_call_factory {compiled : Except HostError Factory} (args : Args)
    (h : Good (fun _ => True) (·.Blames id) compiled) :
    Gives (fun _ => True) (·.Blames id) (call compiled args) := by
  refine gives_bind (gives_outcome h) fun factory _ => gives_call fun this => gives_holding ?_
  refine gives_call fun _ => gives_call fun completion => gives_call fun _ => ?_
  cases completion with
  | ok value => exact gives_pure trivial
  | error error => exact gives_holding (gives_call fun message => gives_call fun _ => gives_throw trivial)

end Factory

end ScriptHost
