/-
Two engines in lockstep. They have the same heap, the same counters and the same depth, and only what
they remember of compiled functions may differ: one of them has compiled factories that the other one
has not. Nothing that an engine does depends on what it remembers, so the same operation on both ends
in the same way.

Compiling a factory on one engine and loading its record on the other is the one step where they do
different things, and it only adds to what the first one remembers.
-/
import ScriptHost.Proofs.Engine.Basic
import ScriptHost.Proofs.Engine.Triple

namespace ScriptHost

/-! ## Two computations -/

section Lockstep

variable {σ α β γ δ : Type}

/-- Both end with related results, or both halt for the same reason. -/
def Both (R : α → β → Prop) : Except Halt α → Except Halt β → Prop
  | .ok a, .ok b => R a b
  | .error x, .error y => x = y
  | _, _ => False

theorem Both.bind {R : α → β → Prop} {S : γ → δ → Prop} {x : Except Halt α} {y : Except Halt β}
    {f : α → Except Halt γ} {g : β → Except Halt δ} (h : Both R x y) (hf : ∀ a b, R a b → Both S (f a) (g b)) :
    Both S (x.bind f) (y.bind g) := by
  cases x <;> cases y
  · exact h
  · exact False.elim h
  · exact False.elim h
  · exact hf _ _ h

theorem Both.mono {R S : α → β → Prop} {x : Except Halt α} {y : Except Halt β} (h : Both R x y)
    (hs : ∀ a b, R a b → S a b) : Both S x y := by
  cases x <;> cases y
  · exact h
  · exact h
  · exact h
  · exact hs _ _ h

/-- From related states the computations end with related values and again with related states. -/
def Lockstep (R : σ → σ → Prop) (V : α → β → Prop) (x : StateT σ (Except Halt) α)
    (y : StateT σ (Except Halt) β) : Prop :=
  ∀ s t, R s t → Both (fun r u => V r.1 u.1 ∧ R r.2 u.2) (x s) (y t)

variable {R : σ → σ → Prop} {V : α → β → Prop} {W : γ → δ → Prop}

theorem lockstep_pure {a : α} {b : β} (h : V a b) : Lockstep R V (pure a) (pure b) :=
  fun _ _ hs => ⟨h, hs⟩

theorem lockstep_bind {x : StateT σ (Except Halt) α} {y : StateT σ (Except Halt) β}
    {f : α → StateT σ (Except Halt) γ} {g : β → StateT σ (Except Halt) δ} (h : Lockstep R V x y)
    (hf : ∀ a b, V a b → Lockstep R W (f a) (g b)) : Lockstep R W (x >>= f) (y >>= g) :=
  fun s t hs => (h s t hs).bind fun r u hr => hf r.1 u.1 hr.1 r.2 u.2 hr.2

/-- The same value on both sides, which the rest may go on with. -/
theorem lockstep_bind_same {x y : StateT σ (Except Halt) α} {f : α → StateT σ (Except Halt) γ}
    {g : α → StateT σ (Except Halt) δ} (h : Lockstep R Eq x y) (hf : ∀ a, Lockstep R W (f a) (g a)) :
    Lockstep R W (x >>= f) (y >>= g) :=
  lockstep_bind h fun a b hab => by subst hab; exact hf a

theorem lockstep_map {x : StateT σ (Except Halt) α} {y : StateT σ (Except Halt) β} {f : α → γ} {g : β → δ}
    (h : Lockstep R (fun a b => W (f a) (g b)) x y) : Lockstep R W (f <$> x) (g <$> y) :=
  fun s t hs => (h s t hs).bind fun _ _ hr => hr

end Lockstep

/-! ## What is remembered -/

/-- The left log is the right one and some factories besides, both counted from a beginning. What else is
compiled is compiled on both sides. -/
inductive Logs (compiles : ParseRequest → Prop) (a b : Array ParseRequest) :
    Array ParseRequest → Array ParseRequest → Prop where
  | start : Logs compiles a b a b
  | both {p q : Array ParseRequest} {request : ParseRequest} : Logs compiles a b p q → compiles request →
      Logs compiles a b (p.push request) (q.push request)
  | factory {p q : Array ParseRequest} (name : String) : Logs compiles a b p q →
      Logs compiles a b (p.push ⟨name, Factory.signature⟩) q

/-- Where only factories are compiled, the right log stays as it is. -/
theorem Logs.eq_right {compiles : ParseRequest → Prop} {a b p q : Array ParseRequest}
    (h : Logs compiles a b p q) (hc : ∀ request, ¬ compiles request) : q = b := by
  induction h with
  | start => rfl
  | both _ hr _ => exact absurd hr (hc _)
  | factory _ _ ih => exact ih

/-! ## Operations of the engine -/

namespace Engine

/-- Two engines that differ in what they remember, and in this only so. -/
def Alike (compiles : ParseRequest → Prop) (a b : Array ParseRequest) (e f : Engine) : Prop :=
  ∃ q, f = { e with parses := q } ∧ Logs compiles a b e.parses q

variable {compiles : ParseRequest → Prop} {a b : Array ParseRequest}

theorem lockstep_issue (slot : Slot) : Lockstep (Alike compiles a b) Eq (issue slot) (issue slot) := by
  rintro e _ ⟨q, rfl, hq⟩
  exact ⟨rfl, q, rfl, hq⟩

theorem lockstep_create (p : Payload) : Lockstep (Alike compiles a b) Eq (create p) (create p) := by
  rintro e _ ⟨q, rfl, hq⟩
  exact ⟨rfl, q, rfl, hq⟩

theorem lockstep_release (ref : Ref) : Lockstep (Alike compiles a b) Eq (release ref) (release ref) := by
  rintro e _ ⟨q, rfl, hq⟩
  rcases hn : e.heap.refs ref.slot with _ | n
  · rw [release_of_zero hn, release_of_zero (e := { e with parses := q }) hn]
    rfl
  · rw [release_of_succ hn, release_of_succ (e := { e with parses := q }) hn]
    exact ⟨rfl, q, rfl, hq⟩

/-- What an operation reads of the heap. -/
theorem lockstep_read {α : Type} (read : Heap → α) :
    Lockstep (Alike compiles a b) Eq (do return read (← get).heap) (do return read (← get).heap) := by
  rintro e _ ⟨q, rfl, hq⟩
  exact ⟨rfl, q, rfl, hq⟩

theorem both_runOut (r : Run Slot) {e f : Engine} (h : Alike compiles a b e f) :
    Both (fun x y => x.1 = y.1 ∧ Alike compiles a b x.2 y.2) (runOut r e) (runOut r f) := by
  obtain ⟨q, rfl, hq⟩ := h
  rw [runOut_eq, runOut_eq]
  show Both _ _ (match r.run e.heap with | x => _)
  rcases r.run e.heap with ⟨(slot | _) | slot, heap⟩
  · exact ⟨rfl, q, rfl, hq⟩
  · rfl
  · exact ⟨rfl, q, rfl, hq⟩

theorem lockstep_runBlob (blob : Bytes) : Lockstep (Alike compiles a b) Eq (runBlob blob) (runBlob blob) := by
  rintro e f ⟨q, rfl, hq⟩
  exact both_runOut (blobProgram e.depth blob) ⟨q, rfl, hq⟩

theorem lockstep_applyFunction (function : Ref) (args : List Ref) :
    Lockstep (Alike compiles a b) Eq (applyFunction function args) (applyFunction function args) := by
  rintro e f ⟨q, rfl, hq⟩
  exact both_runOut (e := { e with calls := e.calls + 1 })
    (Run.callWithin e.depth function.slot (args.map (·.slot))) ⟨q, rfl, hq⟩

theorem lockstep_readProperty (object : Ref) (name : String) :
    Lockstep (Alike compiles a b) Eq (readProperty object name) (readProperty object name) :=
  fun _ _ h => both_runOut _ h

theorem lockstep_writeProperty (object : Ref) (name : String) (value : Ref) :
    Lockstep (Alike compiles a b) Eq (writeProperty object name value) (writeProperty object name value) := by
  rintro e _ ⟨q, rfl, hq⟩
  rw [writeProperty_eq, writeProperty_eq]
  show Both _ _ (match (Run.writeProperty object.slot name value.slot).run e.heap with | x => _)
  rcases (Run.writeProperty object.slot name value.slot).run e.heap with ⟨(slot | _) | _, heap⟩
  · exact ⟨rfl, q, rfl, hq⟩
  · rfl
  · exact ⟨rfl, q, rfl, hq⟩

/-- A factory that one engine compiles is what the other one loads, if its source is the record. -/
theorem lockstep_factory (name : String) {source blob : Bytes} {index : UInt32} {records : List Bytes}
    (hb : Snapshot.records? blob = some records) (hi : records[index.toNat]? = some source) :
    Lockstep (Alike compiles a b) Eq (compileFunction name Factory.signature source) (loadRecord blob index) := by
  rintro e _ ⟨q, rfl, hq⟩
  have hload : loadRecord blob index { e with parses := q } =
      runOut (allocFunction Factory.signature source) { e with parses := q } := by
    rw [loadRecord_of_records? hb, hi]
  -- both run the same from here, and only the left log has grown
  rw [hload]
  exact both_runOut (e := { e with parses := e.parses.push ⟨name, Factory.signature⟩ })
    (allocFunction Factory.signature source) ⟨q, rfl, hq.factory name⟩

end Engine

end ScriptHost
