/-
Turnover of references. An operation of the engine hands out the references in its answer, and takes back as many
as it is told to; the engine counts both. An engine is settled with the references that its host holds where each
slot counts those to it, and all others that were ever handed out have come back. Main result: a reference that is
held can be given back, and any operation on references that are held settles the engine with its answer.
-/
import ScriptHost.Proofs.Engine.Integrity

namespace ScriptHost

/-! ## Counts and their sum -/

theorem sum_tally {held : List Ref} {n : Nat} (h : ∀ ref ∈ held, ref.slot < n) :
    ∑ slot ∈ Finset.range n, tally held slot = held.length := by
  induction held with
  | nil => simp
  | cons ref rest ih =>
    obtain ⟨href, hrest⟩ := List.forall_mem_cons.1 h
    have hone : ∑ slot ∈ Finset.range n, one ref.slot slot = 1 := by
      unfold one
      rw [Finset.sum_pi_single', if_pos (Finset.mem_range.2 href)]
    simp only [tally_cons, Pi.add_apply, Finset.sum_add_distrib, ih hrest, hone, List.length_cons]

theorem Heap.heldRefs_eq_sum (h : Heap) : h.heldRefs = ∑ slot ∈ Finset.range h.size, h.refs slot := by
  obtain ⟨⟨cells⟩⟩ := h
  show cells.foldr (fun cell n => cell.refs + n) 0 = ∑ slot ∈ Finset.range cells.length, Heap.refs ⟨⟨cells⟩⟩ slot
  induction cells with
  | nil => rfl
  | cons cell rest ih =>
    rw [List.foldr_cons, ih, List.length_cons, Finset.sum_range_succ', Nat.add_comm]
    simp [Heap.refs]

/-! ## References handed out and taken back -/

namespace Engine

/-- So many references were handed out, and so many came back. -/
structure Turnover (out back : Nat) (e e' : Engine) : Prop where
  issued : e'.issued = e.issued + out
  releases : e'.releases = e.releases + back

/-- The references in an answer are those that were handed out. -/
def Hands {α : Type} (op : EngineM α) (answer : α → List Ref) (back : Nat) : Prop :=
  ∀ e a e', op e = .ok (a, e') → Turnover (answer a).length back e e'

theorem hands_map {α : Type} {op : EngineM α} {answer : α → List Ref} {back : Nat} (h : Hands op answer back) :
    Hands (answer <$> op) id back := by
  intro e refs e' hr
  obtain ⟨⟨a, e₁⟩, hop, hrefs⟩ := exists_of_bind_ok hr
  cases hrefs
  exact h e a e' hop

theorem hands_issue (slot : Slot) : Hands (issue slot) (fun ref => [ref]) 0 := by
  intro e ref e' hr
  cases hr
  exact ⟨rfl, rfl⟩

theorem hands_create (p : Payload) : Hands (create p) (fun ref => [ref]) 0 := by
  intro e ref e' hr
  cases hr
  exact ⟨rfl, rfl⟩

theorem hands_newModule (id : String) : Hands (newModule id) (fun ref => [ref]) 0 := by
  intro e ref e' hr
  cases hr
  exact ⟨rfl, rfl⟩

theorem hands_release (ref : Ref) : Hands (release ref) (fun _ => []) 1 := by
  intro e a e' hr
  cases hn : e.heap.refs ref.slot with
  | zero =>
    rw [release_of_zero hn] at hr
    cases hr
  | succ n =>
    rw [release_of_succ hn] at hr
    cases hr
    exact ⟨rfl, rfl⟩

theorem hands_runOut (r : Run Slot) : Hands (runOut r) (fun result => [refOf result]) 0 := by
  intro e result e' hr
  obtain ⟨out, heap, -, -, rfl⟩ := runOut_ok hr
  exact ⟨rfl, rfl⟩

theorem hands_runBlob (blob : Bytes) : Hands (runBlob blob) (fun result => [refOf result]) 0 :=
  fun e result e' hr => hands_runOut (blobProgram e.depth blob) e result e' hr

theorem hands_compileFunction (name params : String) (source : Bytes) :
    Hands (compileFunction name params source) (fun result => [refOf result]) 0 := by
  intro e result e' hr
  obtain ⟨hissued, hreleases⟩ := hands_runOut _ { e with parses := e.parses.push ⟨name, params⟩ } result e' hr
  exact ⟨hissued, hreleases⟩

theorem hands_applyFunction (function : Ref) (args : List Ref) :
    Hands (applyFunction function args) (fun result => [refOf result]) 0 := by
  intro e result e' hr
  rw [applyFunction_eq] at hr
  obtain ⟨hissued, hreleases⟩ := hands_runOut _ _ result e' hr
  exact ⟨hissued, hreleases⟩

theorem hands_writeProperty (object : Ref) (name : String) (value : Ref) :
    Hands (writeProperty object name value) Operation.failure 0 := by
  intro e result e' hr
  rw [writeProperty_eq] at hr
  split at hr <;> cases hr <;> exact ⟨rfl, rfl⟩

/-- How many references an operation takes back. -/
def Operation.takes : Operation → Nat
  | .release _ => 1
  | _ => 0

theorem Operation.hands : ∀ op : Operation, Hands op.perform id op.takes
  | .compileFunction name params source => hands_map (hands_compileFunction name params source)
  | .loadRecord _ _ => hands_map (hands_runOut _)
  | .runBlob blob => hands_map (hands_runBlob blob)
  | .applyFunction function args => hands_map (hands_applyFunction function args)
  | .newUndefined | .newObject | .newBool _ | .newNumber _ | .newError _ | .newModuleLookup _ =>
    hands_map (hands_create _)
  | .newModule id => hands_map (hands_newModule id)
  | .readProperty _ _ => hands_map (hands_runOut _)
  | .writeProperty object name value => hands_map (hands_writeProperty object name value)
  | .textOf _ | .messageOf _ => fun e _ e' hr => by cases hr; exact ⟨rfl, rfl⟩
  | .acquire value => hands_map (hands_issue value.slot)
  | .release value => hands_map (hands_release value)

/-! ## Engines that are settled -/

/-- The host holds just these references, and all others that were handed out have come back. -/
structure Settled (held : List Ref) (e : Engine) : Prop where
  balanced : e.Balanced 0 (tally held)
  issued : e.issued = e.releases + held.length

theorem Settled.perm {held held' : List Ref} {e : Engine} (h : e.Settled held) (hp : held.Perm held') :
    e.Settled held' :=
  ⟨tally_perm hp ▸ h.balanced, hp.length_eq ▸ h.issued⟩

/-- The references that are counted are as many as are held. -/
theorem Settled.heldRefs_eq {held : List Ref} {e : Engine} (h : e.Settled held) : e.heldRefs = held.length := by
  have hcells : ∀ ref ∈ held, ref.slot < e.heap.size := fun ref href => h.balanced.lt_size (.inr (tally_pos href))
  calc e.heldRefs = ∑ slot ∈ Finset.range e.heap.size, e.heap.refs slot := e.heap.heldRefs_eq_sum
    _ = ∑ slot ∈ Finset.range e.heap.size, tally held slot := Finset.sum_congr rfl fun slot _ => h.balanced.refs slot
    _ = held.length := sum_tally hcells

/-- From an engine that is settled with what is held, the operation comes to one that is settled with its answer and
what is kept, and turns over just as many references. -/
def Settles {α : Type} (held : List Ref) (op : EngineM α) (answer : α → List Ref) (kept : List Ref) (back : Nat) :
    Prop :=
  ∀ e, e.Settled held →
    EndsWell (fun r => r.2.Settled (answer r.1 ++ kept) ∧ Turnover (answer r.1).length back e r.2) (op e)

/-- An operation settles where it is balanced, and as many references come back as are no longer held. -/
theorem Hands.settles {α : Type} {op : EngineM α} {answer : α → List Ref} {back : Nat} {held kept : List Ref}
    (ht : Hands op answer back)
    (hb : Triple (Balanced 0 (tally held)) op fun a e => e.Balanced 0 (tally (answer a ++ kept)))
    (hlen : held.length = kept.length + back) : Settles held op answer kept back := by
  intro e hs
  have hend := hb e hs.balanced
  rcases hop : op e with (_ | slot) | ⟨a, e'⟩
  · trivial
  · rw [hop] at hend
    exact hend
  · rw [hop] at hend
    -- what is handed out is in the answer, and what came back is what `kept` lacks
    have hturn := ht e a e' hop
    have hissued := hturn.issued
    have hreleases := hturn.releases
    have hbefore := hs.issued
    refine ⟨⟨hend, ?_⟩, hturn⟩
    show e'.issued = e'.releases + (answer a ++ kept).length
    rw [List.length_append]
    omega

theorem Operation.settles {held : List Ref} {op : Operation} (hh : ∀ ref ∈ op.handles, ref ∈ held) :
    Settles held op.perform id (op.keeps held) op.takes := by
  refine op.hands.settles (balances hh) ?_
  cases op with
  | release value =>
    have hvalue : value ∈ held := hh value List.mem_cons_self
    have := List.length_pos_of_mem hvalue
    simp only [keeps, takes, List.length_erase_of_mem hvalue]
    omega
  | _ => rfl

section Single

variable {held : List Ref}

theorem settles_create {p : Payload} (hp : p.properties = .empty) :
    Settles held (create p) (fun ref => [ref]) held 0 :=
  (hands_create p).settles (triple_create hp) rfl

theorem settles_acquire {ref : Ref} (href : ref ∈ held) :
    Settles held (acquire ref) (fun copy => [copy]) held 0 :=
  (hands_issue ref.slot).settles (triple_acquire (.inr (tally_pos href))) rfl

theorem settles_runSource (source : Bytes) :
    Settles held (runSource source) (fun result => [refOf result]) held 0 :=
  (hands_runBlob _).settles (triple_runBlob _) rfl

/-- A reference that is held can be given back. -/
theorem exists_release {ref : Ref} {e : Engine} (h : e.Settled (ref :: held)) :
    ∃ e', release ref e = .ok ((), e') ∧ e'.Settled held ∧ Turnover 0 1 e e' := by
  obtain ⟨e', hrelease, hbalanced⟩ := release_ok h.balanced
  have hturn := hands_release ref e () e' hrelease
  refine ⟨e', hrelease, ⟨hbalanced, ?_⟩, hturn⟩
  have hcount : e.issued = e.releases + (held.length + 1) := h.issued
  have hissued : e'.issued = e.issued := hturn.issued
  have hreleases : e'.releases = e.releases + 1 := hturn.releases
  omega

end Single

theorem settled_new (depth : Nat) : (Engine.new depth).Settled [] where
  balanced := {
    closed := fun slot name next hn => by cases hn
    grown := le_refl _
    refs := fun _ => rfl }
  issued := rfl

end Engine

end ScriptHost
