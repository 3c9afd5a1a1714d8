/-
A host that works with a bridge: it asks for one thing after another and drops what it was given when
it likes, while clients of the debugger and other programs change the gate and the files. Main result:
at any time each slot has the references that it had at the beginning, one for each answer to it that
is not dropped, and one for each native module whose exports it is; nothing is given back that is not
held; and when the bridge is closed and the answers are dropped, the counts are what they were.

One step is the balance of one operation; the rest is induction on the steps.
-/
import ScriptHost.Proofs.Bridge.Balance

namespace ScriptHost

/-! ## Requests -/

/-- What a host may ask of a bridge. -/
inductive Request where
  | loadModule (module require : Ref)
  | compileSource (name : String) (source : Bytes)
  | compileFromDebugger
  | runSnapshot (path : String)
  | loadLibrary (location : String)
  | listModules (target : Ref)
  | listBuiltins (target : Ref)
  | resolve (id : String)
  | native (id : String)

namespace Request

/-- The operation, with the references in its answer. -/
def perform : Request → BridgeM (List Ref)
  | .loadModule module require => do return [← Bridge.loadModule module require]
  | .compileSource name source => do return [(← Bridge.compileSource name source).function]
  | .compileFromDebugger => do return [(← Bridge.compileFromDebugger).function]
  | .runSnapshot path => do return [← Bridge.runSnapshot path]
  | .loadLibrary location => do return [← Bridge.loadLibrary location]
  | .listModules target => do Bridge.listModules target; return []
  | .listBuiltins target => do Bridge.listBuiltins target; return []
  | .resolve id => do return (← Bridge.resolve id).refs
  | .native id => do return (← Bridge.native id).toList

/-- The values that are passed are on the heap. -/
def Within (size : Nat) : Request → Prop
  | .loadModule module require => module.slot < size ∧ require.slot < size
  | .listModules target => target.slot < size
  | .listBuiltins target => target.slot < size
  | _ => True

/-- The references in the answer are what an operation adds to the balance. -/
theorem settles_perform {lo : Nat} {counts : Counts} : ∀ {r : Request}, r.Within lo →
    Bridge.Settles lo counts r.perform (fun refs => counts + tally refs) counts
  | .loadModule _ _, hw =>
    Bridge.settles_bind (Bridge.settles_loadModule (.inl hw.1) (.inl hw.2)) fun _ => settles_answer _
  | .compileSource name source, _ =>
    Bridge.settles_bind (Bridge.settles_compileSource name source) fun _ => settles_answer _
  | .compileFromDebugger, _ => Bridge.settles_bind Bridge.settles_compileFromDebugger fun _ => settles_answer _
  | .runSnapshot path, _ => Bridge.settles_bind (Bridge.settles_runSnapshot path) fun _ => settles_answer _
  | .loadLibrary location, _ =>
    Bridge.settles_bind (Bridge.settles_loadLibrary location) fun _ => settles_answer _
  | .listModules _, hw =>
    Bridge.settles_bind (Bridge.settles_get fun b => Bridge.settles_listInto (.inl hw) _ b) fun _ => settles_none
  | .listBuiltins _, hw =>
    Bridge.settles_bind (Bridge.settles_get fun b => Bridge.settles_listInto (.inl hw) _ b) fun _ => settles_none
  | .resolve id, _ => Bridge.settles_bind (Bridge.settles_resolve id) fun _ => Bridge.settles_pure rfl
  | .native id, _ => Bridge.settles_bind (Bridge.settles_native id) fun _ => Bridge.settles_pure rfl
where
  settles_answer (ref : Ref) : Bridge.Settles lo (counts + one ref.slot) (pure [ref])
      (fun refs => counts + tally refs) counts :=
    Bridge.settles_pure (by rw [tally_cons, tally_nil, zero_add])
  settles_none : Bridge.Settles lo counts (pure []) (fun refs => counts + tally refs) counts :=
    Bridge.settles_pure (by rw [tally_nil, add_zero])

end Request

/-! ## Sessions -/

/-- A host with its bridge, and the references that it was given and has not dropped. -/
structure Session where
  bridge : Bridge
  host : Host
  results : List Ref

namespace Session

/-- What happens next: the host asks the bridge or drops an answer, or the world changes meanwhile. -/
inductive Move where
  | ask (request : Request)
  | drop (index : Nat)
  | meanwhile (gate : Option Debugger.Gate) (files : Files)

def refs (s : Session) (slot : Slot) : Nat := s.host.engine.heap.refs slot

def size (s : Session) : Nat := s.host.engine.heap.size

/-- The references that the native modules keep. -/
def cached (s : Session) : List Ref := s.bridge.natives.cached

/-- Asks the bridge; an answer is kept with the others. -/
def ask (s : Session) (request : Request) : Except Halt Session := do
  let ((answer, bridge), host) ← request.perform.run s.bridge s.host
  return ⟨bridge, host, s.results ++ answer.toOption.getD []⟩

/-- Drops an answer, if there is one at that place. -/
def drop (s : Session) (index : Nat) : Except Halt Session :=
  match s.results[index]? with
  | none => return s
  | some ref => do
    let ((), host) ← Host.release ref s.host
    return { s with host := host, results := s.results.eraseIdx index }

def step (s : Session) : Move → Except Halt Session
  | .ask request => s.ask request
  | .drop index => s.drop index
  | .meanwhile gate files => return { s with bridge := { s.bridge with gate := gate, files := files } }

/-- The values that a request passes are on the heap; whatever else happens is possible at any time. -/
def Move.Within (size : Nat) : Move → Prop
  | .ask request => request.Within size
  | _ => True

/-- The sessions that come of a first one. -/
inductive Reaches (start : Session) : Session → Prop where
  | start : Reaches start start
  | step {s s' : Session} {m : Move} : Reaches start s → s.step m = .ok s' → m.Within s.size → Reaches start s'

/-- Nothing was asked yet and no native module is built; what the host provides is as expected. -/
structure Fresh (s : Session) : Prop where
  closed : s.host.engine.heap.Closed
  honest : s.bridge.natives.Honest s.size
  unbuilt : ∀ row ∈ s.bridge.natives.entries.rows, row.2.exports = none
  results : s.results = []

/-! ## The balance of a session -/

/-- Besides those of the beginning, the answers are held and what the native modules keep. -/
def Balances (base : Counts) (s : Session) : Prop :=
  s.bridge.Balanced s.size (base + tally s.results) s.host

theorem Fresh.cached {s : Session} (h : s.Fresh) : s.cached = [] :=
  List.filterMap_eq_nil_iff.2 h.unbuilt

theorem Fresh.balances {s : Session} (h : s.Fresh) : s.Balances s.refs := by
  refine ⟨h.honest, h.closed, le_refl _, fun slot => ?_⟩
  have hc : s.bridge.natives.cached = [] := h.cached
  rw [hc, h.results, tally_nil, add_zero, add_zero]
  rfl

/-- The bound below the heap may grow with it. -/
theorem balances_of_balanced {base : Counts} {lo : Nat} {s : Session}
    (h : s.bridge.Balanced lo (base + tally s.results) s.host) : s.Balances base :=
  ⟨h.1.mono h.2.grown, h.2.closed, le_refl _, h.2.refs⟩

theorem balances_ask {base : Counts} {s : Session} (hs : s.Balances base) {request : Request}
    (hw : request.Within s.size) : EndsWell (Balances base) (s.ask request) := by
  refine (Request.settles_perform hw s.bridge s.host hs).bind fun r hr => ?_
  rcases r with ⟨⟨answer, bridge⟩, host⟩
  apply balances_of_balanced
  cases answer with
  | ok refs =>
    show bridge.Balanced s.size (base + tally (s.results ++ refs)) host
    rw [tally_append, ← add_assoc]
    exact hr
  | error e =>
    show bridge.Balanced s.size (base + tally (s.results ++ [])) host
    rw [List.append_nil]
    exact hr

theorem balances_drop {base : Counts} {s : Session} (hs : s.Balances base) (index : Nat) :
    EndsWell (Balances base) (s.drop index) := by
  unfold drop
  split
  · exact hs
  · rename_i ref href
    -- the order of the answers does not count, so the dropped one may stand first
    obtain ⟨hlt, href⟩ := List.getElem?_eq_some_iff.1 href
    have hperm : s.results.Perm (ref :: s.results.eraseIdx index) := by
      rw [← href]; exact (List.getElem_cons_eraseIdx_perm hlt).symm
    have hheld : s.host.Balanced s.size
        (base + tally (s.results.eraseIdx index) + tally s.bridge.natives.cached + one ref.slot) := by
      have := hs.2
      rw [tally_perm hperm, tally_cons, ← add_assoc, add_right_comm] at this
      exact this
    obtain ⟨host, he, hb⟩ := Host.release_ok hheld
    rw [he]
    exact balances_of_balanced (s := ⟨s.bridge, host, s.results.eraseIdx index⟩) ⟨hs.1, hb⟩

/-- A step keeps the balance, and gives nothing back that is not held. -/
theorem balances_step {base : Counts} {s : Session} (hs : s.Balances base) :
    ∀ {m : Move}, m.Within s.size → EndsWell (Balances base) (s.step m)
  | .ask _, hw => balances_ask hs hw
  | .drop index, _ => balances_drop hs index
  | .meanwhile _ _, _ => hs

theorem Reaches.balances {start s : Session} (hs : start.Fresh) (h : start.Reaches s) :
    s.Balances start.refs := by
  induction h with
  | start => exact hs.balances
  | step _ he hm ih =>
    have := balances_step ih hm
    rw [he] at this
    exact this

/-- After any steps each slot has the references that it had at the beginning, one for each answer to it
that is not dropped, and one for each native module that keeps it. No step gives back what is not held.
And closing the bridge and dropping the answers, in whatever order, leaves the counts of the beginning. -/
theorem references_balance {start s : Session} (hs : start.Fresh) (h : start.Reaches s) :
    (∀ slot, s.refs slot = start.refs slot + tally s.results slot + tally s.cached slot) ∧
    (∀ m slot, m.Within s.size → s.step m ≠ .error (.overReleased slot)) ∧
    ∀ order : List Ref, order.Perm s.results → ∃ closed last, s.bridge.close s.host = .ok ((), closed) ∧
      Host.releaseAll order closed = .ok ((), last) ∧
      ∀ slot, last.engine.heap.refs slot = start.refs slot := by
  have hb := h.balances hs
  refine ⟨hb.2.refs, fun m slot hm he => ?_, fun order horder => ?_⟩
  · have := balances_step hb hm
    rw [he] at this
    exact this
  · obtain ⟨closed, hclose, hb'⟩ := Host.releaseAll_ok hb.2
    rw [← tally_perm horder] at hb'
    obtain ⟨last, hlast, hb''⟩ := Host.releaseAll_ok hb'
    exact ⟨closed, last, hclose, hlast, hb''.refs⟩

/-- A module whose factory takes hold of its native counterpart and throws, a native module that cannot be
built, and a library whose second property cannot be. -/
def unlucky : Session where
  bridge := {
    registry := {
      builtins := .ofRows [⟨"a", "exports.x = native\nthrow exports".toUTF8.toList, 0⟩] [] .source
      natives := ⟨.ofList [("a", ⟨.ofPrograms ["\x7b\x7d".toUTF8.toList], 0, none⟩),
          ("b", ⟨.ofPrograms ["throw new Error('no')".toUTF8.toList], 0, none⟩)],
        some (.ofLibraries (.ofList [("l", [("x", "\x7b\x7d".toUTF8.toList), ("y", "z".toUTF8.toList)])])), .empty⟩ }
    config := ⟨none, true⟩
    gate := none
    files := .ofEntries .empty }
  host := {
    engine := {
      heap := ⟨#[⟨.text "a", 0⟩, ⟨.emptyObject, 0⟩, ⟨.object (.ofList [("exports", 1), ("id", 0)]), 1⟩]⟩
      parses := #[]
      calls := 0
      releases := 0
      issued := 1
      depth := 4 }
    guards := ⟨[], []⟩
    transcript := #[]
    log := #[] }
  results := []

theorem unlucky_fresh : unlucky.Fresh where
  closed := Heap.closed_of_rows (by decide)
  honest := by
    constructor
    · intro row hrow
      have hrow := Table.mem_of_mem_ofList hrow
      simp only [List.mem_cons, List.not_mem_nil, or_false] at hrow
      rcases hrow with rfl | rfl
      · exact ExportsBuilder.handsOver_ofPrograms unlucky.size ["\x7b\x7d".toUTF8.toList]
      · exact ExportsBuilder.handsOver_ofPrograms unlucky.size ["throw new Error('no')".toUTF8.toList]
    · intro load hload
      cases hload
      exact Loader.givesBack_ofLibraries unlucky.size _
  unbuilt := by
    intro row hrow
    have hrow := Table.mem_of_mem_ofList hrow
    simp only [List.mem_cons, List.not_mem_nil, or_false] at hrow
    rcases hrow with rfl | rfl <;> rfl
  results := rfl

/-- The module is loaded, "b" and the library are tried, "a" is asked for twice, and the first answer is
dropped. The exports of "a" are held twice then, by the second answer and by the table. -/
theorem references_balance_unlucky : ∃ s, unlucky.Reaches s ∧ s.results.map (·.slot) = [3] ∧
    s.cached.map (·.slot) = [3] ∧ s.refs 3 = 2 ∧ ∃ closed last, s.bridge.close s.host = .ok ((), closed) ∧
      Host.releaseAll s.results closed = .ok ((), last) ∧
      ∀ slot, last.engine.heap.refs slot = unlucky.refs slot := by
  have hview : ((unlucky.step (.ask (.loadModule ⟨2, 1⟩ ⟨2, 1⟩))).bind fun s =>
      (s.step (.ask (.native "b"))).bind fun s => (s.step (.ask (.loadLibrary "l"))).bind fun s =>
      (s.step (.ask (.native "a"))).bind fun s => (s.step (.ask (.native "a"))).bind fun s => s.step (.drop 0)).map
      (fun s => (s.results.map (·.slot), s.cached.map (·.slot), s.refs 3)) = .ok ([3], [3], 2) := by
    decide +kernel
  obtain ⟨s, hs, hv⟩ := exists_of_map_ok hview
  obtain ⟨s₁, h₁, hs⟩ := exists_of_bind_ok hs
  obtain ⟨s₂, h₂, hs⟩ := exists_of_bind_ok hs
  obtain ⟨s₃, h₃, hs⟩ := exists_of_bind_ok hs
  obtain ⟨s₄, h₄, hs⟩ := exists_of_bind_ok hs
  obtain ⟨s₅, h₅, hs⟩ := exists_of_bind_ok hs
  have hload : (Move.ask (.loadModule ⟨2, 1⟩ ⟨2, 1⟩)).Within unlucky.size := ⟨by decide, by decide⟩
  have htried : unlucky.Reaches s₃ := ((Reaches.start.step h₁ hload).step h₂ trivial).step h₃ trivial
  have hreach : unlucky.Reaches s := ((htried.step h₄ trivial).step h₅ trivial).step hs trivial
  simp only [Prod.mk.injEq] at hv
  exact ⟨s, hreach, hv.1, hv.2.1, hv.2.2, (references_balance unlucky_fresh hreach).2.2 s.results (.refl _)⟩

end Session

end ScriptHost
