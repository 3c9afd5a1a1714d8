/-
Native modules over whole histories of a table. Between two registrations of a name its builder is run
for each call that asks for it, up to and including the first run that succeeds, and never again; from
then on every answer is a reference to what was built. A failed run leaves the table as it was, and a new
registration gives back the one reference that the table had.

The builder is any function of the host. The invariant (`Service.Follows`) ties the entry of a name to the
requests since its registration, and every kind of step keeps it; the rest is induction on the commands.
-/
import ScriptHost.Proofs.Registry.Requests

namespace ScriptHost

open Engine (refOf)

/-! ## Histories -/

/-- One request for a native module: the host before it, the answer, and the host after it. -/
structure Visit where
  before : Host
  answer : Except HostError (Option Ref)
  after : Host

namespace Visit

/-- The builder was run and threw; its error is told and given back. -/
def Fails (v : Visit) (name : String) (init : ExportsBuilder) (run : Nat) : Prop :=
  ∃ error built, init run v.before = .ok (.error error, built) ∧
    v.answer = .error (.nativeLoad name (built.engine.messageOf error)) ∧
    Engine.release error built.engine = .ok ((), v.after.engine)

/-- The builder was run and made the exports, to which the caller got a second reference. -/
def Builds (v : Visit) (init : ExportsBuilder) (run : Nat) (exports : Ref) : Prop :=
  ∃ handle built, init run v.before = .ok (.ok exports, built) ∧ v.answer = .ok (some handle) ∧
    Engine.acquire exports built.engine = .ok (handle, v.after.engine)

/-- All that happened was that the caller got one more reference to the exports. -/
def Reuses (v : Visit) (exports : Ref) : Prop :=
  ∃ handle, Host.acquire exports v.before = .ok (handle, v.after) ∧ v.answer = .ok (some handle)

/-- The answer is a reference to the exports of the module. -/
def Succeeds (v : Visit) : Bool :=
  match v.answer with
  | .ok (some _) => true
  | _ => false

end Visit

/-- The requests for a name since it was registered, the latest first, with how often its builder ran and
what it built: it is run until it succeeds, and what it built then is used from then on. -/
inductive Lazy (name : String) (init : ExportsBuilder) : List Visit → Nat → Option Ref → Prop where
  | registered : Lazy name init [] 0 none
  | fails {v : Visit} {older : List Visit} {run : Nat} : Lazy name init older run none →
      v.Fails name init run → Lazy name init (v :: older) (run + 1) none
  | builds {v : Visit} {older : List Visit} {run : Nat} {exports : Ref} : Lazy name init older run none →
      v.Builds init run exports → Lazy name init (v :: older) (run + 1) (some exports)
  | reuses {v : Visit} {older : List Visit} {run : Nat} {exports : Ref} :
      Lazy name init older run (some exports) → v.Reuses exports →
      Lazy name init (v :: older) run (some exports)

/-- How many of some requests, the latest first, came no later than the first that succeeded. -/
def attempts : List Visit → Nat
  | [] => 0
  | _ :: older => if older.any (·.Succeeds) then attempts older else attempts older + 1

namespace Lazy

variable {name : String} {init : ExportsBuilder} {visits : List Visit} {run : Nat} {exports : Option Ref}

/-- Some request succeeded exactly when the exports are built. -/
theorem any_succeeds (h : Lazy name init visits run exports) : visits.any (·.Succeeds) = exports.isSome := by
  induction h with
  | registered => rfl
  | fails _ hv ih =>
    obtain ⟨_, _, -, ha, -⟩ := hv
    rw [List.any_cons, ih, Visit.Succeeds, ha]
    rfl
  | builds _ hv ih =>
    obtain ⟨_, _, -, ha, -⟩ := hv
    rw [List.any_cons, Visit.Succeeds, ha]
    rfl
  | reuses _ hv ih =>
    rw [List.any_cons, ih, Option.isSome_some, Bool.or_true]

/-- The builder ran once for each request up to the first that succeeded. -/
theorem run_eq (h : Lazy name init visits run exports) : run = attempts visits := by
  -- whether a request counts depends on whether an older one succeeded, which is when there are exports
  induction h with
  | registered => rfl
  | fails h _ ih => rw [attempts, h.any_succeeds, ih]; rfl
  | builds h _ ih => rw [attempts, h.any_succeeds, ih]; rfl
  | reuses h _ ih => rw [attempts, h.any_succeeds, ih]; rfl

/-- Every answer is a reference to the one value that was built, or says why it was not. -/
theorem answers (h : Lazy name init visits run exports) : ∀ v ∈ visits,
    (∃ handle ref, v.answer = .ok (some handle) ∧ exports = some ref ∧ handle.slot = ref.slot) ∨
      ∃ reason, v.answer = .error (.nativeLoad name reason) := by
  induction h with
  | registered => exact fun _ hv => by cases hv
  | fails _ hv ih =>
    obtain ⟨_, _, -, ha, -⟩ := hv
    intro w hw
    rcases List.mem_cons.1 hw with rfl | hw
    · exact .inr ⟨_, ha⟩
    · obtain ⟨_, _, _, hnone, _⟩ | hr := ih w hw
      · cases hnone
      · exact .inr hr
  | builds _ hv ih =>
    obtain ⟨handle, _, -, ha, hacquire⟩ := hv
    intro w hw
    rcases List.mem_cons.1 hw with rfl | hw
    · exact .inl ⟨handle, _, ha, rfl, (Engine.refs_of_acquire hacquire).1⟩
    · obtain ⟨_, _, _, hnone, _⟩ | hr := ih w hw
      · cases hnone
      · exact .inr hr
  | reuses _ hv ih =>
    obtain ⟨handle, hacquire, ha⟩ := hv
    intro w hw
    rcases List.mem_cons.1 hw with rfl | hw
    · exact .inl ⟨handle, _, ha, rfl, (Engine.refs_of_acquire (Host.engine_of_call hacquire)).1⟩
    · exact ih w hw

end Lazy

/-- A table of native modules in use: the table, the host, and the references that its callers were given
and hold. -/
structure Service where
  table : NativeTable
  host : Host
  handles : List Ref

namespace Service

open NativeTable (kept renewed)

/-- What is asked of a table, or happens meanwhile. -/
inductive Command where
  | register (name : String) (init : ExportsBuilder)
  | get (name : String)
  | setLoader (loader : Loader)
  | loadLibrary (location : String)
  /-- Asks whether there is a name, or for all of them. -/
  | look
  /-- Others work with the host, and callers drop references or copy them. -/
  | meanwhile (host : Host) (handles : List Ref)

/-- What a history remembers of it. -/
inductive Turn where
  | registered (name : String) (init : ExportsBuilder)
  | asked (name : String) (visit : Visit)
  | other

def step (s : Service) : Command → Except Halt (Turn × Service)
  | .register name init => do
    let (table, host) ← s.table.register name init s.host
    return (.registered name init, ⟨table, host, s.handles⟩)
  | .get name => do
    let ((answer, table), host) ← s.table.get name s.host
    return (.asked name ⟨s.host, answer, host⟩, ⟨table, host, answer.toOption.join.toList ++ s.handles⟩)
  | .setLoader loader => return (.other, { s with table := s.table.withLoader loader })
  | .loadLibrary location => do
    let (answer, host) ← (s.table.loadLibrary location).run s.host
    return (.other, ⟨s.table, host, answer.toOption.toList ++ s.handles⟩)
  | .look => return (.other, s)
  | .meanwhile host handles => return (.other, ⟨s.table, host, handles⟩)

/-- A table without modules. -/
def fresh (host : Host) : Service := ⟨.empty, host, []⟩

/-- Goes through commands, and remembers what came of them, the latest turn first. -/
def run : List Turn → Service → List Command → Except Halt (List Turn × Service)
  | history, s, [] => return (history, s)
  | history, s, c :: rest => do
    let (turn, s') ← s.step c
    run (turn :: history) s' rest

/-- The builder that a name was registered with last, and the requests for the name since then. -/
def era (name : String) : List Turn → Option (ExportsBuilder × List Visit)
  | [] => none
  | .registered other init :: older => if other = name then some (init, []) else era name older
  | .asked other visit :: older =>
    if other = name then (era name older).map fun r => (r.1, visit :: r.2) else era name older
  | .other :: older => era name older

/-! ## The invariant -/

/-- The entry of a name is what its requests made of it. -/
def Agrees (t : NativeTable) (name : String) : Option (ExportsBuilder × List Visit) → Prop
  | none => t.entries.get? name = none
  | some (init, visits) => ∃ run exports, t.entries.get? name = some ⟨init, run, exports⟩ ∧
      Lazy name init visits run exports

/-- The entries of a table are what a history made of them. -/
def Follows (t : NativeTable) (history : List Turn) : Prop := ∀ name, Agrees t name (era name history)

theorem Agrees.of_get? {t t' : NativeTable} {name : String} {r : Option (ExportsBuilder × List Visit)}
    (h : Agrees t name r) (he : t'.entries.get? name = t.entries.get? name) : Agrees t' name r := by
  cases r with
  | none => exact he.trans h
  | some r =>
    obtain ⟨run, exports, hentry, hlazy⟩ := h
    exact ⟨run, exports, he.trans hentry, hlazy⟩

theorem Agrees.renewed (t : NativeTable) (name : String) (init : ExportsBuilder) :
    Agrees (t.renewed name init) name (some (init, [])) :=
  ⟨0, none, Table.get?_insert_self .., .registered⟩

/-- A request extends the requests for its name in the one way that the entry allows. -/
theorem Agrees.asked {t t' : NativeTable} {name : String} {h h' : Host} {answer : Except HostError (Option Ref)}
    {r : Option (ExportsBuilder × List Visit)} (ha : Agrees t name r) (hgot : t.Got name h answer t' h') :
    Agrees t' name (r.map fun r => (r.1, ⟨h, answer, h'⟩ :: r.2)) := by
  cases r with
  | none =>
    have hnone : t.entries.get? name = none := ha
    -- no entry was ever made, so only the answer for an unknown id fits
    cases hgot with
    | unknown => exact ha
    | again he => rw [hnone] at he; cases he
    | built he => rw [hnone] at he; cases he
    | failed he => rw [hnone] at he; cases he
  | some r =>
    obtain ⟨run, exports, hentry, hlazy⟩ := ha
    -- each answer is the next visit of the entry that gave it
    cases hgot with
    | unknown he => rw [hentry] at he; cases he
    | again he hx hacquire =>
      rw [hentry] at he
      cases he
      cases hx
      exact ⟨run, _, hentry, hlazy.reuses ⟨_, hacquire, rfl⟩⟩
    | built he hx hinit hacquire =>
      rw [hentry] at he
      cases he
      cases hx
      exact ⟨run + 1, _, Table.get?_insert_self .., hlazy.builds ⟨_, _, hinit, rfl, hacquire⟩⟩
    | failed he hx hinit hrelease =>
      rw [hentry] at he
      cases he
      cases hx
      exact ⟨run + 1, none, Table.get?_insert_self .., hlazy.fails ⟨_, _, hinit, rfl, hrelease⟩⟩

theorem follows_step {s s' : Service} {history : List Turn} {c : Command} {turn : Turn}
    (hf : Follows s.table history) (hs : s.step c = .ok (turn, s')) : Follows s'.table (turn :: history) := by
  cases c with
  | register other init =>
    obtain ⟨⟨table, host⟩, hr, hs⟩ := exists_of_bind_ok hs
    cases hs
    obtain ⟨rfl, -⟩ := NativeTable.of_register hr
    intro name
    -- only for the name that is registered the requests are counted anew
    rw [era]
    split
    · rename_i he; subst he; exact .renewed ..
    · rename_i he; exact (hf name).of_get? (Table.get?_insert_ne _ _ (Ne.symm he))
  | get other =>
    obtain ⟨⟨⟨answer, table⟩, host⟩, hr, hs⟩ := exists_of_bind_ok hs
    cases hs
    have hgot := NativeTable.got_of_get hr
    intro name
    rw [era]
    split
    · rename_i he; subst he; exact (hf other).asked hgot
    · rename_i he; exact (hf name).of_get? (hgot.get?_ne (Ne.symm he))
  | setLoader loader => cases hs; exact hf
  | loadLibrary location =>
    obtain ⟨⟨answer, host⟩, -, hs⟩ := exists_of_bind_ok hs
    cases hs
    exact hf
  | look => cases hs; exact hf
  | meanwhile host handles => cases hs; exact hf

theorem follows_run : ∀ {commands : List Command} {history history' : List Turn} {s s' : Service},
    Follows s.table history → run history s commands = .ok (history', s') → Follows s'.table history'
  | [], _, _, _, _, hf, hr => by
    cases hr
    exact hf
  | _ :: _, _, _, _, _, hf, hr => by
    obtain ⟨⟨turn, s₁⟩, hs, hr⟩ := exists_of_bind_ok hr
    exact follows_run (follows_step hf hs) hr

/-! ## What is held -/

/-- The references that the table and its callers answer for. -/
def owned (s : Service) : Counts := tally s.table.cached + tally s.handles

/-- Nobody else gives these references back. -/
def Held (s : Service) : Prop := s.owned ≤ s.host.engine.heap.refs

/-- What is expected of those who work with the host in a step: the references of the table and its callers
are left alone, and what a builder returns, or the object that a loader is given, is held besides. -/
def Fair (s : Service) : Command → Prop
  | .get name => ∀ entry result built, s.table.entries.get? name = some entry → entry.exports = none →
      entry.init entry.runs s.host = .ok (result, built) →
      s.owned + one (refOf result).slot ≤ built.engine.heap.refs
  | .loadLibrary location => ∀ load exports created outcome loaded, s.table.loader = some load →
      Host.newObject s.host = .ok (exports, created) → load location exports created = .ok (outcome, loaded) →
      s.owned + one exports.slot ≤ loaded.engine.heap.refs
  | .meanwhile host handles => tally s.table.cached + tally handles ≤ host.engine.heap.refs
  | _ => True

theorem Held.kept {s : Service} (h : s.Held) {ref : Ref} (hr : ref ∈ s.table.cached) :
    0 < s.host.engine.heap.refs ref.slot :=
  lt_of_lt_of_le (Nat.add_pos_left (tally_pos hr) _) (h ref.slot)

theorem held_register {s : Service} {name : String} {init : ExportsBuilder} {table : NativeTable} {host : Host}
    (h : s.Held) (hr : s.table.register name init s.host = .ok (table, host)) :
    Held ⟨table, host, s.handles⟩ := by
  obtain ⟨rfl, hrefs, -⟩ := NativeTable.of_register hr
  intro slot
  have hslot := h slot
  have htally := congrFun (NativeTable.tally_cached_renewed s.table name init) slot
  have := hrefs slot
  simp only [owned, Pi.add_apply] at hslot htally ⊢
  omega

theorem held_got {s : Service} {name : String} {table : NativeTable} {host : Host}
    {answer : Except HostError (Option Ref)} (h : s.Held) (hf : s.Fair (.get name))
    (hgot : s.table.Got name s.host answer table host) :
    Held ⟨table, host, answer.toOption.join.toList ++ s.handles⟩ := by
  cases hgot with
  | unknown => exact h
  | again hentry hexports hacquire =>
    obtain ⟨hslot, hrefs⟩ := Engine.refs_of_acquire (Host.engine_of_call hacquire)
    have hrefs := hrefs (h.kept (NativeTable.mem_cached hentry hexports))
    intro slot
    have hheld := h slot
    simp only [owned, Except.toOption, Option.join_some, Option.toList_some, List.cons_append, List.nil_append,
      tally_cons, Pi.add_apply, hslot, hrefs] at hheld ⊢
    omega
  | built hentry hnone hinit hacquire =>
    -- one reference for the table, which the builder handed over, and one for the caller
    have hbuilt := hf _ _ _ hentry hnone hinit
    obtain ⟨hslot, hrefs⟩ := Engine.refs_of_acquire hacquire
    have hrefs := hrefs (lt_of_lt_of_le known_one_pos (hbuilt _))
    intro slot
    have hheld := hbuilt slot
    simp only [owned, refOf, NativeTable.tally_cached_afterRun hentry hnone, Except.toOption, Option.join_some,
      Option.toList_some, List.cons_append, List.nil_append, tally_cons, tally_nil, zero_add, Pi.add_apply, hslot,
      hrefs] at hheld ⊢
    omega
  | failed hentry hnone hinit hrelease =>
    have hfailed := hf _ _ _ hentry hnone hinit
    have hrefs := (Engine.refs_of_release hrelease).1
    intro slot
    have hheld := hfailed slot
    have hslot := hrefs slot
    simp only [owned, refOf, NativeTable.tally_cached_afterRun hentry hnone, Except.toOption, Option.join_none,
      Option.toList_none, List.nil_append, tally_nil, add_zero, Pi.add_apply] at hheld ⊢
    omega
where
  known_one_pos {counts : Counts} {slot : Slot} : 0 < (counts + one slot) slot := by
    rw [Pi.add_apply, one_self]
    exact Nat.succ_pos _

/-- A library that is loaded is held by its caller, and one that is not leaves nothing behind. -/
theorem held_loadLibrary {s : Service} {location : String} {host : Host} {answer : Except HostError Ref}
    (h : s.Held) (hf : s.Fair (.loadLibrary location))
    (hr : (s.table.loadLibrary location).run s.host = .ok (answer, host)) :
    Held ⟨s.table, host, answer.toOption.toList ++ s.handles⟩ := by
  unfold NativeTable.loadLibrary at hr
  cases hloader : s.table.loader with
  | none =>
    rw [hloader] at hr
    cases hr
    exact h
  | some load =>
    rw [hloader] at hr
    obtain ⟨exports, created, hnew, hr⟩ := Attempt.exists_of_lift_bind hr
    obtain ⟨outcome, loaded, hload, hr⟩ := Attempt.exists_of_lift_bind hr
    have hloaded := hf _ _ _ _ _ hloader hnew hload
    cases outcome with
    | ok _ =>
      cases hr
      intro slot
      have hslot := hloaded slot
      simp only [owned, Except.toOption, Option.toList_some, List.cons_append, List.nil_append, tally_cons,
        Pi.add_apply] at hslot ⊢
      omega
    | error reason =>
      obtain ⟨_, warned, hemit, hr⟩ := Attempt.exists_of_lift_bind hr
      obtain ⟨_, given, hrelease, hr⟩ := Attempt.exists_of_lift_bind hr
      cases hr
      -- the object that the loader was given is the one that is given back
      have hrefs := (Engine.refs_of_release (Host.engine_of_call hrelease)).1
      rw [Host.engine_of_emit hemit] at hrefs
      intro slot
      have hslot := hloaded slot
      have := hrefs slot
      simp only [owned, Except.toOption, Option.toList_none, List.nil_append, Pi.add_apply] at hslot ⊢
      omega

/-- A fair step keeps what is held. -/
theorem held_step {s s' : Service} {c : Command} {turn : Turn} (h : s.Held) (hf : s.Fair c)
    (hs : s.step c = .ok (turn, s')) : s'.Held := by
  cases c with
  | register name init =>
    obtain ⟨⟨table, host⟩, hr, hs⟩ := exists_of_bind_ok hs
    cases hs
    exact held_register h hr
  | get name =>
    obtain ⟨⟨⟨answer, table⟩, host⟩, hr, hs⟩ := exists_of_bind_ok hs
    cases hs
    exact held_got h hf (NativeTable.got_of_get hr)
  | setLoader loader => cases hs; exact h
  | loadLibrary location =>
    obtain ⟨⟨answer, host⟩, hr, hs⟩ := exists_of_bind_ok hs
    cases hs
    exact held_loadLibrary h hf hr
  | look => cases hs; exact h
  | meanwhile host handles => cases hs; exact hf

/-! ## The laws -/

/-- What holds of a table and its host after a history. -/
structure Lawful (s : Service) (history : List Turn) : Prop where
  listed : ∀ name, (s.table.contains name = true ↔ (era name history).isSome) ∧
    (name ∈ s.table.names ↔ (era name history).isSome)
  /-- Asking for a name that is not registered runs nothing. -/
  unknown : ∀ name, era name history = none →
    s.table.get name s.host = .ok ((.ok none, s.table), s.host)
  /-- The builder of a name was run once for each request up to the first that succeeded, and never since.
  All answers since the registration are to the one value that is kept, or say that the builder failed. -/
  lazily : ∀ name init visits, era name history = some (init, visits) → ∃ exports,
    s.table.entries.get? name = some ⟨init, attempts visits, exports⟩ ∧
    Lazy name init visits (attempts visits) exports ∧ ∀ v ∈ visits,
      (∃ handle ref, v.answer = .ok (some handle) ∧ exports = some ref ∧ handle.slot = ref.slot) ∨
        ∃ reason, v.answer = .error (.nativeLoad name reason)
  /-- A request that fails changes nothing that is seen of the table, and the module is still to be built. -/
  retried : ∀ name error table host, s.table.get name s.host = .ok ((.error error, table), host) →
    s.table.Alike table ∧ table.kept name = none
  /-- A new registration drops what was built, gives back the reference to it, if there is one, and leaves
  every value as it was. -/
  renewed : ∀ name init table host, s.table.register name init s.host = .ok (table, host) →
    table = s.table.renewed name init ∧ table.kept name = none ∧
    (∀ slot, host.engine.heap.refs slot + tally (s.table.kept name).toList slot = s.host.engine.heap.refs slot) ∧
    (∀ slot, host.engine.heap.payload slot = s.host.engine.heap.payload slot) ∧
    host.engine.releases = s.host.engine.releases + (s.table.kept name).toList.length
  /-- While the references of the table and its callers are left alone they stay held, and the table fails to
  answer only where a builder does. -/
  held : s.Held → (∀ name init, ∃ r, s.step (.register name init) = .ok r) ∧
    (∀ name, s.Fair (.get name) → (∀ entry, s.table.entries.get? name = some entry → entry.exports = none →
      ∃ r, entry.init entry.runs s.host = .ok r) → ∃ r, s.step (.get name) = .ok r) ∧
    ∀ c turn s', s.Fair c → s.step c = .ok (turn, s') → s'.Held

theorem exists_register {s : Service} (h : s.Held) (name : String) (init : ExportsBuilder) :
    ∃ r, s.step (.register name init) = .ok r := by
  have hreg : ∃ r, s.table.register name init s.host = .ok r := by
    rw [NativeTable.register_eq]
    cases hk : s.table.kept name with
    | none => exact ⟨_, rfl⟩
    | some exports =>
      obtain ⟨entry, hentry, hexports⟩ := Option.bind_eq_some_iff.1 hk
      obtain ⟨e, he⟩ := Engine.exists_of_held (h.kept (NativeTable.mem_cached hentry hexports))
      obtain ⟨host, hrelease, -⟩ := Host.call_ok (fun _ => .release exports) he
      change Host.release exports s.host = _ at hrelease
      simp only [hrelease]
      exact ⟨_, rfl⟩
  obtain ⟨⟨table, host⟩, hreg⟩ := hreg
  unfold step
  simp only [hreg]
  exact ⟨_, rfl⟩

theorem exists_get {s : Service} {name : String} (hf : s.Fair (.get name))
    (hinit : ∀ entry, s.table.entries.get? name = some entry → entry.exports = none →
      ∃ r, entry.init entry.runs s.host = .ok r) : ∃ r, s.step (.get name) = .ok r := by
  have hget : ∃ r, s.table.get name s.host = .ok r := by
    cases hentry : s.table.entries.get? name with
    | none => rw [NativeTable.get, hentry]; exact ⟨_, rfl⟩
    | some entry =>
      cases hexports : entry.exports with
      | some exports => exact NativeTable.exists_get_of_exports s.host hentry hexports
      | none =>
        obtain ⟨⟨result, built⟩, hbuilt⟩ := hinit entry hentry hexports
        have hheld := hf entry result built hentry hexports hbuilt (refOf result).slot
        rw [Pi.add_apply, one_self] at hheld
        exact NativeTable.exists_get_of_init hentry hexports hbuilt (lt_of_lt_of_le (Nat.succ_pos _) hheld)
  obtain ⟨⟨⟨answer, table⟩, host⟩, hget⟩ := hget
  unfold step
  simp only [hget]
  exact ⟨_, rfl⟩

/-- After any history of an empty table. -/
theorem lazy_construction {host : Host} {commands : List Command} {history : List Turn} {s : Service}
    (h : run [] (fresh host) commands = .ok (history, s)) : Lawful s history := by
  have hempty : Follows (fresh host).table [] := fun _ => rfl
  have hf := follows_run hempty h
  -- the table and the history know the same names
  have hsome : ∀ name, (s.table.entries.get? name).isSome = (era name history).isSome := by
    intro name
    have hname := hf name
    cases hera : era name history with
    | none => rw [hera] at hname; rw [show s.table.entries.get? name = none from hname]; rfl
    | some r =>
      rw [hera] at hname
      obtain ⟨_, _, hentry, -⟩ := hname
      rw [hentry]
      rfl
  refine ⟨fun name => ⟨?_, ?_⟩, fun name hera => ?_, fun name init visits hera => ?_,
    fun name error table host hget => ?_, fun name init table host hreg => ?_, fun hheld => ?_⟩
  · rw [← hsome]; rfl
  · rw [← hsome]; exact Table.mem_names ..
  · have hname := hf name
    rw [hera] at hname
    rw [NativeTable.get, show s.table.entries.get? name = none from hname]
    rfl
  · have hname := hf name
    rw [hera] at hname
    obtain ⟨run, exports, hentry, hlazy⟩ := hname
    have hrun := hlazy.run_eq
    subst hrun
    exact ⟨exports, hentry, hlazy, hlazy.answers⟩
  · cases NativeTable.got_of_get hget with
    | failed hentry hnone =>
      refine ⟨.afterRun hentry hnone, ?_⟩
      unfold kept
      rw [NativeTable.afterRun, Table.get?_insert_self]
      rfl
  · obtain ⟨rfl, hrefs, hpayload, hreleases⟩ := NativeTable.of_register hreg
    refine ⟨rfl, ?_, hrefs, hpayload, hreleases⟩
    unfold kept
    rw [NativeTable.renewed, Table.get?_insert_self]
    rfl
  · exact ⟨exists_register hheld, fun name => exists_get, fun c turn s' hfair => held_step hheld hfair⟩

/-- A module that fails once, is built and used again, and is then registered anew. -/
def restless : List Command :=
  [.register "a" (.ofPrograms ["throw new Error('no')".toUTF8.toList, "\x7b\x7d".toUTF8.toList]), .get "a", .get "a",
    .get "a", .register "a" (.ofPrograms []), .get "a", .get "b"]

/-- The builder fails in cell 0 and is run again, both callers are given cell 1, and after the second
registration the third one is given cell 2. By then two references are given back: to the error, and to what
the table kept. -/
theorem lazy_construction_restless : ∃ history s, run [] (fresh (.new 4 ⟨[], []⟩)) restless = .ok (history, s) ∧
    s.handles.map (·.slot) = [2, 1, 1] ∧ s.table.cached.map (·.slot) = [2] ∧
    s.host.engine.heap.cells.toList.map (·.refs) = [0, 2, 2] ∧ s.host.engine.releases = 2 ∧ Lawful s history := by
  have hview : (run [] (fresh (.new 4 ⟨[], []⟩)) restless).map (fun r => (r.2.handles.map (·.slot),
      r.2.table.cached.map (·.slot), r.2.host.engine.heap.cells.toList.map (·.refs), r.2.host.engine.releases)) =
      .ok ([2, 1, 1], [2], [0, 2, 2], 2) := by
    decide +kernel
  obtain ⟨⟨history, s⟩, hrun, hv⟩ := exists_of_map_ok hview
  simp only [Prod.mk.injEq] at hv
  exact ⟨history, s, hrun, hv.1, hv.2.1, hv.2.2.1, hv.2.2.2, lazy_construction hrun⟩

end Service

end ScriptHost
