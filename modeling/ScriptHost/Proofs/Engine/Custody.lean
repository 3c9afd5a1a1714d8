/-
Conservation of references. A program has owners and raw references: it makes owners of what the engine answers,
makes them raw and raw references owners again, drops owners, and gives raw references back or forgets them. Main
result: at any time each slot has as many references as its history has owners of it that were neither dropped nor
unwrapped and raw references to it that were neither given back nor wrapped again; all references that were ever
handed out have come back or are held; the tables of the program are those of its history; and nothing is given back
that is not held.
-/
import ScriptHost.Proofs.Engine.Ownership

namespace ScriptHost

open scoped List

/-- A program with its owners and raw references, its engine, and its history. -/
structure Custody where
  owners : Owners
  engine : Engine
  past : List Deed

namespace Custody

open Engine (Operation)
open Owners (Command)

/-- Without references, at a new engine. -/
def new (depth : Nat) : Custody := ⟨.empty, .new depth, []⟩

/-- One command further. -/
def act (c : Custody) (command : Command) : Except Halt Custody :=
  (command.perform c.owners c.engine).map fun r => ⟨r.1.2, r.2, command.deeds c.past c.engine ++ c.past⟩

/-- Puts a reference among the raw ones. -/
def lay (c : Custody) (name : String) (ref : Ref) : Custody :=
  { c with
    owners := { c.owners with raw := c.owners.raw.insert name ref }
    past := .received name ref :: (Deed.overwritten c.past name ++ c.past) }

/-- Asks the engine for something; what it hands out stays raw. -/
def ask (c : Custody) (name : String) (op : Operation) : Except Halt Custody :=
  (op.perform c.engine).map fun r => r.1.foldl (·.lay name) { c with engine := r.2 }

/-- What passes references that are held, and takes none back behind the program. -/
structure Asks (c : Custody) (op : Operation) : Prop where
  handles : ∀ ref ∈ op.handles, ref ∈ Deed.held c.past
  takes : op.takes = 0

/-- What comes of commands and of requests to the engine. -/
inductive Reaches (start : Custody) : Custody → Prop where
  | start : Reaches start start
  | act {c c' : Custody} {command : Command} : Reaches start c → c.act command = .ok c' → command.Legal →
      Reaches start c'
  | ask {c c' : Custody} {name : String} {op : Operation} : Reaches start c → c.ask name op = .ok c' → c.Asks op →
      Reaches start c'

/-- The tables are those of the history, and the engine holds just the references of the history and those that are
on their way to the program. -/
structure Accounts (pending : List Ref) (c : Custody) : Prop where
  owned : c.owners.owned.rows ~ Deed.owners c.past
  raw : c.owners.raw.rows ~ Deed.raws c.past
  settled : c.engine.Settled (pending ++ Deed.held c.past)
  issued : c.engine.issued = Deed.handed c.past + pending.length
  releases : c.engine.releases = Deed.returned c.past

def Sound : Custody → Prop := Accounts []

theorem sound_new (depth : Nat) : (new depth).Sound := ⟨.nil, .nil, Engine.settled_new depth, rfl, rfl⟩

variable {α : Type} {c c' : Custody} {name : String} {ref : Ref}

/-- The engine counts what whoever loses the name gives back, and so does the history. -/
theorem counts_vacated {past : List Deed} {e e' : Engine} {out : Nat} (hissued : e.issued = Deed.handed past + out)
    (hreleases : e.releases = Deed.returned past)
    (hturn : Engine.Turnover 0 ((Deed.owners past).lookup name).toList.length e e') :
    e'.issued = Deed.handed (Deed.vacated past name ++ past) + out ∧
      e'.releases = Deed.returned (Deed.vacated past name ++ past) := by
  rw [Deed.handed_vacated, Deed.returned_vacated, ← hissued, ← hreleases]
  exact ⟨hturn.issued, hturn.releases⟩

namespace Sound

/-- What the engine hands out gets an owner. -/
theorem gain {op : EngineM α} {answer : α → Ref} (hs : c.Sound)
    (hop : Engine.Settles (Deed.held c.past) op (fun a => [answer a]) (Deed.held c.past) 0) (name : String) :
    EndsWell Sound ((op c.engine >>= fun r => Owners.keep name (answer r.1) c.owners r.2).map fun r =>
      ⟨r.1.2, r.2, Command.gains c.past name (Command.handedOut op answer c.engine) ++ c.past⟩) := by
  have hend := hop c.engine hs.settled
  unfold Command.handedOut
  rcases hrun : op c.engine with (_ | slot) | ⟨a, e⟩
  · trivial
  · rwa [hrun] at hend
  · rw [hrun] at hend
    obtain ⟨hsettled, hturn⟩ := hend
    -- the engine hands out one reference, and then takes back the one of whoever had the name
    obtain ⟨e', hkeep, hsettled', hturn'⟩ := Owners.exists_keep hs.owned hsettled name
    show EndsWell Sound ((Owners.keep name (answer a) c.owners e).map _)
    rw [hkeep]
    have hout : e.issued = Deed.handed c.past + 1 := hturn.issued.trans (congrArg (· + 1) hs.issued)
    obtain ⟨hissued, hreleases⟩ := counts_vacated hout (hturn.releases.trans hs.releases) hturn'
    have hraw := hs.raw
    rw [← Deed.raws_vacated _ name] at hraw
    rw [← Deed.raw_vacated _ name] at hsettled'
    exact ⟨Deed.rows_insert_vacated hs.owned name _, hraw, hsettled', hissued, hreleases⟩

/-- A raw reference gets an owner, if there is one. -/
theorem rewrap (hs : c.Sound) (name source : String) : EndsWell Sound (c.act (.rewrap name source)) := by
  have hraw := Table.rows_erase_perm hs.raw source
  simp only [Custody.act, Owners.perform_rewrap, Table.get?_eq_lookup hs.raw, Command.deeds]
  cases hrow : (Deed.raws c.past).lookup source with
  | none =>
    rw [Table.without_of_lookup_none hrow] at hraw
    exact ⟨hs.owned, hraw, hs.settled, hs.issued, hs.releases⟩
  | some ref =>
    rw [Table.without_of_lookup hrow, ← Deed.raws_vacated _ name] at hraw
    have hheld := ((Deed.raw_of_mem (Table.mem_of_lookup_eq_some hrow)).append_left (Deed.owned c.past)).trans
      List.perm_middle
    -- the owners are those of `c` still, only the raw references are fewer
    obtain ⟨e, hkeep, hsettled, hturn⟩ := Owners.exists_keep
      (s := { c.owners with raw := c.owners.raw.erase source }) hs.owned (hs.settled.perm hheld) name
    simp only [hkeep]
    obtain ⟨hissued, hreleases⟩ := counts_vacated hs.issued hs.releases hturn
    rw [← Deed.raws_vacated _ name, ← Deed.lost_vacated _ name] at hsettled
    exact ⟨Deed.rows_insert_vacated hs.owned name ref, hraw, hsettled, hissued, hreleases⟩

/-- The reference of an owner becomes raw, and another one of that name is forgotten. -/
theorem unwrap (hs : c.Sound) (name : String) : EndsWell Sound (c.act (.unwrap name)) := by
  have howned := Table.rows_erase_perm hs.owned name
  simp only [Custody.act, Owners.perform_unwrap, Table.get?_eq_lookup hs.owned, Command.deeds]
  cases hrow : (Deed.owners c.past).lookup name with
  | none =>
    rw [Table.without_of_lookup_none hrow] at howned
    exact ⟨howned, hs.raw, hs.settled, hs.issued, hs.releases⟩
  | some ref =>
    rw [Table.without_of_lookup hrow, ← Deed.owners_overwritten _ name] at howned
    have hmem := Table.mem_of_lookup_eq_some hrow
    rw [← Deed.owners_overwritten _ name] at hmem
    -- what is held stays as it is: one reference changes sides, another one may lose its name
    have hheld := ((Deed.held_unwrapped hmem).trans (Deed.held_overwritten c.past name)).symm
    exact ⟨howned, Deed.rows_insert_overwritten hs.raw name ref, hs.settled.perm hheld,
      hs.issued.trans (Deed.handed_overwritten ..).symm, hs.releases.trans (Deed.returned_overwritten ..).symm⟩

/-- A raw reference is given back, if there is one. -/
theorem release (hs : c.Sound) (name : String) : EndsWell Sound (c.act (.release name)) := by
  have hraw := Table.rows_erase_perm hs.raw name
  simp only [Custody.act, Owners.perform_release, Table.get?_eq_lookup hs.raw, Command.deeds]
  cases hrow : (Deed.raws c.past).lookup name with
  | none =>
    rw [Table.without_of_lookup_none hrow] at hraw
    exact ⟨hs.owned, hraw, hs.settled, hs.issued, hs.releases⟩
  | some ref =>
    rw [Table.without_of_lookup hrow] at hraw
    have hheld := hs.settled.perm (Deed.held_released (Table.mem_of_lookup_eq_some hrow))
    obtain ⟨e, hrelease, hsettled, hturn⟩ := @Owners.exists_giveBack (some ref) _ _ hheld
    simp only [hrelease]
    exact ⟨hs.owned, hraw, hsettled, hturn.issued.trans hs.issued,
      hturn.releases.trans (congrArg (· + 1) hs.releases)⟩

/-- An owner goes, if there is one, and its reference is given back. -/
theorem drop (hs : c.Sound) (name : String) : EndsWell Sound (c.act (.drop name)) := by
  obtain ⟨e, hback, hsettled, hturn⟩ := Owners.exists_vacate hs.owned hs.settled name
  have howned := Table.rows_erase_perm hs.owned name
  have hraw := hs.raw
  rw [← Deed.owners_vacated] at howned
  rw [← Deed.raws_vacated _ name] at hraw
  rw [← Deed.raw_vacated _ name] at hsettled
  obtain ⟨hissued, hreleases⟩ := counts_vacated hs.issued hs.releases hturn
  simp only [Custody.act, Owners.perform_drop, hback, Command.deeds]
  exact ⟨howned, hraw, hsettled, hissued, hreleases⟩

/-- All owners go. -/
theorem dropAll (hs : c.Sound) : EndsWell Sound (c.act .dropAll) := by
  have hperm := (hs.owned.map Prod.snd).symm.append_right (Deed.raw c.past)
  obtain ⟨e, hrun, hsettled, hturn⟩ :=
    Owners.exists_forM_release { c.owners with owned := .empty } (hs.settled.perm hperm)
  obtain ⟨hraws, hlost, hhanded, hreturned⟩ := Deed.rest_dropped c.past (Deed.owners c.past)
  have hnone := Deed.owners_dropped_all c.past
  have hraw := hs.raw
  rw [← hraws] at hraw
  have hheld : Deed.raw c.past = Deed.held ((Deed.owners c.past).map (fun row => .dropped row.1 row.2) ++ c.past) := by
    rw [Deed.held, Deed.owned, hnone, Deed.raw, Deed.raw, hraws, hlost]
    rfl
  simp only [Custody.act, Owners.perform_dropAll, hrun, Command.deeds]
  exact ⟨.of_eq hnone.symm, hraw, hheld ▸ hsettled, hturn.issued.trans (hs.issued.trans hhanded.symm),
    hturn.releases.trans ((congrArg₂ (· + ·) hs.releases hs.owned.length_eq).trans hreturned.symm)⟩

theorem act (hs : c.Sound) : ∀ {command : Command}, command.Legal → EndsWell Sound (c.act command)
  | .create name payload, hl => by
    unfold Custody.act
    rw [Owners.perform_create]
    exact hs.gain (Engine.settles_create hl) name
  | .adopt name program, _ => by
    unfold Custody.act
    rw [Owners.perform_adopt]
    exact hs.gain (Engine.settles_runSource program) name
  | .duplicate name source, _ => by
    simp only [Custody.act, Owners.perform_duplicate, Table.get?_eq_lookup hs.owned, Command.deeds]
    cases hrow : (Deed.owners c.past).lookup source with
    | none => exact hs
    | some ref => exact hs.gain (Engine.settles_acquire (Deed.mem_held (Table.mem_of_lookup_eq_some hrow))) name
  | .rewrap name source, _ => hs.rewrap name source
  | .unwrap name, _ => hs.unwrap name
  | .release name, _ => hs.release name
  | .drop name, _ => hs.drop name
  | .dropAll, _ => hs.dropAll

end Sound

/-- A reference that was on its way is among the raw ones. -/
theorem Accounts.lay {pending : List Ref} (h : Accounts (ref :: pending) c) (name : String) :
    Accounts pending (c.lay name ref) where
  owned := (Deed.owners_overwritten c.past name).symm ▸ h.owned
  raw := Deed.rows_insert_overwritten h.raw name ref
  settled := h.settled.perm
    (List.perm_middle.symm.trans ((Deed.held_received c.past name ref).symm.append_left pending))
  issued := by
    have hhanded := Deed.handed_overwritten c.past name
    have hissued := h.issued
    simp only [Custody.lay, Deed.handed, List.length_cons] at *
    omega
  releases := h.releases.trans (Deed.returned_overwritten c.past name).symm

theorem Accounts.foldl_lay (name : String) : ∀ {pending : List Ref} {c : Custody}, Accounts pending c →
    Sound (pending.foldl (·.lay name) c)
  | [], _, h => h
  | _ :: _, _, h => (h.lay name).foldl_lay name

theorem Sound.ask {op : Operation} (hs : c.Sound) (ha : c.Asks op) (name : String) :
    EndsWell Sound (c.ask name op) := by
  have hkeeps : op.keeps (Deed.held c.past) = Deed.held c.past := by
    have := ha.takes
    cases op <;> first | rfl | cases this
  refine (Operation.settles ha.handles c.engine hs.settled).map ?_
  rintro ⟨refs, engine⟩ ⟨hsettled, hturn⟩
  rw [hkeeps] at hsettled
  rw [ha.takes] at hturn
  -- the engine has handed out `refs`, and none of them is in the history yet
  have h : Accounts refs { c with engine := engine } :=
    ⟨hs.owned, hs.raw, hsettled, hturn.issued.trans (congrArg (· + refs.length) hs.issued),
      hturn.releases.trans hs.releases⟩
  exact h.foldl_lay name

theorem Reaches.sound (hs : c.Sound) (h : c.Reaches c') : c'.Sound := by
  induction h with
  | start => exact hs
  | act _ hact hl ih =>
    have := ih.act hl
    rwa [hact] at this
  | @ask c c' name op _ hask ha ih =>
    have := ih.ask ha name
    rwa [hask] at this

/-- Whatever a program of a new engine has done, each slot has as many references as there are owners of it that were
neither dropped nor unwrapped and raw references to it that were neither given back nor wrapped again. All references
that were ever handed out have come back or are held, and the engine has handed out and taken back those that the
history tells of. The program finds under each name what its history says. Whatever it does next, nothing is given
back that is not held. And unwrapping an owner and wrapping its reference again does nothing to the engine. -/
theorem references_conserved {depth : Nat} (h : (new depth).Reaches c) :
    (∀ slot, c.engine.heap.refs slot = tally (Deed.owned c.past) slot + tally (Deed.raw c.past) slot) ∧
    c.engine.issued = c.engine.releases + c.engine.heldRefs ∧
    (c.engine.issued = Deed.handed c.past ∧ c.engine.releases = Deed.returned c.past) ∧
    (∀ name, c.owners.owned.get? name = (Deed.owners c.past).lookup name ∧
      c.owners.raw.get? name = (Deed.raws c.past).lookup name) ∧
    (∀ command slot, command.Legal → c.act command ≠ .error (.overReleased slot)) ∧
    (∀ name op slot, c.Asks op → c.ask name op ≠ .error (.overReleased slot)) ∧
    ∀ name other ref, c.owners.owned.get? name = some ref → other = name ∨ c.owners.owned.get? other = none →
      ∃ owners, (Owners.unwrap name >>= fun _ => Owners.rewrap other name) c.owners c.engine =
        .ok ((true, owners), c.engine) ∧ owners.owned.get? other = some ref := by
  have hs := h.sound (sound_new depth)
  refine ⟨fun slot => ?_, ?_, ⟨hs.issued, hs.releases⟩,
    fun name => ⟨Table.get?_eq_lookup hs.owned name, Table.get?_eq_lookup hs.raw name⟩,
    fun command slot hl he => ?_, fun name op slot ha he => ?_, fun name other ref hn hfree => ?_⟩
  · rw [hs.settled.balanced.refs, List.nil_append, Deed.held, tally_append]
    rfl
  · rw [hs.settled.heldRefs_eq]
    exact hs.settled.issued
  · have := hs.act hl
    rwa [he] at this
  · have := hs.ask ha name
    rwa [he] at this
  · exact ⟨_, Owners.unwrap_rewrap hn (Table.get?_erase_eq_none hfree) c.engine, Table.get?_insert_self ..⟩

/-- What a program throws has an owner and a copy. The owner is unwrapped and wrapped again under another name. Its
copy is unwrapped, and so is a second copy of the same name, so that the first is forgotten. The second is given
back, and the owner dropped. -/
theorem references_conserved_thrown : ∃ c c', (new 1).Reaches c ∧ c.act (.drop "c") = .ok c' ∧
    (∃ owners, (Owners.unwrap "c" >>= fun _ => Owners.rewrap "d" "c") c.owners c.engine =
      .ok ((true, owners), c.engine) ∧ owners.owned.get? "d" = some ⟨0, 1⟩) ∧
    Deed.owned c'.past = [] ∧ Deed.raw c'.past = [⟨0, 2⟩] ∧ c'.engine.heap.refs 0 = 0 + 1 ∧
    c'.engine.issued = 3 ∧ c'.engine.releases = 2 ∧ c'.engine.issued = c'.engine.releases + c'.engine.heldRefs ∧
    c'.owners.owned.get? "c" = none ∧ c'.act (.drop "c") ≠ .error (.overReleased 0) ∧
    c'.ask "d" (.acquire ⟨0, 2⟩) ≠ .error (.overReleased 0) := by
  have hview : (((new 1).act (.adopt "a" "throw 1".toUTF8.toList)).bind fun c₁ =>
      (c₁.act (.duplicate "b" "a")).bind fun c₂ => (c₂.act (.unwrap "a")).bind fun c₃ =>
      (c₃.act (.rewrap "c" "a")).bind fun c₄ => (c₄.act (.unwrap "b")).bind fun c₅ =>
      (c₅.act (.duplicate "b" "c")).bind fun c₆ => (c₆.act (.unwrap "b")).bind fun c₇ =>
      (c₇.act (.release "b")).bind fun c₈ => (c₈.act (.drop "c")).map fun c₉ =>
        ((c₈.owners.owned.get? "c", c₈.owners.owned.get? "d"),
          (Deed.owners c₉.past, Deed.raw c₉.past, Deed.handed c₉.past, Deed.returned c₉.past))) =
      .ok ((some ⟨0, 1⟩, none), ([], [⟨0, 2⟩], 3, 2)) := by
    decide +kernel
  obtain ⟨c₁, h₁, hview⟩ := exists_of_bind_ok hview
  obtain ⟨c₂, h₂, hview⟩ := exists_of_bind_ok hview
  obtain ⟨c₃, h₃, hview⟩ := exists_of_bind_ok hview
  obtain ⟨c₄, h₄, hview⟩ := exists_of_bind_ok hview
  obtain ⟨c₅, h₅, hview⟩ := exists_of_bind_ok hview
  obtain ⟨c₆, h₆, hview⟩ := exists_of_bind_ok hview
  obtain ⟨c₇, h₇, hview⟩ := exists_of_bind_ok hview
  obtain ⟨c₈, h₈, hview⟩ := exists_of_bind_ok hview
  obtain ⟨c₉, h₉, hview⟩ := exists_of_map_ok hview
  simp only [Prod.mk.injEq] at hview
  obtain ⟨⟨howner, hfree⟩, howners, hraw, hhanded, hreturned⟩ := hview
  have hreach : (new 1).Reaches c₈ := Reaches.start |>.act h₁ trivial |>.act h₂ trivial |>.act h₃ trivial
    |>.act h₄ trivial |>.act h₅ trivial |>.act h₆ trivial |>.act h₇ trivial |>.act h₈ trivial
  obtain ⟨-, -, -, -, -, -, hagain⟩ := references_conserved hreach
  obtain ⟨hrefs, hcount, ⟨hissued, hreleases⟩, hnames, hact, hask, -⟩ := references_conserved (hreach.act h₉ trivial)
  have howned : Deed.owned c₉.past = [] := congrArg (List.map Prod.snd) howners
  -- the reference that lost its name is held all the same, so it may be passed
  have hasks : c₉.Asks (.acquire ⟨0, 2⟩) := by
    constructor
    · simp [Engine.Operation.handles, Deed.held, hraw]
    · rfl
  refine ⟨c₈, c₉, hreach, h₉, hagain "c" "d" ⟨0, 1⟩ howner (.inr hfree), howned, hraw, ?_, hissued.trans hhanded,
    hreleases.trans hreturned, hcount, ?_, hact (.drop "c") 0 trivial, hask "d" _ 0 hasks⟩
  · rw [hrefs, howned, hraw]
    rfl
  · rw [(hnames "c").1, howners]
    rfl

end Custody

end ScriptHost
