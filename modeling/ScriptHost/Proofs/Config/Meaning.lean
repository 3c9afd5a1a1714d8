/-
What a document means, apart from the order in which it is read: an assignment of values to fields. A member with
a known name assigns its value, if the field has none yet; one with an unknown name assigns nothing. Main result: a
document that is changed means the same, since members with different names assign in any order, and a field that
holds its default means what an unassigned one does.
-/
import ScriptHost.Proofs.Config.Document

namespace ScriptHost.Config

/-! ## Assignments -/

/-- The values of a field. -/
def Field.Holds : Field → Type
  | .debugger => Option DebuggerSettings
  | .loadstat => Bool
  | .port => UInt16
  | .channel => String
  | .waitSource => Bool
  | .contextReset => Bool

def Field.default : (f : Field) → f.Holds
  | .debugger => (none : Option DebuggerSettings)
  | .loadstat => false
  | .port => (5001 : UInt16)
  | .channel => "websocket"
  | .waitSource => false
  | .contextReset => false

/-- The values of the fields that have one. -/
abbrev Assignment := (f : Field) → Option f.Holds

namespace Assignment

def empty : Assignment := fun _ => none

/-- What a field holds. -/
def get (m : Assignment) (f : Field) : f.Holds := (m f).getD f.default

/-- One more value, and the same for all other fields. -/
def set (m : Assignment) (f : Field) (value : f.Holds) : Assignment := Function.update m f (some value)

/-- One more value, where there is one and the field has none yet. -/
def add? (m : Assignment) (f : Field) (value : Option f.Holds) : Option Assignment :=
  if (m f).isSome then none else value.map (m.set f)

def settings (m : Assignment) : DebuggerSettings :=
  ⟨m.get .port, m.get .channel, m.get .waitSource, m.get .contextReset⟩

def config (m : Assignment) : Config := ⟨m.get .debugger, m.get .loadstat⟩

end Assignment

/-! ## Values of a document -/

/-- The value that a field takes from a scalar, if it is of its kind. -/
def Field.ofScalar? : (f : Field) → Scalar → Option f.Holds
  | .debugger, .null => some (none : Option DebuggerSettings)
  | .loadstat, .bool b => some b
  | .port, .integer n => if 0 ≤ n && n < 65536 then some n.toNat.toUInt16 else none
  | .channel, .text text => some text
  | .waitSource, .bool b => some b
  | .contextReset, .bool b => some b
  | _, _ => none

def Json.scalar? : Json → Option Scalar
  | .null => some .null
  | .bool b => some (.bool b)
  | .number numeral => (readNumber numeral.text).toOption
  | .string pieces => (Piece.string? pieces).map .text
  | .list _ => none
  | .object _ => none

def scalarIn (f : Field) (value : Json) : Option f.Holds := value.scalar?.bind f.ofScalar?

section Objects

variable (value? : (f : Field) → Json → Option f.Holds) (g : Group)

/-- What a member adds to an assignment. -/
def assignMember (m : Assignment) (member : Member) : Option Assignment := do
  let name ← Piece.string? member.1
  match g.field? name with
  | none => some m
  | some f => m.add? f (value? f member.2)

/-- What the members of an object add, from first to last. -/
def assignMembers (members : List Member) (m : Assignment) : Option Assignment :=
  members.foldlM (assignMember value? g) m

end Objects

/-- The items of a list go to the fields in their order, as far as there are items. -/
def assignItems : List Field → List Json → Assignment → Option Assignment
  | _, [], m => some m
  | [], _ :: _, _ => none
  | f :: fields, item :: items, m => (scalarIn f item).bind fun value => assignItems fields items (m.set f value)

/-- The settings of a debugger, from an object or from a list. -/
def debuggerIn? : Json → Option DebuggerSettings
  | .object members => (assignMembers scalarIn .debugger members .empty).map Assignment.settings
  | .list items => (assignItems Group.debugger.fields items .empty).map Assignment.settings
  | _ => none

/-- The value that a field takes from a document. -/
def valueIn : (f : Field) → Json → Option f.Holds
  | .debugger, .object members => (debuggerIn? (.object members)).map some
  | .debugger, .list items => (debuggerIn? (.list items)).map some
  | f, value => scalarIn f value

/-- The configuration that an object with these members means. -/
def meaning? (members : List Member) : Option Config :=
  (assignMembers valueIn .config members .empty).map Assignment.config

/-! ## Laws of assignments -/

namespace Assignment

variable {m : Assignment} {f g : Field}

@[simp] theorem set_self (value : f.Holds) : m.set f value f = some value := Function.update_self ..

theorem set_of_ne (h : g ≠ f) (value : f.Holds) : m.set f value g = m g := Function.update_of_ne h ..

theorem set_comm (h : f ≠ g) (value : f.Holds) (value' : g.Holds) :
    (m.set f value).set g value' = (m.set g value').set f value :=
  Function.update_comm h ..

theorem add?_of_none (h : m f = none) (value : Option f.Holds) : m.add? f value = value.map (m.set f) := by
  simp [add?, h]

/-- No field takes a second value. -/
theorem add?_add?_self (value value' : Option f.Holds) : (m.add? f value).bind (·.add? f value') = none := by
  unfold add?
  split_ifs with h
  · rfl
  · cases value <;> simp

theorem add?_comm (value : Option f.Holds) (value' : Option g.Holds) :
    (m.add? f value).bind (·.add? g value') = (m.add? g value').bind (·.add? f value) := by
  by_cases h : f = g
  · subst h
    rw [add?_add?_self, add?_add?_self]
  · unfold add?
    have hg : ∀ a, (m.set f a) g = m g := set_of_ne (Ne.symm h)
    have hf : ∀ a, (m.set g a) f = m f := set_of_ne h
    cases value <;> cases value' <;> by_cases hfm : (m f).isSome <;> by_cases hgm : (m g).isSome <;>
      simp [hfm, hgm, hf, hg, set_comm h]

theorem of_add?_eq_some {m' : Assignment} {value : Option f.Holds} (h : m.add? f value = some m') :
    m f = none ∧ ∃ a, value = some a ∧ m' = m.set f a := by
  unfold add? at h
  split_ifs at h with hsome
  obtain ⟨a, rfl, rfl⟩ := Option.map_eq_some_iff.1 h
  exact ⟨by simpa using hsome, a, rfl, rfl⟩

/-- A default that is assigned is what the field held already. -/
theorem get_set_default (h : m f = none) (other : Field) : (m.set f f.default).get other = m.get other := by
  unfold get
  by_cases he : other = f
  · subst he
    rw [set_self, h]
    rfl
  · rw [set_of_ne he]

theorem settings_set_default (h : m f = none) : (m.set f f.default).settings = m.settings := by
  simp only [settings, get_set_default h]

theorem config_set_default (h : m f = none) : (m.set f f.default).config = m.config := by
  simp only [config, get_set_default h]

end Assignment

/-! ## Members in any order -/

theorem Group.field?_eq_none {g : Group} {name : String} (h : ∀ f ∈ g.fields, f.name ≠ name) : g.field? name = none :=
  List.find?_eq_none.2 (by simpa using h)

theorem Group.field?_name {g : Group} {f : Field} (h : f ∈ g.fields) : g.field? f.name = some f := by
  cases g <;> cases f <;> first | rfl | exact absurd h (by decide)

section Members

variable {value? : (f : Field) → Json → Option f.Holds} {g : Group} {m m' : Assignment}

theorem assignMember_unknown {member : Member} {name : String} (hkey : Piece.string? member.1 = some name)
    (hname : g.field? name = none) : assignMember value? g m member = some m := by
  simp [assignMember, hkey, hname]

theorem assignMember_known {member : Member} {name : String} {f : Field} (hkey : Piece.string? member.1 = some name)
    (hname : g.field? name = some f) : assignMember value? g m member = m.add? f (value? f member.2) := by
  simp [assignMember, hkey, hname]

/-- A member has no name, or an unknown one, or it assigns to a field. -/
theorem assignMember_cases (value? : (f : Field) → Json → Option f.Holds) (g : Group) (member : Member) :
    (∀ m, assignMember value? g m member = none) ∨ (∀ m, assignMember value? g m member = some m) ∨
    ∃ f value, ∀ m, assignMember value? g m member = m.add? f value := by
  cases hkey : Piece.string? member.1 with
  | none => exact .inl fun m => by simp [assignMember, hkey]
  | some name =>
    cases hname : g.field? name with
    | none => exact .inr (.inl fun m => assignMember_unknown hkey hname)
    | some f => exact .inr (.inr ⟨f, value? f member.2, fun m => assignMember_known hkey hname⟩)

/-- Two members assign in any order. -/
theorem assignMember_comm (x y : Member) (m : Assignment) :
    (assignMember value? g m x).bind (assignMember value? g · y) =
      (assignMember value? g m y).bind (assignMember value? g · x) := by
  rcases assignMember_cases value? g x with hx | hx | ⟨f, a, hx⟩ <;>
    rcases assignMember_cases value? g y with hy | hy | ⟨f', a', hy⟩
  all_goals simp only [hx, hy, Option.bind_none, Option.bind_some, Option.bind_fun_none, Option.bind_fun_some]
  exact Assignment.add?_comm a a'

theorem assignMembers_cons (member : Member) (members : List Member) (m : Assignment) :
    assignMembers value? g (member :: members) m =
      (assignMember value? g m member).bind (assignMembers value? g members) :=
  List.foldlM_cons

theorem assignMembers_append (members members' : List Member) (m : Assignment) :
    assignMembers value? g (members ++ members') m =
      (assignMembers value? g members m).bind (assignMembers value? g members') :=
  List.foldlM_append

theorem assignMembers_perm {members members' : List Member} (h : members.Perm members') (m : Assignment) :
    assignMembers value? g members m = assignMembers value? g members' m := by
  induction h generalizing m with
  | nil => rfl
  | cons member _ ih =>
    rw [assignMembers_cons, assignMembers_cons, funext ih]
  | swap x y members =>
    simp only [assignMembers_cons]
    rw [← Option.bind_assoc, ← Option.bind_assoc, assignMember_comm]
  | trans _ _ ih ih' => exact (ih m).trans (ih' m)

/-- Members that assign behind a value assign without it, and not to its field. -/
theorem assignMembers_of_set {f : Field} {value : f.Holds} {members : List Member} (hf : m f = none)
    (h : assignMembers value? g members (m.set f value) = some m') :
    ∃ m₁, assignMembers value? g members m = some m₁ ∧ m₁ f = none ∧ m' = m₁.set f value := by
  induction members generalizing m with
  | nil =>
    cases h
    exact ⟨m, rfl, hf, rfl⟩
  | cons member members ih =>
    rw [assignMembers_cons] at h
    obtain ⟨m₂, hmember, hmembers⟩ := Option.bind_eq_some_iff.1 h
    simp only [assignMembers_cons]
    rcases assignMember_cases value? g member with hcase | hcase | ⟨f', a, hcase⟩
    · rw [hcase] at hmember
      cases hmember
    · rw [hcase] at hmember ⊢
      cases hmember
      exact ih hf hmembers
    · rw [hcase] at hmember ⊢
      obtain ⟨hfree, b, rfl, rfl⟩ := Assignment.of_add?_eq_some hmember
      -- the member assigns to another field, so the two assignments can change places
      have hne : f' ≠ f := by
        rintro rfl
        rw [Assignment.set_self] at hfree
        cases hfree
      rw [Assignment.set_of_ne hne] at hfree
      rw [Assignment.set_comm hne.symm] at hmembers
      rw [Assignment.add?_of_none hfree]
      exact ih ((Assignment.set_of_ne hne.symm b).trans hf) hmembers

/-! ## Changed members -/

/-- Behind a change of members nothing holds another value. -/
theorem Change.assignMembers {members members' : List Member} (hc : Change g members members')
    (hdefault : ∀ f value, IsDefault f value → value? f value = some f.default)
    (h : assignMembers value? g members .empty = some m) :
    ∃ m', assignMembers value? g members' .empty = some m' ∧ m'.settings = m.settings ∧ m'.config = m.config := by
  cases hc with
  | permute hperm => exact ⟨m, (assignMembers_perm hperm _) ▸ h, rfl, rfl⟩
  | insert hkey hname =>
    refine ⟨m, ?_, rfl, rfl⟩
    rw [assignMembers_perm List.perm_middle, assignMembers_cons,
      assignMember_unknown hkey (Group.field?_eq_none hname)]
    exact h
  | @remove before after key f value hkey hf hvalue =>
    -- the member is moved to the front, where it assigns to an empty assignment
    rw [assignMembers_perm List.perm_middle, assignMembers_cons, assignMember_known hkey (Group.field?_name hf),
      Assignment.add?_of_none rfl, hdefault f value hvalue] at h
    obtain ⟨m', hm', hfree, rfl⟩ := assignMembers_of_set rfl h
    exact ⟨m', hm', (Assignment.settings_set_default hfree).symm, (Assignment.config_set_default hfree).symm⟩

end Members

theorem scalarIn_of_isDefault {f : Field} {value : Json} (h : IsDefault f value) :
    scalarIn f value = some f.default := by
  cases h with
  | port hread => simp [scalarIn, Json.scalar?, hread, Except.toOption, Field.ofScalar?, Field.default]
  | channel hread => simp [scalarIn, Json.scalar?, hread, Field.ofScalar?, Field.default]
  | _ => rfl

theorem valueIn_of_isDefault {f : Field} {value : Json} (h : IsDefault f value) :
    valueIn f value = some f.default := by
  rw [← scalarIn_of_isDefault h]
  cases h <;> rfl

/-- What the object of a debugger means stays the same, whatever the configuration. -/
theorem Change.valueIn {inner inner' : List Member} (hc : Change .debugger inner inner') {d : Option DebuggerSettings}
    (h : valueIn .debugger (.object inner) = some d) : valueIn .debugger (.object inner') = some d := by
  obtain ⟨settings, hsettings, rfl⟩ := Option.map_eq_some_iff.1 h
  obtain ⟨m, hm, rfl⟩ := Option.map_eq_some_iff.1 hsettings
  obtain ⟨m', hm', hsame, -⟩ := hc.assignMembers (fun _ _ => scalarIn_of_isDefault) hm
  simp only [Config.valueIn, debuggerIn?, hm', Option.map_some, hsame]
  rfl

/-- A document that is changed means the same. -/
theorem DocumentChange.meaning? {members members' : List Member} (hc : DocumentChange members members') {c : Config}
    (h : meaning? members = some c) : meaning? members' = some c := by
  obtain ⟨m, hm, rfl⟩ := Option.map_eq_some_iff.1 h
  cases hc with
  | top hchange =>
    obtain ⟨m', hm', -, hsame⟩ := hchange.assignMembers (fun _ _ => valueIn_of_isDefault) hm
    simp [Config.meaning?, hm', hsame]
  | debugger hkey hinner =>
    rw [assignMembers_append, Option.bind_eq_some_iff] at hm
    -- the members before the debugger, the debugger itself, and those behind it
    obtain ⟨m₁, hbefore, hm⟩ := hm
    rw [assignMembers_cons, Option.bind_eq_some_iff] at hm
    obtain ⟨m₂, hmember, hafter⟩ := hm
    rw [assignMember_known hkey rfl] at hmember
    obtain ⟨hfree, d, hd, rfl⟩ := Assignment.of_add?_eq_some hmember
    rw [Config.meaning?, assignMembers_append, hbefore, Option.bind_some, assignMembers_cons,
      assignMember_known hkey rfl, Assignment.add?_of_none hfree, hinner.valueIn hd]
    exact congrArg _ hafter

end ScriptHost.Config
