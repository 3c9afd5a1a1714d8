/-
Documents, as the grammar of JSON has them and apart from any reader. A document is a tree; its tokens are
written one after the other, and white space may stand in front of each and behind the last. Two documents are
alike when one comes from the other by permuting members, by adding members with unknown names, and by dropping
members that hold their default, in the object of the configuration or in that of its debugger.
-/
import ScriptHost.Config.Reader
import Mathlib.Logic.Relation
import Mathlib.Tactic

namespace ScriptHost.Config

open StringState

/-! ## Strings and numbers -/

/-- A character that stands for itself in a string. -/
structure Unescaped (c : Char) : Prop where
  quote : c ≠ '"'
  backslash : c ≠ '\\'
  control : ¬ c.toNat < 0x20

instance : DecidablePred Unescaped := fun c =>
  decidable_of_iff (c ≠ '"' ∧ c ≠ '\\' ∧ ¬ c.toNat < 0x20)
    ⟨fun h => ⟨h.1, h.2.1, h.2.2⟩, fun h => ⟨h.quote, h.backslash, h.control⟩⟩

/-- A text that stands for itself. -/
def Bare (text : List Char) : Prop := ∀ c ∈ text, Unescaped c

instance : DecidablePred Bare := fun text => text.decidableBAll Unescaped

/-- A piece of a string: a character, a letter behind a backslash with what it means, or the four digits of a
code unit. -/
inductive Piece where
  | plain (c : Char) (h : Unescaped c)
  | letter (c meaning : Char) (h : escapedChar? c = some meaning)
  | unit (digits : List Char) (value : Nat) (h : unit? digits = some value)

namespace Piece

def text : Piece → List Char
  | .plain c _ => [c]
  | .letter c _ _ => ['\\', c]
  | .unit digits _ _ => '\\' :: 'u' :: digits

/-- The characters that pieces stand for, behind a high surrogate if there is one. A code unit that is a
surrogate counts with its partner only. -/
def decode : Option Nat → List Piece → Option (List Char)
  | none, [] => some []
  | none, .plain c _ :: rest => (decode none rest).map (c :: ·)
  | none, .letter _ meaning _ :: rest => (decode none rest).map (meaning :: ·)
  | none, .unit _ value _ :: rest =>
    if isLow value then none
    else if isHigh value then decode (some value) rest
    else (decode none rest).map (Char.ofNat value :: ·)
  | some high, .unit _ value _ :: rest =>
    if isLow value then
      (decode none rest).map (Char.ofNat (0x10000 + (high - 0xD800) * 0x400 + (value - 0xDC00)) :: ·)
    else none
  | some _, _ => none

/-- What a string says, if it is the string of a text. -/
def string? (pieces : List Piece) : Option String := (decode none pieces).map String.ofList

/-- A string between its quotes. -/
def quoted (pieces : List Piece) : List Char := '"' :: (pieces.flatMap text ++ ['"'])

/-- A string that needs no escapes. -/
def plains (text : String) (h : Bare text.toList) : List Piece := text.toList.pmap plain h

theorem decode_pmap_plain : ∀ {text : List Char} (h : ∀ c ∈ text, Unescaped c),
    decode none (text.pmap plain h) = some text
  | [], _ => rfl
  | c :: text, h => by
    rw [List.pmap_cons, decode, decode_pmap_plain]
    rfl

theorem string?_plains {text : String} (h : Bare text.toList) : string? (plains text h) = some text := by
  have hdecode : decode none (plains text h) = some text.toList := decode_pmap_plain h
  rw [string?, hdecode, Option.map_some, String.ofList_toList]

end Piece

def IsDigits (text : List Char) : Prop := text ≠ [] ∧ ∀ c ∈ text, c.isDigit = true

instance : DecidablePred IsDigits := fun text =>
  @instDecidableAnd _ _ inferInstance (text.decidableBAll fun c => c.isDigit = true)

/-- A zero alone, or digits that do not begin with one. -/
def IsWhole (text : List Char) : Prop :=
  text = ['0'] ∨ IsDigits text ∧ text.head? ≠ some '0'

instance : DecidablePred IsWhole := fun text =>
  inferInstanceAs (Decidable (text = ['0'] ∨ IsDigits text ∧ text.head? ≠ some '0'))

def IsFraction (text : List Char) : Prop := text = [] ∨ ∃ digits, IsDigits digits ∧ text = '.' :: digits

def IsExponent (text : List Char) : Prop :=
  text = [] ∨ ∃ mark sign digits, (mark = 'e' ∨ mark = 'E') ∧ (sign = [] ∨ sign = ['+'] ∨ sign = ['-']) ∧
    IsDigits digits ∧ text = mark :: (sign ++ digits)

/-- A number as it is written. -/
structure Numeral where
  sign : List Char
  whole : List Char
  fraction : List Char
  exponent : List Char
  isSign : sign = [] ∨ sign = ['-']
  isWhole : IsWhole whole
  isFraction : IsFraction fraction
  isExponent : IsExponent exponent

def Numeral.text (n : Numeral) : List Char := n.sign ++ n.whole ++ n.fraction ++ n.exponent

/-- A natural number. -/
def Numeral.ofWhole (whole : List Char) (h : IsWhole whole) : Numeral :=
  ⟨[], whole, [], [], .inl rfl, h, .inl rfl, .inl rfl⟩

/-! ## Trees and tokens -/

/-- A value of a document. -/
inductive Json where
  | null
  | bool (value : Bool)
  | number (numeral : Numeral)
  | string (pieces : List Piece)
  | list (items : List Json)
  | object (members : List (List Piece × Json))

/-- A key and its value. -/
abbrev Member := List Piece × Json

mutual

/-- What is written for a value, token for token. -/
def Json.tokens : Json → List (List Char)
  | .null => ["null".toList]
  | .bool value => [(toString value).toList]
  | .number numeral => [numeral.text]
  | .string pieces => [Piece.quoted pieces]
  | .list [] => [['['], [']']]
  | .list (item :: items) => ['['] :: (item.tokens ++ itemTokens items)
  | .object [] => [['\x7b'], ['\x7d']]
  | .object ((key, value) :: members) =>
    ['\x7b'] :: Piece.quoted key :: [':'] :: (value.tokens ++ memberTokens members)

/-- Further items up to the end of a list. -/
def itemTokens : List Json → List (List Char)
  | [] => [[']']]
  | item :: items => [','] :: (item.tokens ++ itemTokens items)

/-- Further members up to the end of an object. -/
def memberTokens : List (List Piece × Json) → List (List Char)
  | [] => [['\x7d']]
  | (key, value) :: members => [','] :: Piece.quoted key :: [':'] :: (value.tokens ++ memberTokens members)

end

/-! ## Texts -/

def IsBlank (text : List Char) : Prop := ∀ c ∈ text, Reader.isSpace c = true

instance : DecidablePred IsBlank := fun text => text.decidableBAll fun c => Reader.isSpace c = true

/-- The tokens one after the other, with white space in front of each. -/
inductive Layout : List (List Char) → List Char → Prop
  | nil : Layout [] []
  | cons {blank token text : List Char} {tokens : List (List Char)} : IsBlank blank → Layout tokens text →
      Layout (token :: tokens) (blank ++ (token ++ text))

/-- White space and tokens by turns. -/
theorem Layout.of_blanks : ∀ (blanks tokens : List (List Char)), blanks.length = tokens.length →
    (∀ blank ∈ blanks, IsBlank blank) → Layout tokens (List.zipWith (· ++ ·) blanks tokens).flatten
  | [], [], _, _ => .nil
  | blank :: blanks, token :: tokens, hlength, hblanks => by
    obtain ⟨hblank, hrest⟩ := List.forall_mem_cons.1 hblanks
    have htext := Layout.of_blanks blanks tokens (Nat.succ_inj.1 hlength) hrest
    rw [List.zipWith_cons_cons, List.flatten_cons, List.append_assoc]
    exact .cons hblank htext

/-- The text of an object with these members. -/
def Written (members : List Member) (text : List Char) : Prop :=
  ∃ front blank, Layout (Json.object members).tokens front ∧ IsBlank blank ∧ text = front ++ blank

/-! ## Changes -/

/-- What a field holds where nothing is said of it. -/
inductive IsDefault : Field → Json → Prop
  | debugger : IsDefault .debugger .null
  | loadstat : IsDefault .loadstat (.bool false)
  | port {numeral : Numeral} : readNumber numeral.text = .ok (.integer 5001) → IsDefault .port (.number numeral)
  | channel {pieces : List Piece} : Piece.string? pieces = some "websocket" → IsDefault .channel (.string pieces)
  | waitSource : IsDefault .waitSource (.bool false)
  | contextReset : IsDefault .contextReset (.bool false)

/-- One change of the members of an object that has the fields of a group. Where a member is inserted, its value
may be any. -/
inductive Change (g : Group) : List Member → List Member → Prop
  | permute {members members' : List Member} : members.Perm members' → Change g members members'
  | insert {before after : List Member} {key : List Piece} {name : String} {value : Json} :
      Piece.string? key = some name → (∀ f ∈ g.fields, f.name ≠ name) →
      Change g (before ++ after) (before ++ (key, value) :: after)
  | remove {before after : List Member} {key : List Piece} {f : Field} {value : Json} :
      Piece.string? key = some f.name → f ∈ g.fields → IsDefault f value →
      Change g (before ++ (key, value) :: after) (before ++ after)

/-- One change of a document, at the top or inside the object of the debugger. -/
inductive DocumentChange : List Member → List Member → Prop
  | top {members members' : List Member} : Change .config members members' → DocumentChange members members'
  | debugger {before after inner inner' : List Member} {key : List Piece} :
      Piece.string? key = some Field.debugger.name → Change .debugger inner inner' →
      DocumentChange (before ++ (key, .object inner) :: after) (before ++ (key, .object inner') :: after)

end ScriptHost.Config
