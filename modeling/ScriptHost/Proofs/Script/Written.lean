/-
The written form of a script. An expression that is a word is that word, a path its names with dots between
them, a call its callee with the written arguments in brackets; a string stands in quotes that it does not
contain, a number is any numeral for it. Statements stand on lines of their own or behind semicolons.
-/
import ScriptHost.Proofs.Script.Cut
import Mathlib.Tactic

namespace ScriptHost.Script

/-! ## Paths -/

/-- Identifiers, one at least. -/
structure IsPath (names : List String) : Prop where
  ne_nil : names ≠ []
  isName : ∀ name ∈ names, isName name.toList = true

/-- The names with dots between them. -/
def pathText (names : List String) : List Char := ['.'].intercalate (names.map String.toList)

/-- A path that is a value is no word for another value. -/
structure IsValuePath (names : List String) : Prop extends IsPath names where
  not_word : ∀ word ∈ ["undefined", "true", "false"], names ≠ [word]

/-- The paths that are words at the front of a statement. -/
def IsKeyword (names : List String) : Prop := names = ["return"] ∨ names = ["throw"]

instance (names : List String) : Decidable (IsPath names) :=
  decidable_of_iff (names ≠ [] ∧ ∀ name ∈ names, isName name.toList = true)
    ⟨fun h => ⟨h.1, h.2⟩, fun h => ⟨h.ne_nil, h.isName⟩⟩

instance (names : List String) : Decidable (IsValuePath names) :=
  decidable_of_iff (IsPath names ∧ ∀ word ∈ ["undefined", "true", "false"], names ≠ [word])
    ⟨fun h => ⟨h.1, h.2⟩, fun h => ⟨h.toIsPath, h.not_word⟩⟩

instance (names : List String) : Decidable (IsKeyword names) :=
  inferInstanceAs (Decidable (_ ∨ _))

/-! ## Expressions -/

/-- A string in double quotes, or in single ones where it has double ones itself. A string with both has
no written form. -/
def quote? (text : String) : Option (List Char) :=
  if '"' ∉ text.toList then some ('"' :: (text.toList ++ ['"']))
  else if '\'' ∉ text.toList then some ('\'' :: (text.toList ++ ['\'']))
  else none

/-- Whether the reader of scripts expects a number. -/
def startsNumber (text : List Char) : Bool := text.head?.any fun c => c.isDigit || c = '-'

/-- A text with another one in brackets behind it. -/
def enclose (front inner : List Char) : List Char := front ++ '(' :: (inner ++ [')'])

/-- The texts that an expression is written as. -/
inductive Expr.Written : Expr → List Char → Prop
  | undefined : Written .undefined "undefined".toList
  | bool (value : Bool) : Written (.bool value) (toString value).toList
  | object : Written .object "\x7b\x7d".toList
  | number {value : Float} {text : List Char} : startsNumber text = true → Decimal.read? text = some value →
      Written (.number value) text
  | text {value : String} {text : List Char} : quote? value = some text → Written (.text value) text
  | error {message : String} {text : List Char} : quote? message = some text →
      Written (.error ("Error: " ++ message)) (enclose "new Error".toList text)
  | path {names : List String} : IsValuePath names → Written (.path names) (pathText names)
  /-- The arguments come with their texts. -/
  | call {callee : List String} {args : List (Expr × List Char)} : IsPath callee →
      (∀ arg ∈ args, Written arg.1 arg.2) → Written (.call callee (args.map (·.1)))
        (enclose (pathText callee) ([',', ' '].intercalate (args.map (·.2))))

/-! ## Statements and programs -/

/-- The texts that a statement is written as. -/
inductive Statement.Written : Statement → List Char → Prop
  | assign {target : List String} {value : Expr} {text : List Char} : IsPath target → ¬ IsKeyword target →
      value.Written text → Written (.assign target value) (pathText target ++ ' ' :: '=' :: ' ' :: text)
  | throw {value : Expr} {text : List Char} : value.Written text →
      Written (.throw value) ("throw".toList ++ ' ' :: text)
  | returnValue {value : Expr} {text : List Char} : value.Written text →
      Written (.return (some value)) ("return".toList ++ ' ' :: text)
  | returnNone : Written (.return none) "return".toList
  | expr {value : Expr} {text : List Char} : (∀ names, value = .path names → ¬ IsKeyword names) →
      value.Written text → Written (.expr value) text

/-- The texts that a program is written as. -/
inductive Program.Written : List Statement → List Char → Prop
  | nil : Written [] []
  | single {statement : Statement} {text : List Char} : statement.Written text → Written [statement] text
  | cons {statement next : Statement} {statements : List Statement} {separator : Char} {text rest : List Char} :
      separator = '\n' ∨ separator = ';' → statement.Written text → Written (next :: statements) rest →
      Written (statement :: next :: statements) (text ++ separator :: rest)

/-! ## Paths are plain -/

theorem inName_of_startsName {c : Char} (h : startsName c = true) : inName c = true := by
  simp only [startsName, Bool.or_eq_true, decide_eq_true_eq] at h
  rcases h with (h | rfl) | rfl
  · simp [inName, Char.isAlphanum, h]
  · rfl
  · rfl

theorem inName_of_mem {name : List Char} (h : isName name = true) : ∀ c ∈ name, inName c = true := by
  cases name with
  | nil => cases h
  | cons c rest =>
    simp only [isName, Bool.and_eq_true, List.all_eq_true] at h
    exact List.forall_mem_cons.2 ⟨inName_of_startsName h.1, h.2⟩

theorem pathText_singleton (name : String) : pathText [name] = name.toList :=
  List.intercalate_singleton

theorem pathText_cons_cons (name next : String) (names : List String) :
    pathText (name :: next :: names) = name.toList ++ '.' :: pathText (next :: names) := by
  simp [pathText, List.intercalate_cons_cons]

theorem isPlain_of_mem_pathText : ∀ {names : List String}, (∀ name ∈ names, isName name.toList = true) →
    ∀ c ∈ pathText names, isPlain c = true
  | [], _ => fun _ hc => absurd hc List.not_mem_nil
  | [name], h => by
    rw [pathText_singleton]
    exact fun c hc => isPlain_of_inName (inName_of_mem (h name List.mem_cons_self) c hc)
  | name :: next :: names, h => by
    obtain ⟨hname, hnames⟩ := List.forall_mem_cons.1 h
    rw [pathText_cons_cons, List.forall_mem_append, List.forall_mem_cons]
    exact ⟨fun c hc => isPlain_of_inName (inName_of_mem hname c hc), rfl, isPlain_of_mem_pathText hnames⟩

namespace IsPath

variable {names : List String}

theorem isPlain (h : IsPath names) : ∀ c ∈ pathText names, isPlain c = true :=
  isPlain_of_mem_pathText h.isName

/-- A path begins as its first name does. -/
theorem startsName (h : IsPath names) : ∃ c rest, pathText names = c :: rest ∧ startsName c = true := by
  obtain ⟨hne, hnames⟩ := h
  obtain ⟨name, names, rfl⟩ := List.exists_cons_of_ne_nil hne
  obtain ⟨hname, -⟩ := List.forall_mem_cons.1 hnames
  obtain ⟨rest, htext⟩ : ∃ rest, pathText (name :: names) = name.toList ++ rest := by
    cases names with
    | nil => exact ⟨[], by rw [pathText_singleton, List.append_nil]⟩
    | cons next names => exact ⟨_, pathText_cons_cons name next names⟩
  cases hchars : name.toList with
  | nil => rw [hchars] at hname; cases hname
  | cons c chars =>
    rw [hchars, Script.isName, Bool.and_eq_true] at hname
    exact ⟨c, chars ++ rest, by rw [htext, hchars, List.cons_append], hname.1⟩

theorem tight (h : IsPath names) : Tight (pathText names) := by
  obtain ⟨c, rest, htext, -⟩ := h.startsName
  exact .of_plain (htext ▸ List.cons_ne_nil c rest) h.isPlain

theorem uncut (h : IsPath names) {separator : Char → Bool} (hsep : Separating separator) {depth : Nat} :
    Uncut separator ⟨none, depth⟩ (pathText names) ⟨none, depth⟩ :=
  .plain hsep h.isPlain

end IsPath

theorem splitOnChar_eq_splitOn (separator : Char) (text : List Char) :
    splitOnChar separator text = text.splitOn separator := by
  induction text with
  | nil => simp [splitOnChar]
  | cons c rest ih =>
    rw [splitOnChar, ih, List.splitOn_cons_eq_if_modifyHead]
    cases hrest : rest.splitOn separator with
    | nil => exact absurd hrest (List.splitOn_ne_nil _ _)
    | cons first more => simp [beq_iff_eq]

/-- A path is read back from its text. -/
theorem pathOf?_pathText {names : List String} (h : IsPath names) : pathOf? (pathText names) = some names := by
  have hdot : ∀ part ∈ names.map String.toList, '.' ∉ part := by
    rintro _ hpart hmem
    obtain ⟨name, hname, rfl⟩ := List.mem_map.1 hpart
    exact Bool.false_ne_true (inName_of_mem (h.isName name hname) '.' hmem)
  have hsplit : splitOnChar '.' (pathText names) = names.map String.toList := by
    rw [splitOnChar_eq_splitOn, pathText, List.splitOn_intercalate '.' hdot (by simpa using h.ne_nil)]
  have hall : (names.map String.toList).all isName = true := by
    simpa using h.isName
  simp [pathOf?, hsplit, hall]

/-- A text that is read as another path, or as none, is not the text of a path. -/
theorem pathText_ne {names : List String} (h : IsPath names) {text : List Char} (ht : pathOf? text ≠ some names) :
    pathText names ≠ text := by
  rintro rfl
  exact ht (pathOf?_pathText h)

/-! ## Written expressions are read as wholes -/

theorem quote?_eq_some {value : String} {text : List Char} (h : quote? value = some text) :
    ∃ q, Scan.isQuote q = true ∧ q ∉ value.toList ∧ text = q :: (value.toList ++ [q]) := by
  unfold quote? at h
  split at h
  next hmem => exact ⟨'"', rfl, hmem, (Option.some.inj h).symm⟩
  next =>
    split at h
    next hmem => exact ⟨'\'', rfl, hmem, (Option.some.inj h).symm⟩
    next => cases h

theorem isBlank_of_isQuote {q : Char} (h : Scan.isQuote q = true) : Text.isBlank q = false := by
  simp only [Scan.isQuote, Bool.or_eq_true, decide_eq_true_eq] at h
  rcases h with rfl | rfl <;> rfl

/-- Below the top level nothing cuts, and neither do the commas between arguments. -/
theorem Uncut.arguments {separator : Char → Bool} {depth : Nat} : ∀ {args : List (List Char)},
    (∀ arg ∈ args, Uncut separator ⟨none, depth + 1⟩ arg ⟨none, depth + 1⟩) →
    Uncut separator ⟨none, depth + 1⟩ ([',', ' '].intercalate args) ⟨none, depth + 1⟩
  | [], _ => .nil
  | [arg], h => by
    rw [List.intercalate_singleton]
    exact h arg List.mem_cons_self
  | arg :: next :: args, h => by
    obtain ⟨harg, hargs⟩ := List.forall_mem_cons.1 h
    rw [List.intercalate_cons_cons]
    exact (harg.append (.cons rfl rfl (.cons rfl rfl .nil))).append (Uncut.arguments hargs)

theorem Uncut.enclose {separator : Char → Bool} {depth : Nat} {front inner : List Char}
    (hfront : Uncut separator ⟨none, depth⟩ front ⟨none, depth⟩)
    (hinner : Uncut separator ⟨none, depth + 1⟩ inner ⟨none, depth + 1⟩) :
    Uncut separator ⟨none, depth⟩ (enclose front inner) ⟨none, depth⟩ :=
  hfront.append (.bracketed rfl rfl hinner)

theorem Tight.enclose {front : List Char} (h : Tight front) (inner : List Char) : Tight (enclose front inner) :=
  h.append_concat rfl ('(' :: inner)

theorem isPlain_of_read? {text : List Char} {x : Float} (h : Decimal.read? text = some x) :
    ∀ c ∈ text, isPlain c = true := by
  intro c hc
  simp [isPlain, Decimal.inNumeral_of_read? h c hc]

namespace Expr.Written

variable {e : Expr} {text : List Char}

theorem tight (h : e.Written text) : Tight text := by
  cases h with
  | undefined => exact .of_plain (by decide) (List.all_eq_true.1 rfl)
  | bool value => cases value <;> exact .of_plain (by decide) (List.all_eq_true.1 rfl)
  | object => exact .of_cons_concat rfl rfl []
  | number hstart hread =>
    refine .of_plain ?_ (isPlain_of_read? hread)
    rintro rfl
    cases hstart
  | text hquote =>
    obtain ⟨q, hq, -, rfl⟩ := quote?_eq_some hquote
    exact .of_cons_concat (isBlank_of_isQuote hq) (isBlank_of_isQuote hq) _
  | error =>
    -- the blank inside is between two words, not at an end
    have hnew : Tight "new".toList := .of_plain (by decide) (List.all_eq_true.1 rfl)
    have herror : Tight "Error".toList := .of_plain (by decide) (List.all_eq_true.1 rfl)
    exact (hnew.append herror [' ']).enclose _
  | path hpath => exact hpath.tight
  | call hcallee => exact hcallee.tight.enclose _

theorem uncut (h : e.Written text) {separator : Char → Bool} (hsep : Separating separator) {depth : Nat} :
    Uncut separator ⟨none, depth⟩ text ⟨none, depth⟩ := by
  -- the arguments of a call stand one level below it, so every level is needed
  induction h generalizing depth with
  | undefined => exact .plain hsep (List.all_eq_true.1 rfl)
  | bool value => cases value <;> exact .plain hsep (List.all_eq_true.1 rfl)
  | object => exact .bracketed rfl rfl .nil
  | number hstart hread => exact .plain hsep (isPlain_of_read? hread)
  | text hquote =>
    obtain ⟨q, hq, hmem, rfl⟩ := quote?_eq_some hquote
    exact .quoted hq hmem
  | error hquote =>
    obtain ⟨q, hq, hmem, rfl⟩ := quote?_eq_some hquote
    have hnew : Uncut separator ⟨none, depth⟩ "new".toList ⟨none, depth⟩ := .plain hsep (List.all_eq_true.1 rfl)
    have herror : Uncut separator ⟨none, depth⟩ "Error".toList ⟨none, depth⟩ := .plain hsep (List.all_eq_true.1 rfl)
    exact (hnew.append ((Uncut.blank hsep).append herror)).enclose (.quoted hq hmem)
  | path hpath => exact hpath.uncut hsep
  | call hcallee _ ih =>
    refine (hcallee.uncut hsep).enclose (.arguments fun text htext => ?_)
    obtain ⟨arg, harg, rfl⟩ := List.mem_map.1 htext
    exact ih arg harg

/-- A written expression is plain, or plain up to a quote, a bracket or the blank behind `new`. -/
theorem front (h : e.Written text) : (∀ c ∈ text, isPlain c = true) ∨
    ∃ front c rest, text = front ++ c :: rest ∧ (∀ d ∈ front, isPlain d = true) ∧
      (isStructural c = true ∨ c = ' ' ∧ front = "new".toList) := by
  cases h with
  | undefined => exact .inl (List.all_eq_true.1 rfl)
  | bool value => cases value <;> exact .inl (List.all_eq_true.1 rfl)
  | object => exact .inr ⟨[], _, _, rfl, List.all_eq_true.1 rfl, .inl rfl⟩
  | number _ hread => exact .inl (isPlain_of_read? hread)
  | text hquote =>
    obtain ⟨q, hq, -, rfl⟩ := quote?_eq_some hquote
    exact .inr ⟨[], q, _, rfl, List.all_eq_true.1 rfl, .inl (by simp [isStructural, hq])⟩
  | error => exact .inr ⟨"new".toList, ' ', _, rfl, List.all_eq_true.1 rfl, .inr ⟨rfl, rfl⟩⟩
  | path hpath => exact .inl hpath.isPlain
  | call hcallee => exact .inr ⟨_, '(', _, rfl, hcallee.isPlain, .inl rfl⟩

end Expr.Written

end ScriptHost.Script
