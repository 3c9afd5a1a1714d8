/-
What cutting and trimming leave whole. A text that begins and ends with characters that are no blanks is
not trimmed. A scan goes through a text without a cut where no separator stands at the top level: through
plain characters, through anything in quotes, and through a bracketed text whose inside it goes through one
level below.
-/
import ScriptHost.Script.Parser
import ScriptHost.Proofs.Decimal.Numeral
import Mathlib.Tactic

namespace ScriptHost.Script

open ScriptHost.Text

/-! ## Trimming -/

/-- A text whose ends are no blanks. -/
structure Tight (text : List Char) : Prop where
  first : ∃ c rest, text = c :: rest ∧ isBlank c = false
  last : ∃ front c, text = front ++ [c] ∧ isBlank c = false

theorem trimEnd_cons (c : Char) (text : List Char) : trimEnd (c :: text) =
    if (trimEnd text).isEmpty && isBlank c then [] else c :: trimEnd text := rfl

theorem trimEnd_concat_of_blank {c : Char} (h : isBlank c = true) (text : List Char) :
    trimEnd (text ++ [c]) = trimEnd text := by
  simp [trimEnd, h]

theorem trimEnd_concat {c : Char} (h : isBlank c = false) (text : List Char) :
    trimEnd (text ++ [c]) = text ++ [c] := by
  induction text with
  | nil => simp [trimEnd, h]
  | cons d text ih => simp [trimEnd_cons, ih]

theorem trim_cons_of_blank {c : Char} (h : isBlank c = true) (text : List Char) :
    trim (c :: text) = trim text := by
  simp [trim, h]

namespace Tight

variable {text text' : List Char}

theorem ne_nil (h : Tight text) : text ≠ [] := by
  obtain ⟨c, rest, rfl, -⟩ := h.first
  exact List.cons_ne_nil c rest

theorem dropWhile_append (h : Tight text) (rest : List Char) :
    (text ++ rest).dropWhile isBlank = text ++ rest := by
  obtain ⟨c, more, rfl, hc⟩ := h.first
  simp [hc]

theorem trimEnd_eq (h : Tight text) : trimEnd text = text := by
  obtain ⟨front, c, rfl, hc⟩ := h.last
  exact trimEnd_concat hc front

theorem trim_eq (h : Tight text) : trim text = text := by
  have hdrop := h.dropWhile_append []
  rw [List.append_nil] at hdrop
  rw [trim, hdrop, h.trimEnd_eq]

/-- A blank behind the text is trimmed away. -/
theorem trim_concat {c : Char} (h : Tight text) (hc : isBlank c = true) : trim (text ++ [c]) = text := by
  rw [trim, h.dropWhile_append, trimEnd_concat_of_blank hc, h.trimEnd_eq]

theorem of_cons_concat {c d : Char} (hc : isBlank c = false) (hd : isBlank d = false) (text : List Char) :
    Tight (c :: (text ++ [d])) :=
  ⟨⟨c, text ++ [d], rfl, hc⟩, c :: text, d, rfl, hd⟩

theorem append (h : Tight text) (h' : Tight text') (middle : List Char) : Tight (text ++ middle ++ text') := by
  obtain ⟨c, rest, rfl, hc⟩ := h.first
  obtain ⟨front, d, rfl, hd⟩ := h'.last
  exact ⟨⟨c, rest ++ middle ++ (front ++ [d]), rfl, hc⟩, (c :: rest) ++ middle ++ front, d, by simp, hd⟩

theorem append_concat {c : Char} (h : Tight text) (hc : isBlank c = false) (middle : List Char) :
    Tight (text ++ (middle ++ [c])) := by
  rw [← List.append_assoc]
  exact h.append ⟨⟨c, [], rfl, hc⟩, [], c, rfl, hc⟩ middle

end Tight

/-! ## Plain characters -/

/-- The characters of names, paths and numerals. -/
def isPlain (c : Char) : Bool := c = '_' || c = '$' || Decimal.inNumeral c

theorem isPlain_of_inName {c : Char} (h : inName c = true) : isPlain c = true := by
  simp only [inName, Bool.or_eq_true, decide_eq_true_eq] at h
  rcases h with (h | rfl) | rfl
  · simp [isPlain, Decimal.inNumeral, h]
  · rfl
  · rfl

/-- Plain characters are printed ones of ASCII. -/
theorem bounds_of_isPlain {c : Char} (h : isPlain c = true) : 0x20 < c.toNat ∧ c.toNat < 0x7F := by
  simp only [isPlain, Decimal.inNumeral, Char.isAlphanum, Char.isAlpha, Char.isUpper, Char.isLower, Char.isDigit,
    Bool.or_eq_true, Bool.and_eq_true, decide_eq_true_eq, UInt32.le_iff_toNat_le, ge_iff_le] at h
  change (c = '_' ∨ c = '$') ∨ (((((65 ≤ c.toNat ∧ c.toNat ≤ 90) ∨ (97 ≤ c.toNat ∧ c.toNat ≤ 122)) ∨
    (48 ≤ c.toNat ∧ c.toNat ≤ 57)) ∨ c = '.') ∨ c = '+') ∨ c = '-' at h
  rcases h with (rfl | rfl) | ((((h | h) | h) | rfl) | rfl) | rfl
  any_goals omega
  all_goals decide

theorem isBlank_of_isPlain {c : Char} (h : isPlain c = true) : isBlank c = false := by
  have := bounds_of_isPlain h
  rw [← Bool.not_eq_true]
  intro hb
  simp only [isBlank, Bool.or_eq_true, Bool.and_eq_true, decide_eq_true_eq, beq_iff_eq] at hb
  omega

theorem Tight.of_plain {text : List Char} (hne : text ≠ []) (h : ∀ c ∈ text, isPlain c = true) : Tight text := by
  refine ⟨?_, ?_⟩
  · cases text with
    | nil => exact absurd rfl hne
    | cons c rest => exact ⟨c, rest, rfl, isBlank_of_isPlain (h c List.mem_cons_self)⟩
  · exact ⟨text.dropLast, text.getLast hne, (List.dropLast_append_getLast hne).symm,
      isBlank_of_isPlain (h _ (List.getLast_mem hne))⟩

/-- Plain characters up to one that is not plain are the same in equal texts. -/
theorem append_cons_inj_of_isPlain {front front' rest rest' : List Char} {c c' : Char}
    (h : ∀ d ∈ front, isPlain d = true) (h' : ∀ d ∈ front', isPlain d = true) (hc : isPlain c = false)
    (hc' : isPlain c' = false) (heq : front ++ c :: rest = front' ++ c' :: rest') :
    front = front' ∧ c = c' ∧ rest = rest' := by
  have hfront : front = front' := by
    have htake := congrArg (List.takeWhile isPlain) heq
    rw [List.takeWhile_append_of_pos h, List.takeWhile_append_of_pos h'] at htake
    simpa [hc, hc'] using htake
  subst hfront
  exact ⟨rfl, List.cons.inj (List.append_cancel_left heq)⟩

/-! ## Cutting -/

/-- The characters that the reader of scripts cuts at. -/
def isSeparator (c : Char) : Bool := c = ',' || c = ';' || c = '\n' || c = '='

/-- The characters that a scan follows. -/
def isStructural (c : Char) : Bool := Scan.isQuote c || Scan.opens c || Scan.closes c

theorem isSeparator_of_isPlain {c : Char} (h : isPlain c = true) : isSeparator c = false := by
  rw [← Bool.not_eq_true]
  intro hs
  simp only [isSeparator, Bool.or_eq_true, decide_eq_true_eq] at hs
  rcases hs with ((rfl | rfl) | rfl) | rfl <;> cases h

theorem isStructural_of_isPlain {c : Char} (h : isPlain c = true) : isStructural c = false := by
  rw [← Bool.not_eq_true]
  intro hs
  simp only [isStructural, Scan.isQuote, Scan.opens, Scan.closes, Bool.or_eq_true, decide_eq_true_eq] at hs
  rcases hs with ((rfl | rfl) | ((rfl | rfl) | rfl)) | ((rfl | rfl) | rfl) <;> cases h

/-- What a reader cuts at is separators. -/
def Separating (separator : Char → Bool) : Prop := ∀ c, separator c = true → isSeparator c = true

theorem Separating.single {c : Char} (h : isSeparator c = true) : Separating (· = c) := by
  intro d hd
  rw [of_decide_eq_true hd, h]

theorem Separating.eq_false {separator : Char → Bool} (h : Separating separator) {c : Char}
    (hc : isSeparator c = false) : separator c = false := by
  rw [← Bool.not_eq_true]
  intro hcut
  exact Bool.false_ne_true (hc.symm.trans (h c hcut))

/-- Whether a scan cuts at a character. -/
def cuts (separator : Char → Bool) (s : Scan) (c : Char) : Bool := s.atTop && separator c && !isStructural c

theorem partsFrom_cons_of_cuts {separator : Char → Bool} {s : Scan} {c : Char} (h : cuts separator s c = true)
    (rest : List Char) : partsFrom separator s (c :: rest) =
      ([], (partsFrom separator s rest).1 :: (partsFrom separator s rest).2) :=
  if_pos h

theorem partsFrom_cons_of_not_cuts {separator : Char → Bool} {s : Scan} {c : Char}
    (h : cuts separator s c = false) (rest : List Char) : partsFrom separator s (c :: rest) =
      (c :: (partsFrom separator (s.step c) rest).1, (partsFrom separator (s.step c) rest).2) :=
  if_neg (ne_true_of_eq_false h)

theorem Scan.eq_start_of_atTop {s : Scan} (h : s.atTop = true) : s = start := by
  obtain ⟨quote, depth⟩ := s
  simp only [atTop, Bool.and_eq_true, Option.isNone_iff_eq_none, decide_eq_true_eq] at h
  rw [h.1, h.2]
  rfl

/-- A scan cuts only at the top level. -/
theorem Scan.eq_start_of_cuts {separator : Char → Bool} {s : Scan} {c : Char} (h : cuts separator s c = true) :
    s = start := by
  simp only [cuts, Bool.and_eq_true] at h
  exact eq_start_of_atTop h.1.1

/-- Where it cuts a scan stays as it is. -/
theorem Scan.step_of_cuts {separator : Char → Bool} {s : Scan} {c : Char} (h : cuts separator s c = true) :
    s.step c = s := by
  rw [eq_start_of_cuts h]
  simp only [cuts, Bool.and_eq_true, Bool.not_eq_true', isStructural, Bool.or_eq_false_iff] at h
  obtain ⟨-, ⟨hquote, hopens⟩, hcloses⟩ := h
  simp [step, start, hquote, hopens, hcloses]

/-- The text takes the scan from one state to another without a cut. -/
def Uncut (separator : Char → Bool) (s : Scan) (text : List Char) (s' : Scan) : Prop :=
  ∀ rest, partsFrom separator s (text ++ rest) =
    (text ++ (partsFrom separator s' rest).1, (partsFrom separator s' rest).2)

namespace Uncut

variable {separator : Char → Bool} {s s₁ s' : Scan} {text text' : List Char} {depth : Nat}

theorem nil : Uncut separator s [] s := fun _ => rfl

theorem append (h : Uncut separator s text s₁) (h' : Uncut separator s₁ text' s') :
    Uncut separator s (text ++ text') s' := by
  intro rest
  rw [List.append_assoc, h, h', List.append_assoc]

theorem cons {c : Char} (hc : cuts separator s c = false) (hstep : s.step c = s₁)
    (h : Uncut separator s₁ text s') : Uncut separator s (c :: text) s' := by
  intro rest
  rw [List.cons_append, partsFrom_cons_of_not_cuts hc, hstep, h rest, List.cons_append]

/-- A character that scans do not follow is passed where it does not cut. -/
theorem single {c : Char} (hs : isStructural c = false) (hc : depth = 0 → separator c = false) :
    Uncut separator ⟨none, depth⟩ [c] ⟨none, depth⟩ := by
  have hstep : Scan.step ⟨none, depth⟩ c = ⟨none, depth⟩ := by
    simp only [isStructural, Bool.or_eq_false_iff] at hs
    simp [Scan.step, hs]
  refine cons ?_ hstep nil
  cases depth with
  | zero => simp [cuts, hc rfl]
  | succ depth => rfl

theorem plain (hsep : Separating separator) (h : ∀ c ∈ text, isPlain c = true) :
    Uncut separator ⟨none, depth⟩ text ⟨none, depth⟩ := by
  induction text with
  | nil => exact nil
  | cons c text ih =>
    obtain ⟨hc, htext⟩ := List.forall_mem_cons.1 h
    exact append (single (isStructural_of_isPlain hc) fun _ => hsep.eq_false (isSeparator_of_isPlain hc)) (ih htext)

theorem blank (hsep : Separating separator) : Uncut separator ⟨none, depth⟩ [' '] ⟨none, depth⟩ :=
  single rfl fun _ => hsep.eq_false rfl

/-- Only the quote itself ends a quoted text. -/
theorem inside {q : Char} (h : q ∉ text) : Uncut separator ⟨some q, depth⟩ text ⟨some q, depth⟩ := by
  induction text with
  | nil => exact nil
  | cons c text ih =>
    obtain ⟨hc, htext⟩ := not_or.1 (mt List.mem_cons.2 h)
    exact cons rfl (if_neg (Ne.symm hc)) (ih htext)

theorem quoted {q : Char} (hq : Scan.isQuote q = true) (h : q ∉ text) :
    Uncut separator ⟨none, depth⟩ (q :: (text ++ [q])) ⟨none, depth⟩ :=
  cons (by simp [cuts, isStructural, hq]) (if_pos hq) ((inside h).append (cons rfl (if_pos rfl) nil))

theorem bracketed {o c : Char} (ho : Scan.opens o = true) (hc : Scan.closes c = true)
    (h : Uncut separator ⟨none, depth + 1⟩ text ⟨none, depth + 1⟩) :
    Uncut separator ⟨none, depth⟩ (o :: (text ++ [c])) ⟨none, depth⟩ := by
  have hopen : Scan.step ⟨none, depth⟩ o = ⟨none, depth + 1⟩ := by
    simp only [Scan.opens, Bool.or_eq_true, decide_eq_true_eq] at ho
    rcases ho with (rfl | rfl) | rfl <;> rfl
  have hclose : Scan.step ⟨none, depth + 1⟩ c = ⟨none, depth⟩ := by
    simp only [Scan.closes, Bool.or_eq_true, decide_eq_true_eq] at hc
    rcases hc with (rfl | rfl) | rfl <;> rfl
  exact cons (by simp [cuts, isStructural, ho]) hopen (h.append (cons rfl hclose nil))

/-- The text goes to the front of the first part. -/
theorem topLevelParts_append (h : Uncut separator .start text .start) (rest : List Char) :
    topLevelParts separator (text ++ rest) = (topLevelParts separator rest).modifyHead (text ++ ·) := by
  rw [topLevelParts, h]
  rfl

theorem topLevelParts_eq (h : Uncut separator .start text .start) : topLevelParts separator text = [text] := by
  simpa [topLevelParts, partsFrom] using h.topLevelParts_append []

/-- The text is the first part where a separator stands behind it. -/
theorem topLevelParts_append_cons {c : Char} (h : Uncut separator .start text .start) (hc : separator c = true)
    (hs : isStructural c = false) (rest : List Char) :
    topLevelParts separator (text ++ c :: rest) = text :: topLevelParts separator rest := by
  have hcuts : cuts separator .start c = true := by
    simp only [cuts, hc, hs]
    rfl
  rw [h.topLevelParts_append, topLevelParts, partsFrom_cons_of_cuts hcuts, List.modifyHead_cons, List.append_nil]
  rfl

end Uncut

end ScriptHost.Script
