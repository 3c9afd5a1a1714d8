/-
What a numeral is made of. A text that denotes a number holds letters, digits, points and signs only,
whichever of the forms of a number it has.
-/
import ScriptHost.Decimal.Reading
import Mathlib

namespace ScriptHost.Decimal

/-- The characters of numerals. -/
def inNumeral (c : Char) : Bool := c.isAlphanum || c = '.' || c = '+' || c = '-'

theorem inNumeral_of_isDigit {c : Char} (h : c.isDigit = true) : inNumeral c = true := by
  simp [inNumeral, Char.isAlphanum, h]

theorem isAlpha_of_isAlpha_toLower {c : Char} (h : c.toLower.isAlpha = true) : c.isAlpha = true := by
  by_cases hu : c.isUpper = true
  · simp [Char.isAlpha, hu]
  · have : c.toLower = c := by
      simp only [Char.isUpper, decide_eq_true_eq] at hu
      exact dif_neg hu
    rwa [this] at h

theorem inNumeral_of_isAlpha_toLower {c : Char} (h : c.toLower.isAlpha = true) : inNumeral c = true := by
  simp [inNumeral, Char.isAlphanum, isAlpha_of_isAlpha_toLower h]

/-- The words for numbers have no characters but letters. -/
theorem inNumeral_of_special? {text : List Char} {x : Float} (h : special? text = some x) :
    ∀ c ∈ text, inNumeral c = true := by
  have hletters : ∀ word : String, String.ofList (text.map Char.toLower) = word →
      (∀ c ∈ word.toList, c.isAlpha = true) → ∀ c ∈ text, inNumeral c = true := by
    rintro _ rfl hword c hc
    rw [String.toList_ofList] at hword
    exact inNumeral_of_isAlpha_toLower (hword _ (List.mem_map_of_mem hc))
  unfold special? at h
  split at h
  next heq => exact hletters _ heq (List.all_eq_true.1 rfl)
  next heq => exact hletters _ heq (List.all_eq_true.1 rfl)
  next heq => exact hletters _ heq (List.all_eq_true.1 rfl)
  next => cases h

/-- A sign is the only thing that taking it off drops. -/
theorem inNumeral_of_splitSign {text : List Char} (h : ∀ c ∈ (splitSign text).2, inNumeral c = true) :
    ∀ c ∈ text, inNumeral c = true := by
  unfold splitSign at h
  split at h
  · simpa using ⟨by decide, h⟩
  · simpa using ⟨by decide, h⟩
  · exact h

theorem inNumeral_of_exponent? {text : List Char} {e : Int} (h : exponent? text = some e) :
    ∀ c ∈ text, inNumeral c = true := by
  cases text with
  | nil => simp
  | cons c rest =>
    simp only [exponent?] at h
    split at h
    next hc =>
      split at h
      · cases h
      next hdigits =>
        simp only [Bool.or_eq_true, Bool.not_eq_true', not_or, Bool.not_eq_false, List.all_eq_true] at hdigits
        have hrest := inNumeral_of_splitSign fun d hd => inNumeral_of_isDigit (hdigits.2 d hd)
        have hletter : inNumeral c = true := by
          simp only [Bool.or_eq_true, decide_eq_true_eq] at hc
          rcases hc with rfl | rfl <;> decide
        simpa using ⟨hletter, hrest⟩
    next => cases h

/-- Digits at the front may be left out of the question. -/
theorem inNumeral_of_dropWhile {text : List Char} (h : ∀ c ∈ text.dropWhile Char.isDigit, inNumeral c = true) :
    ∀ c ∈ text, inNumeral c = true := by
  intro c hc
  rw [← @List.takeWhile_append_dropWhile _ Char.isDigit text, List.mem_append] at hc
  rcases hc with hc | hc
  · exact inNumeral_of_isDigit (List.mem_takeWhile_imp hc)
  · exact h c hc

/-- What stands behind the digits, with a point and without one, ends as an exponent. -/
theorem inNumeral_of_magnitude? {text : List Char} {x : Float} (h : magnitude? text = some x) :
    ∀ c ∈ text, inNumeral c = true := by
  apply inNumeral_of_dropWhile
  -- one lemma for both arms: behind the digits an exponent is left, or nothing
  have hrest : ∀ {digits : Bool} {rest : List Char} {f : Int → Float},
      (if digits then none else (exponent? rest).map f) = some x → ∀ c ∈ rest, inNumeral c = true := by
    intro digits rest f h
    cases digits with
    | true => cases h
    | false =>
      obtain ⟨e, he, -⟩ := Option.map_eq_some_iff.1 h
      exact inNumeral_of_exponent? he
  simp only [magnitude?] at h
  split at h
  next rest heq =>
    rw [heq]
    simpa using ⟨by decide, inNumeral_of_dropWhile (hrest h)⟩
  next => exact hrest h

/-- A text that denotes a number is a numeral. -/
theorem inNumeral_of_read? {text : List Char} {x : Float} (h : read? text = some x) :
    ∀ c ∈ text, inNumeral c = true := by
  obtain ⟨y, hy, -⟩ := Option.map_eq_some_iff.1 h
  apply inNumeral_of_splitSign
  rcases Option.or_eq_some_iff.1 hy with hspecial | ⟨-, hmagnitude⟩
  · exact inNumeral_of_special? hspecial
  · exact inNumeral_of_magnitude? hmagnitude

end ScriptHost.Decimal
