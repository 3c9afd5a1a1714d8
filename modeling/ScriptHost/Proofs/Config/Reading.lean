/-
What the reader of documents makes of the parts that the writer writes: strings, names, words and numbers, each
read from the state in front of it to the state behind it. A string is a sequence of written characters, and
each of them adds one character to the string, however it is escaped; the digits of a number are its value.
-/
import ScriptHost.Config.Reader
import ScriptHost.Config.Writer
import Mathlib.Data.List.TakeWhile
import Mathlib.Tactic

namespace ScriptHost.Config

/-! ## Strings -/

namespace StringState

/-- The characters take a string that is being read from one state to another. -/
inductive Takes (strict : Bool) : StringState → List Char → StringState → Prop
  | nil {s : StringState} : Takes strict s [] s
  | cons {s t s' : StringState} {c : Char} {text : List Char} : s.step strict c = .ok (some t) →
      Takes strict t text s' → Takes strict s (c :: text) s'

theorem Takes.append {strict : Bool} {s s₁ s' : StringState} {text rest : List Char} (h : Takes strict s text s₁)
    (h' : Takes strict s₁ rest s') : Takes strict s (text ++ rest) s' := by
  induction h with
  | nil => exact h'
  | cons hstep _ ih => exact .cons hstep (ih h')

theorem utf8Size_hexDigit : ∀ n < 16, (hexDigit n).utf8Size = 1 := by decide

/-- The code unit of a control character. -/
theorem unit?_control : ∀ n < 32, unit? ['0', '0', hexDigit (n / 16), hexDigit (n % 16)] = some n := by decide

/-- Control characters are no surrogates. -/
theorem takeUnit_control (s : StringState) {n : Nat} (h : n < 32) :
    s.takeUnit true none n = .ok (s.push (Char.ofNat n)) := by
  have hlow : isLow n = false := by simp [isLow]; omega
  have hhigh : isHigh n = false := by simp [isHigh]; omega
  simp [takeUnit, hlow, hhigh]

theorem takes_control (chars : List Char) {n : Nat} (h : n < 32) :
    Takes true ⟨chars, .closed⟩ ['\\', 'u', '0', '0', hexDigit (n / 16), hexDigit (n % 16)]
      ⟨Char.ofNat n :: chars, .closed⟩ := by
  have hfirst := utf8Size_hexDigit (n / 16) (by omega)
  have hsecond := utf8Size_hexDigit (n % 16) (by omega)
  have hzero : '0'.utf8Size = 1 := rfl
  refine .cons (t := ⟨chars, .backslash⟩) rfl (.cons (t := ⟨chars, .unit [] none⟩) rfl
    (.cons (t := ⟨chars, .unit ['0'] none⟩) rfl (.cons (t := ⟨chars, .unit ['0', '0'] none⟩) rfl
    (.cons (t := ⟨chars, .unit ['0', '0', hexDigit (n / 16)] none⟩) ?_ (.cons ?_ .nil)))))
  · simp [step, byteCount, hfirst, hzero]
  · simp [step, byteCount, hfirst, hsecond, hzero, unit?_control n h, takeUnit_control _ h, push, Except.map]

/-- A character that stands for itself. -/
theorem takes_plain {strict : Bool} (chars : List Char) {c : Char} (hq : c ≠ '"') (hb : c ≠ '\\')
    (hc : ¬ c.toNat < 0x20) : Takes strict ⟨chars, .closed⟩ [c] ⟨c :: chars, .closed⟩ :=
  .cons (by simp [step, hq, hb, hc, push]) .nil

theorem takes_plains {strict : Bool} : ∀ {text : List Char},
    (∀ c ∈ text, c ≠ '"' ∧ c ≠ '\\' ∧ ¬ c.toNat < 0x20) → ∀ chars : List Char,
    Takes strict ⟨chars, .closed⟩ text ⟨text.reverse ++ chars, .closed⟩
  | [], _, _ => .nil
  | c :: text, h, chars => by
    obtain ⟨hq, hb, hc⟩ := h c List.mem_cons_self
    rw [List.reverse_cons, List.append_assoc]
    exact (takes_plain chars hq hb hc).append (takes_plains (fun d hd => h d (List.mem_cons_of_mem _ hd)) (c :: chars))

/-- A letter behind a backslash. -/
theorem takes_escaped {strict : Bool} (chars : List Char) {c plain : Char} (hu : c ≠ 'u')
    (h : escapedChar? c = some plain) : Takes strict ⟨chars, .closed⟩ ['\\', c] ⟨plain :: chars, .closed⟩ :=
  .cons (t := ⟨chars, .backslash⟩) rfl (.cons (by simp [step, hu, h, push]) .nil)

/-- A written character adds itself. -/
theorem takes_writeChar (chars : List Char) (c : Char) :
    Takes true ⟨chars, .closed⟩ (writeChar c) ⟨c :: chars, .closed⟩ := by
  -- a letter that is escaped reads back as the character that it was written for
  have hletter : ∀ {letter plain : Char}, letter ≠ 'u' → escapedChar? letter = some plain → c = plain →
      Takes true ⟨chars, .closed⟩ ['\\', letter] ⟨c :: chars, .closed⟩ := by
    rintro letter plain hu h rfl
    exact takes_escaped chars hu h
  unfold writeChar
  split_ifs with hq hb h8 hf hn hr ht hc
  · exact hletter (by decide) rfl hq
  · exact hletter (by decide) rfl hb
  · exact hletter (by decide) rfl h8
  · exact hletter (by decide) rfl hf
  · exact hletter (by decide) rfl hn
  · exact hletter (by decide) rfl hr
  · exact hletter (by decide) rfl ht
  · have h := takes_control chars hc
    rwa [Char.ofNat_toNat] at h
  · exact takes_plain chars hq hb hc

theorem takes_flatMap_writeChar : ∀ (text chars : List Char),
    Takes true ⟨chars, .closed⟩ (text.flatMap writeChar) ⟨text.reverse ++ chars, .closed⟩
  | [], _ => .nil
  | c :: text, chars => by
    rw [List.flatMap_cons, List.reverse_cons, List.append_assoc]
    exact (takes_writeChar chars c).append (takes_flatMap_writeChar text (c :: chars))

end StringState

/-! ## Numbers -/

/-- The decimal digits of a number that is not zero do not start with a zero. -/
theorem toDigits_head {n : Nat} (hn : 0 < n) : ∃ c rest, Nat.toDigits 10 n = c :: rest ∧ c ≠ '0' := by
  induction n using Nat.strong_induction_on with
  | _ n ih =>
    rw [Nat.toDigits_eq_if (by decide)]
    split_ifs with hlt
    · refine ⟨n.digitChar, [], rfl, ?_⟩
      interval_cases n <;> decide
    · obtain ⟨c, rest, he, hc⟩ := ih (n / 10) (by omega) (by omega)
      exact ⟨c, rest ++ [(n % 10).digitChar], by rw [he, List.cons_append], hc⟩

theorem ofDigits_toDigits (n : Nat) : Decimal.ofDigits (Nat.toDigits 10 n) = n := by
  have h := Nat.ofDigitChars_toDigits (b := 10) (n := n) (by decide) (by decide)
  rw [Nat.ofDigitChars_eq_foldl] at h
  simpa only [Decimal.ofDigits, Nat.mul_comm 10] using h

/-- Digits alone have neither a sign nor a fraction nor an exponent. -/
theorem numberParts_digits {digits : List Char} (h : ∀ c ∈ digits, c.isDigit = true) :
    NumberParts.ofText digits = ⟨false, digits, none, none⟩ := by
  have hsign : Decimal.splitSign digits = (false, digits) := by
    unfold Decimal.splitSign
    split
    · exact absurd (h '-' List.mem_cons_self) (by decide)
    · exact absurd (h '+' List.mem_cons_self) (by decide)
    · rfl
  unfold NumberParts.ofText
  simp only [hsign, List.takeWhile_eq_self_iff.2 h, List.dropWhile_eq_nil_iff.2 h]

/-- A number that fits is read from its decimal digits. -/
theorem readNumber_toDigits {n : Nat} (h : n < wordEnd) : readNumber (Nat.toDigits 10 n) = .ok (.integer n) := by
  have hdigits : ∀ c ∈ Nat.toDigits 10 n, c.isDigit = true :=
    fun c hc => Nat.isDigit_of_mem_toDigits (by decide) (by decide) hc
  unfold readNumber
  simp [numberParts_digits hdigits, ofDigits_toDigits, h]

/-! ## Readers -/

namespace Reader

/-- The text takes the reader from one state to another. -/
def Reads (r : Reader) (text : List Char) (r' : Reader) : Prop := text.foldlM step r = .ok r'

theorem Reads.nil {r : Reader} : r.Reads [] r := rfl

theorem Reads.cons {r m r' : Reader} {c : Char} {text : List Char} (h : r.step c = .ok m)
    (h' : m.Reads text r') : r.Reads (c :: text) r' := by
  unfold Reads
  rw [List.foldlM_cons, h]
  exact h'

theorem Reads.append {r r₁ r' : Reader} {text rest : List Char} (h : r.Reads text r₁) (h' : r₁.Reads rest r') :
    r.Reads (text ++ rest) r' := by
  unfold Reads at h ⊢
  rw [List.foldlM_append, h]
  exact h'

theorem Reads.snoc {r r₁ r' : Reader} {c : Char} {text : List Char} (h : r.Reads text r₁)
    (h' : r₁.step c = .ok r') : r.Reads (text ++ [c]) r' :=
  h.append (.cons h' .nil)

/-- The reader in front of something else. -/
def expecting (r : Reader) (p : Point) : Reader := { r with point := p }

theorem complete_field (r : Reader) (f : Field) (value : Scalar) :
    r.complete (.field f) value = (r.store f value).map (expecting · .after) := rfl

/-- Where a value is stored does not depend on where the reader is. -/
theorem complete_expecting (r : Reader) (p : Point) (target : Target) (value : Scalar) :
    (r.expecting p).complete target value = r.complete target value := by
  cases target with
  | document => rfl
  | skipped => rfl
  | field f =>
    rw [complete_field, complete_field]
    cases f <;> cases value <;> simp only [store] <;> try rfl
    split <;> rfl

/-! ### Strings and names -/

theorem step_string (r : Reader) (s : StringState) (target : Target) (c : Char) :
    (r.expecting (.string s target)).step c = (s.step (target ≠ .skipped) c).bind fun next => match next with
      | some s' => .ok (r.expecting (.string s' target))
      | none => r.complete target (.text s.text) := by
  rw [← complete_expecting r (.string s target)]
  rfl

theorem step_key (r : Reader) (s : StringState) (c : Char) :
    (r.expecting (.key s)).step c = (s.step r.strictKey c).bind fun next => match next with
      | some s' => .ok (r.expecting (.key s'))
      | none => r.completeKey s.text := rfl

theorem reads_string (r : Reader) {target : Target} (ht : target ≠ .skipped) {s s' : StringState}
    {text : List Char} (h : s.Takes true text s') :
    (r.expecting (.string s target)).Reads text (r.expecting (.string s' target)) := by
  induction h with
  | nil => exact .nil
  | cons hstep _ ih =>
    refine .cons ?_ ih
    rw [step_string, decide_eq_true ht, hstep]
    rfl

/-- A written string is complete with its last quote. -/
theorem reads_writeString {r r' : Reader} {target : Target} (ht : target ≠ .skipped) (text : String)
    (h : r.complete target (.text text) = .ok r') :
    (r.expecting (.value target)).Reads (writeString text.toList) r' := by
  refine .cons (m := r.expecting (.string .start target)) rfl ?_
  refine (reads_string r ht (StringState.takes_flatMap_writeChar text.toList [])).snoc ?_
  rw [step_string]
  simpa [StringState.step, StringState.text, Except.bind] using h

theorem reads_key (r : Reader) {s s' : StringState} {text : List Char} (h : s.Takes r.strictKey text s') :
    (r.expecting (.key s)).Reads text (r.expecting (.key s')) := by
  induction h with
  | nil => exact .nil
  | cons hstep _ ih =>
    refine .cons ?_ ih
    rw [step_key, hstep]
    rfl

/-- A name of plain characters is complete with its quote. -/
theorem reads_name {r r' : Reader} {name : String}
    (hplain : ∀ c ∈ name.toList, c ≠ '"' ∧ c ≠ '\\' ∧ ¬ c.toNat < 0x20) (h : r.completeKey name = .ok r') :
    (r.expecting (.key .start)).Reads (name.toList ++ ['"']) r' := by
  refine (reads_key r (StringState.takes_plains hplain [])).snoc ?_
  rw [step_key]
  simpa [StringState.step, StringState.text, Except.bind] using h

/-! ### Words -/

theorem reads_word {r r' : Reader} {target : Target} {meaning : Scalar} (h : r.complete target meaning = .ok r') :
    ∀ (next : Char) (rest : List Char),
    (r.expecting (.word next rest meaning target)).Reads (next :: rest) r'
  | next, [] => by
    refine .cons ?_ .nil
    simpa [step, expecting] using (complete_expecting r (.word next [] meaning target) target meaning).trans h
  | next, c :: rest => by
    refine .cons (m := r.expecting (.word c rest meaning target)) ?_ (reads_word h c rest)
    simp [step, expecting]

theorem reads_null {r r' : Reader} {target : Target} (h : r.complete target .null = .ok r') :
    (r.expecting (.value target)).Reads "null".toList r' :=
  .cons rfl (reads_word h 'u' ['l', 'l'])

theorem reads_writeBool {r r' : Reader} {target : Target} {b : Bool} (h : r.complete target (.bool b) = .ok r') :
    (r.expecting (.value target)).Reads (writeBool b) r' := by
  cases b with
  | false => exact .cons rfl (reads_word h 'a' ['l', 's', 'e'])
  | true => exact .cons rfl (reads_word h 'r' ['u', 'e'])

/-! ### Numbers -/

theorem isSpace_of_isDigit {c : Char} (h : c.isDigit = true) : isSpace c = false := by
  rw [← Bool.not_eq_true]
  intro hs
  simp only [isSpace, Bool.or_eq_true, decide_eq_true_eq] at hs
  rcases hs with ((rfl | rfl) | rfl) | rfl <;> cases h

theorem reads_digits (r : Reader) (target : Target) : ∀ {digits : List Char},
    (∀ c ∈ digits, c.isDigit = true) → ∀ chars : List Char,
    (r.expecting (.number .whole chars target)).Reads digits
      (r.expecting (.number .whole (digits.reverse ++ chars) target))
  | [], _, _ => .nil
  | c :: digits, h, chars => by
    rw [List.reverse_cons, List.append_assoc]
    refine .cons ?_ (reads_digits r target (fun d hd => h d (List.mem_cons_of_mem _ hd)) (c :: chars))
    simp [step, expecting, NumberPoint.next, h c List.mem_cons_self]
    rfl

/-- A written number may end where it is read to. -/
theorem reads_toDigits (r : Reader) (target : Target) (n : Nat) : ∃ p, (p = .zero ∨ p = .whole) ∧
    (r.expecting (.value target)).Reads (Nat.toDigits 10 n)
      (r.expecting (.number p (Nat.toDigits 10 n).reverse target)) := by
  -- zero is a number by itself; no other one starts with it
  rcases Nat.eq_zero_or_pos n with rfl | hn
  · exact ⟨.zero, .inl rfl, .cons rfl .nil⟩
  · obtain ⟨c, rest, he, hc⟩ := toDigits_head hn
    have hdigits : ∀ d ∈ c :: rest, d.isDigit = true := by
      rw [← he]
      exact fun d hd => Nat.isDigit_of_mem_toDigits (by decide) (by decide) hd
    refine ⟨.whole, .inr rfl, ?_⟩
    rw [he, List.reverse_cons]
    refine .cons ?_ (reads_digits r target (fun d hd => hdigits d (List.mem_cons_of_mem _ hd)) [c])
    have hdigit := hdigits c List.mem_cons_self
    have hminus : c ≠ '-' := by rintro rfl; cases hdigit
    simp [step, expecting, startValue, NumberPoint.start?, hminus, hc, hdigit, isSpace_of_isDigit hdigit]

/-! ### Values and members -/

/-- A character that stands behind a member of an object: a comma, or the bracket that closes it. -/
def IsMark (c : Char) : Prop := c = ',' ∨ c = '\x7d'

/-- A value is read, whichever mark stands behind it; a number shows only there that it is complete. -/
def ReadsValue (r : Reader) (target : Target) (text : List Char) (r₁ : Reader) : Prop :=
  ∀ mark r', IsMark mark → r₁.stepAfter mark = .ok r' → (r.expecting (.value target)).Reads (text ++ [mark]) r'

theorem point_of_complete {r r' : Reader} {target : Target} {value : Scalar}
    (h : r.complete target value = .ok r') : r'.point = .after := by
  cases target with
  | document => cases h
  | skipped => cases h; rfl
  | field f =>
    rw [complete_field] at h
    cases hs : r.store f value with
    | error e => rw [hs] at h; cases h
    | ok r₁ => rw [hs] at h; cases h; rfl

theorem step_mark {r : Reader} (hp : r.point = .after) {mark : Char} (hm : IsMark mark) :
    r.step mark = r.stepAfter mark := by
  rcases hm with rfl | rfl <;> simp [step, hp, isSpace]

/-- What is complete by itself is followed by its mark. -/
theorem readsValue_of_reads {r r₁ : Reader} {target : Target} {text : List Char} (hp : r₁.point = .after)
    (h : (r.expecting (.value target)).Reads text r₁) : r.ReadsValue target text r₁ := by
  intro mark r' hm h'
  exact h.snoc ((step_mark hp hm).trans h')

theorem readsValue_null {r r₁ : Reader} {target : Target} (h : r.complete target .null = .ok r₁) :
    r.ReadsValue target "null".toList r₁ :=
  readsValue_of_reads (point_of_complete h) (reads_null h)

theorem readsValue_writeBool {r r₁ : Reader} {target : Target} {b : Bool}
    (h : r.complete target (.bool b) = .ok r₁) : r.ReadsValue target (writeBool b) r₁ :=
  readsValue_of_reads (point_of_complete h) (reads_writeBool h)

theorem readsValue_writeString {r r₁ : Reader} {target : Target} (ht : target ≠ .skipped) {text : String}
    (h : r.complete target (.text text) = .ok r₁) : r.ReadsValue target (writeString text.toList) r₁ :=
  readsValue_of_reads (point_of_complete h) (reads_writeString ht text h)

theorem readsValue_toDigits {r r₁ : Reader} {target : Target} (ht : target ≠ .skipped) {n : Nat} (hn : n < wordEnd)
    (h : r.complete target (.integer n) = .ok r₁) : r.ReadsValue target (Nat.toDigits 10 n) r₁ := by
  intro mark r' hm h'
  obtain ⟨p, hp, hreads⟩ := reads_toDigits r target n
  refine hreads.snoc ?_
  have hnumber : (r.expecting (.number p (Nat.toDigits 10 n).reverse target)).completeNumber target
      (Nat.toDigits 10 n).reverse = .ok r₁ := by
    rw [completeNumber, if_neg ht, List.reverse_reverse, readNumber_toDigits hn]
    exact (complete_expecting ..).trans h
  -- the mark ends the number and is then read as what stands behind a value
  have hnext : p.next mark = .ok none := by
    rcases hp with rfl | rfl <;> rcases hm with rfl | rfl <;> rfl
  have hspace : isSpace mark = false := by
    rcases hm with rfl | rfl <;> rfl
  show (p.next mark).bind _ = _
  rw [hnext]
  show (completeNumber _ target _).bind _ = _
  rw [hnumber]
  show (if isSpace mark then _ else r₁.stepAfter mark) = _
  rw [hspace, if_neg Bool.false_ne_true, h']

/-- A member of an object of settings whose field has not come before. -/
theorem reads_writeMember {r r₁ r' : Reader} {group : Group} {seen : List Field} {outer : List Bracket} {f : Field}
    {text : List Char} {mark : Char} (hb : r.brackets = .settings group .object seen :: outer)
    (hp : r.point = .opened ∨ r.point = .comma) (hf : group.field? f.name = some f) (hs : f ∉ seen)
    (hv : { r with brackets := .settings group .object (seen ++ [f]) :: outer }.ReadsValue (.field f) text r₁)
    (hm : IsMark mark) (h : r₁.stepAfter mark = .ok r') : r.Reads (writeMember f.name text ++ [mark]) r' := by
  have hkey : r.completeKey f.name =
      .ok ({ r with brackets := .settings group .object (seen ++ [f]) :: outer }.expecting (.colon (.field f))) := by
    simp [completeKey, hb, hf, hs, expecting]
  -- the names of fields need no escapes
  have hplain : ∀ c ∈ f.name.toList, c ≠ '"' ∧ c ≠ '\\' ∧ ¬ c.toNat < 0x20 := by
    have hall : f.name.toList.all (fun c => decide (c ≠ '"' ∧ c ≠ '\\' ∧ ¬ c.toNat < 0x20)) = true := by
      cases f <;> rfl
    exact fun c hc => of_decide_eq_true (List.all_eq_true.1 hall c hc)
  have htext : writeMember f.name text ++ [mark] = '"' :: (f.name.toList ++ ['"'] ++ ':' :: (text ++ [mark])) := by
    simp [writeMember]
  rw [htext]
  refine .cons (m := r.expecting (.key .start)) ?_ ((reads_name hplain hkey).append (.cons rfl (hv mark r' hm h)))
  rcases hp with hp | hp <;> simp [step, hp, isSpace, stepOpened, stepComma, hb, Bracket.shape, expecting]

end Reader

end ScriptHost.Config
