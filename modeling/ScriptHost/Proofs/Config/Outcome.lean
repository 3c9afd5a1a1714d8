/-
What becomes of the rest of a text. The outcome of a reader on a text is the configuration that it ends with, if
the text is accepted; so each part of a document is an equation between the outcome in front of it and the outcome
behind it. Main result here: a value that is skipped leaves no trace, whatever it is and however deep it nests.

A number ends with the character behind it, so what follows a value is always asked to be white space, a comma, a
closing bracket or the end.
-/
import ScriptHost.Proofs.Config.Document
import ScriptHost.Proofs.Config.Reading

namespace ScriptHost.Config

/-! ## Layouts -/

namespace Layout

variable {tokens tokens' : List (List Char)} {token text : List Char}

theorem exists_of_append : ∀ {tokens : List (List Char)} {text : List Char}, Layout (tokens ++ tokens') text →
    ∃ front back, text = front ++ back ∧ Layout tokens front ∧ Layout tokens' back
  | [], text, h => ⟨[], text, rfl, .nil, h⟩
  | token :: tokens, _, h => by
    obtain _ | ⟨hblank, hrest⟩ := h
    obtain ⟨front, back, rfl, hfront, hback⟩ := exists_of_append hrest
    exact ⟨_, back, by simp only [List.append_assoc], .cons hblank hfront, hback⟩

end Layout

/-- What may stand behind a value. -/
def Follows (rest : List Char) : Prop :=
  ∀ c ∈ rest.head?, Reader.isSpace c = true ∨ c = ',' ∨ c = ']' ∨ c = '\x7d'

theorem Follows.of_layout {c : Char} {tokens : List (List Char)} {text : List Char} (h : Layout ([c] :: tokens) text)
    (hc : c = ',' ∨ c = ']' ∨ c = '\x7d') (rest : List Char) : Follows (text ++ rest) := by
  obtain _ | @⟨blank, _, text, _, hblank, -⟩ := h
  cases blank with
  | nil =>
    rintro d hd
    cases hd
    exact .inr hc
  | cons b blank =>
    rintro d hd
    cases hd
    exact .inl (hblank b List.mem_cons_self)

theorem follows_itemTokens {items : List Json} {text : List Char} (h : Layout (itemTokens items) text)
    (rest : List Char) : Follows (text ++ rest) := by
  cases items with
  | nil => exact .of_layout h (.inr (.inl rfl)) rest
  | cons item items => exact .of_layout h (.inl rfl) rest

theorem follows_memberTokens {members : List Member} {text : List Char} (h : Layout (memberTokens members) text)
    (rest : List Char) : Follows (text ++ rest) := by
  cases members with
  | nil => exact .of_layout h (.inr (.inr rfl)) rest
  | cons member members => exact .of_layout h (.inl rfl) rest

/-! ## Strings -/

namespace StringState

/-- What is read up to the closing quote, and what stands behind it. -/
def scan (strict : Bool) (s : StringState) : List Char → Option (StringState × List Char)
  | [] => none
  | c :: rest =>
    match s.step strict c with
    | .ok (some next) => scan strict next rest
    | .ok none => some (s, rest)
    | .error _ => none

variable {strict : Bool} {s s' : StringState} {c : Char} {text rest : List Char}

theorem scan_cons (h : s.step strict c = .ok (some s')) : s.scan strict (c :: rest) = s'.scan strict rest := by
  rw [scan, h]

theorem scan_of_error {e : ReadError} (h : s.step strict c = .error e) : s.scan strict (c :: rest) = none := by
  rw [scan, h]

theorem scan_of_takes (h : Takes strict s text s') : s.scan strict (text ++ rest) = s'.scan strict rest := by
  induction h with
  | nil => rfl
  | cons hstep _ ih => exact (scan_cons hstep).trans ih

theorem scan_quote (chars : List Char) :
    scan strict ⟨chars, .closed⟩ ('"' :: rest) = some (⟨chars, .closed⟩, rest) := rfl

theorem utf8Size_of_hexDigit? {n : Nat} (h : hexDigit? c = some n) : c.utf8Size = 1 := by
  have hle : c.val ≤ 0x7F := by
    unfold hexDigit? at h
    split_ifs at h with hdigit hlower hupper
    · simp only [Char.isDigit, Bool.and_eq_true, decide_eq_true_eq] at hdigit
      exact UInt32.le_trans hdigit.2 (by decide)
    · simp only [Bool.and_eq_true, decide_eq_true_eq] at hlower
      exact UInt32.le_trans (show c.val ≤ 'f'.val from hlower.2) (by decide)
    · simp only [Bool.and_eq_true, decide_eq_true_eq] at hupper
      exact UInt32.le_trans (show c.val ≤ 'F'.val from hupper.2) (by decide)
  simp [Char.utf8Size, hle]

/-- The digits of a code unit are four characters of one byte. -/
theorem exists_digits {digits : List Char} {value : Nat} (h : unit? digits = some value) :
    ∃ a b c d, digits = [a, b, c, d] ∧ a.utf8Size = 1 ∧ b.utf8Size = 1 ∧ c.utf8Size = 1 ∧ d.utf8Size = 1 := by
  unfold unit? at h
  split_ifs at h with hlen
  obtain ⟨a, b, c, d, rfl⟩ := List.length_eq_four.1 hlen
  simp only [List.foldlM_cons, List.foldlM_nil, Option.bind_eq_bind, Option.bind_eq_some_iff,
    Option.map_eq_some_iff] at h
  obtain ⟨_, ⟨_, ha, -⟩, _, ⟨_, hb, -⟩, _, ⟨_, hc, -⟩, _, ⟨_, hd, -⟩, -⟩ := h
  exact ⟨a, b, c, d, rfl, utf8Size_of_hexDigit? ha, utf8Size_of_hexDigit? hb, utf8Size_of_hexDigit? hc,
    utf8Size_of_hexDigit? hd⟩

/-- A code unit is taken with its fourth digit. -/
theorem scan_unit {digits : List Char} {value : Nat} (h : unit? digits = some value) (chars : List Char)
    (high : Option Nat) : scan strict ⟨chars, .unit [] high⟩ (digits ++ rest) =
      ((takeUnit ⟨chars, .closed⟩ strict high value).toOption.bind fun s => s.scan strict rest) := by
  obtain ⟨a, b, c, d, rfl, ha, hb, hc, hd⟩ := exists_digits h
  have hfourth : step ⟨chars, .unit [a, b, c] high⟩ strict d =
      (takeUnit ⟨chars, .closed⟩ strict high value).map some := by
    simp [step, byteCount, ha, hb, hc, hd, h]
    rfl
  have hfirst : step ⟨chars, .unit [] high⟩ strict a = .ok (some ⟨chars, .unit [a] high⟩) := by
    simp [step, byteCount, ha]
  have hsecond : step ⟨chars, .unit [a] high⟩ strict b = .ok (some ⟨chars, .unit [a, b] high⟩) := by
    simp [step, byteCount, ha, hb]
  have hthird : step ⟨chars, .unit [a, b] high⟩ strict c = .ok (some ⟨chars, .unit [a, b, c] high⟩) := by
    simp [step, byteCount, ha, hb, hc]
  show scan strict _ (a :: b :: c :: d :: rest) = _
  rw [scan_cons hfirst, scan_cons hsecond, scan_cons hthird, scan, hfourth]
  cases takeUnit ⟨chars, .closed⟩ strict high value <;> rfl

theorem ne_u_of_escapedChar? {meaning : Char} (h : escapedChar? c = some meaning) : c ≠ 'u' := by
  rintro rfl
  cases h

/-- A string that is skipped is read to its end. -/
theorem exists_scan_skipped : ∀ (pieces : List Piece) (chars rest : List Char),
    ∃ s, scan false ⟨chars, .closed⟩ (pieces.flatMap Piece.text ++ '"' :: rest) = some (s, rest)
  | [], chars, rest => ⟨_, scan_quote chars⟩
  | .plain c h :: pieces, chars, rest => by
    obtain ⟨s, hs⟩ := exists_scan_skipped pieces (c :: chars) rest
    rw [List.flatMap_cons, List.append_assoc, Piece.text,
      scan_of_takes (takes_plain chars h.quote h.backslash h.control)]
    exact ⟨s, hs⟩
  | .letter c meaning h :: pieces, chars, rest => by
    obtain ⟨s, hs⟩ := exists_scan_skipped pieces (meaning :: chars) rest
    rw [List.flatMap_cons, List.append_assoc, Piece.text,
      scan_of_takes (takes_escaped chars (ne_u_of_escapedChar? h) h)]
    exact ⟨s, hs⟩
  | .unit digits value h :: pieces, chars, rest => by
    obtain ⟨s, hs⟩ := exists_scan_skipped pieces chars rest
    rw [List.flatMap_cons, List.append_assoc]
    refine ⟨s, ?_⟩
    show scan false ⟨chars, .unit [] none⟩ (digits ++ (pieces.flatMap Piece.text ++ '"' :: rest)) = _
    rw [scan_unit h]
    exact hs

/-- What a high surrogate leaves open. -/
def pending : Option Nat → Escape
  | none => .closed
  | some high => .high high

/-- A strict string is read as what it says. -/
theorem scan_strict : ∀ (pieces : List Piece) (high : Option Nat) (chars rest : List Char),
    scan true ⟨chars, pending high⟩ (pieces.flatMap Piece.text ++ '"' :: rest) =
      (Piece.decode high pieces).map fun text => (⟨text.reverse ++ chars, .closed⟩, rest)
  | [], none, chars, rest => scan_quote chars
  | [], some high, chars, rest => rfl
  | .plain c h :: pieces, none, chars, rest => by
    rw [List.flatMap_cons, List.append_assoc, Piece.text, pending,
      scan_of_takes (takes_plain chars h.quote h.backslash h.control), Piece.decode]
    refine (scan_strict pieces none (c :: chars) rest).trans ?_
    cases Piece.decode none pieces <;> simp
  | .letter c meaning h :: pieces, none, chars, rest => by
    rw [List.flatMap_cons, List.append_assoc, Piece.text, pending,
      scan_of_takes (takes_escaped chars (ne_u_of_escapedChar? h) h), Piece.decode]
    refine (scan_strict pieces none (meaning :: chars) rest).trans ?_
    cases Piece.decode none pieces <;> simp
  | .unit digits value h :: pieces, none, chars, rest => by
    rw [List.flatMap_cons, List.append_assoc]
    show scan true ⟨chars, .unit [] none⟩ (digits ++ (pieces.flatMap Piece.text ++ '"' :: rest)) = _
    rw [scan_unit h, Piece.decode]
    -- nothing is open: a low surrogate is an error, and a high one waits for its other half
    by_cases hlow : isLow value
    · simp [takeUnit, hlow, Except.toOption]
    by_cases hhigh : isHigh value
    · simpa [takeUnit, hlow, hhigh, Except.toOption, pending] using scan_strict pieces (some value) chars rest
    · simp only [takeUnit, hlow, hhigh, Except.toOption, push]
      refine (scan_strict pieces none (Char.ofNat value :: chars) rest).trans ?_
      cases Piece.decode none pieces <;> simp
  | .plain c h :: pieces, some high, chars, rest => scan_of_error (if_neg h.backslash)
  | .letter c meaning h :: pieces, some high, chars, rest => by
    have hletter : step ⟨chars, .highBackslash high⟩ true c = .error .cutSurrogate := if_neg (ne_u_of_escapedChar? h)
    have hbackslash : step ⟨chars, .high high⟩ true '\\' = .ok (some ⟨chars, .highBackslash high⟩) := rfl
    exact (scan_cons hbackslash).trans (scan_of_error hletter)
  | .unit digits value h :: pieces, some high, chars, rest => by
    rw [List.flatMap_cons, List.append_assoc]
    show scan true ⟨chars, .unit [] (some high)⟩ (digits ++ (pieces.flatMap Piece.text ++ '"' :: rest)) = _
    rw [scan_unit h, Piece.decode]
    -- half of a pair is open, and only a low surrogate completes it
    by_cases hlow : isLow value
    · simp only [takeUnit, hlow, Except.toOption, push]
      refine (scan_strict pieces none (_ :: chars) rest).trans ?_
      cases Piece.decode none pieces <;> simp
    · simp [takeUnit, hlow, Except.toOption]

end StringState

/-! ## Numbers -/

namespace NumberPoint

/-- The characters take a number from one point to another. -/
inductive Passes : NumberPoint → List Char → NumberPoint → Prop
  | nil {p : NumberPoint} : Passes p [] p
  | cons {p q p' : NumberPoint} {c : Char} {text : List Char} : p.next c = .ok (some q) → Passes q text p' →
      Passes p (c :: text) p'

variable {p q p' : NumberPoint} {text rest : List Char}

theorem Passes.append (h : Passes p text q) (h' : Passes q rest p') : Passes p (text ++ rest) p' := by
  induction h with
  | nil => exact h'
  | cons hnext _ ih => exact .cons hnext (ih h')

theorem passes_digits (hp : ∀ c : Char, c.isDigit = true → p.next c = .ok (some p)) :
    ∀ {digits : List Char}, (∀ c ∈ digits, c.isDigit = true) → Passes p digits p
  | [], _ => .nil
  | c :: digits, h => by
    obtain ⟨hc, hdigits⟩ := List.forall_mem_cons.1 h
    exact .cons (hp c hc) (passes_digits hp hdigits)

/-- Digits, one at least, behind something that takes them. -/
theorem passes_of_isDigits (hp : ∀ c : Char, c.isDigit = true → p.next c = .ok (some q))
    (hq : ∀ c : Char, c.isDigit = true → q.next c = .ok (some q)) (h : IsDigits text) : Passes p text q := by
  obtain ⟨c, digits, rfl⟩ := List.exists_cons_of_ne_nil h.1
  obtain ⟨hc, hdigits⟩ := List.forall_mem_cons.1 h.2
  exact .cons (hp c hc) (passes_digits hq hdigits)

/-- The whole part begins a number, or follows its sign. -/
theorem exists_passes_whole (h : IsWhole text) : ∃ c digits p, text = c :: digits ∧ start? c = some p ∧
    sign.next c = .ok (some p) ∧ Passes p digits p ∧ (p = .zero ∨ p = .whole) := by
  rcases h with rfl | ⟨⟨hne, hdigits⟩, hhead⟩
  · exact ⟨'0', [], .zero, rfl, rfl, rfl, .nil, .inl rfl⟩
  · obtain ⟨c, digits, rfl⟩ := List.exists_cons_of_ne_nil hne
    obtain ⟨hc, hrest⟩ := List.forall_mem_cons.1 hdigits
    have hzero : c ≠ '0' := by simpa using hhead
    have hminus : c ≠ '-' := by rintro rfl; cases hc
    refine ⟨c, digits, .whole, rfl, ?_, ?_, passes_digits (fun d hd => ?_) hrest, .inr rfl⟩
    · simp [start?, hminus, hzero, hc]
    · simp [next, hzero, hc]
    · simp [next, hd]

theorem exists_passes_fraction (h : IsFraction text) (hp : p = .zero ∨ p = .whole) :
    ∃ q, Passes p text q ∧ (q = .zero ∨ q = .whole ∨ q = .fraction) := by
  rcases h with rfl | ⟨digits, hdigits, rfl⟩
  · refine ⟨p, .nil, ?_⟩
    rcases hp with rfl | rfl <;> simp
  · have hpoint : p.next '.' = .ok (some .point) := by
      rcases hp with rfl | rfl <;> rfl
    refine ⟨.fraction, .cons hpoint (passes_of_isDigits (fun c hc => ?_) (fun c hc => ?_) hdigits), .inr (.inr rfl)⟩
    · simp [next, hc]
    · simp [next, hc]

theorem exists_passes_exponent (h : IsExponent text) (hp : p = .zero ∨ p = .whole ∨ p = .fraction) :
    ∃ q, Passes p text q ∧ q.complete = true := by
  rcases h with rfl | ⟨mark, sign, digits, hmark, hsign, hdigits, rfl⟩
  · refine ⟨p, .nil, ?_⟩
    rcases hp with rfl | rfl | rfl <;> rfl
  · have hexponent : p.next mark = .ok (some .exponent) := by
      rcases hp with rfl | rfl | rfl <;> rcases hmark with rfl | rfl <;> rfl
    have hmore : ∀ c : Char, c.isDigit = true → NumberPoint.exponentDigits.next c = .ok (some .exponentDigits) :=
      fun c hc => by simp [next, hc]
    refine ⟨.exponentDigits, .cons hexponent ?_, rfl⟩
    -- behind the mark stands a sign, or a digit at once
    have hsigned : ∀ mark, (mark = '+' ∨ mark = '-') → Passes .exponent ([mark] ++ digits) .exponentDigits := by
      intro mark hmark
      have hnext : NumberPoint.exponent.next mark = .ok (some .exponentSign) := by
        rcases hmark with rfl | rfl <;> rfl
      exact .cons hnext (passes_of_isDigits (fun c hc => by simp [next, hc]) hmore hdigits)
    rcases hsign with rfl | rfl | rfl
    · refine passes_of_isDigits (fun c hc => ?_) hmore hdigits
      have hplus : c ≠ '+' := by rintro rfl; cases hc
      have hminus : c ≠ '-' := by rintro rfl; cases hc
      simp [next, hplus, hminus, hc]
    · exact hsigned '+' (.inl rfl)
    · exact hsigned '-' (.inr rfl)

/-- What may follow a value ends a number. -/
theorem next_of_follows {c : Char} (hp : p.complete = true) (hf : Follows (c :: rest)) : p.next c = .ok none := by
  have hc := hf c rfl
  simp only [Reader.isSpace, Bool.or_eq_true, decide_eq_true_eq] at hc
  rcases hc with (((rfl | rfl) | rfl) | rfl) | rfl | rfl | rfl <;> cases p <;> first | rfl | cases hp

end NumberPoint

/-- A number is read from its first character to a point where it may end. -/
theorem Numeral.exists_passes (n : Numeral) : ∃ c text p q, n.text = c :: text ∧ NumberPoint.start? c = some p ∧
    NumberPoint.Passes p text q ∧ q.complete = true := by
  obtain ⟨c, digits, p, hwhole, hstart, hsigned, hdigits, hp⟩ := NumberPoint.exists_passes_whole n.isWhole
  obtain ⟨p', hfraction, hp'⟩ := NumberPoint.exists_passes_fraction n.isFraction hp
  obtain ⟨q, hexponent, hq⟩ := NumberPoint.exists_passes_exponent n.isExponent hp'
  have hrest := (hdigits.append hfraction).append hexponent
  rcases n.isSign with hsign | hsign
  · exact ⟨c, _, p, q, by simp [Numeral.text, hsign, hwhole], hstart, hrest, hq⟩
  · exact ⟨'-', _, .sign, q, by simp [Numeral.text, hsign, hwhole], rfl, .cons hsigned hrest, hq⟩

/-! ## Outcomes -/

/-- A reader is between two tokens. -/
def Point.IsGap : Point → Prop
  | .value _ | .colon _ | .opened | .after | .comma | .lastComma => True
  | _ => False

theorem Point.isGap_of_first {p : Point} (hp : p = .opened ∨ p = .comma) : p.IsGap := by
  rcases hp with rfl | rfl <;> trivial

namespace Reader

/-- The configuration that a reader ends with, if it accepts the text. -/
def outcome (r : Reader) (text : List Char) : Option Config := (text.foldlM step r >>= finish).toOption

variable {r r' : Reader} {c : Char} {text rest : List Char}

theorem outcome_nil (r : Reader) : r.outcome [] = r.finish.toOption := rfl

theorem outcome_cons (r : Reader) (c : Char) (text : List Char) :
    r.outcome (c :: text) = (r.step c).toOption.bind (outcome · text) := by
  unfold outcome
  rw [List.foldlM_cons]
  cases r.step c <;> rfl

theorem outcome_of_step (h : r.step c = .ok r') : r.outcome (c :: text) = r'.outcome text := by
  rw [outcome_cons, h]
  rfl

theorem outcome_of_error {e : ReadError} (h : r.step c = .error e) : r.outcome (c :: text) = none := by
  rw [outcome_cons, h]
  rfl

/-- Between tokens white space leaves a reader as it is. -/
theorem outcome_blank {blank : List Char} (hp : r.point.IsGap) (hb : IsBlank blank) (text : List Char) :
    r.outcome (blank ++ text) = r.outcome text := by
  induction blank with
  | nil => rfl
  | cons b blank ih =>
    obtain ⟨hspace, hblank⟩ := List.forall_mem_cons.1 hb
    have hstep : r.step b = .ok r := by
      unfold step
      cases hpoint : r.point <;> rw [hpoint] at hp <;> first | exact hp.elim | simp [hspace]
    exact (outcome_of_step hstep).trans (ih hblank)

/-! ### Words -/

theorem outcome_word (r : Reader) (target : Target) (meaning : Scalar) (more : List Char) :
    ∀ (next : Char) (rest : List Char),
      (r.expecting (.word next rest meaning target)).outcome (next :: (rest ++ more)) =
        (r.complete target meaning).toOption.bind (outcome · more)
  | next, [] => by
    rw [outcome_cons]
    have hstep : (r.expecting (.word next [] meaning target)).step next = r.complete target meaning := by
      rw [← complete_expecting r (.word next [] meaning target)]
      simp [step, expecting]
    rw [hstep]
    rfl
  | next, c :: rest => by
    have hstep : (r.expecting (.word next (c :: rest) meaning target)).step next =
        .ok (r.expecting (.word c rest meaning target)) := by
      simp [step, expecting]
    exact (outcome_of_step hstep).trans (outcome_word r target meaning more c rest)

/-! ### Strings and keys -/

theorem outcome_string (r : Reader) (target : Target) : ∀ (text : List Char) (s : StringState),
    (r.expecting (.string s target)).outcome text =
      (s.scan (target ≠ .skipped) text).bind fun found =>
        (r.complete target (.text found.1.text)).toOption.bind (outcome · found.2)
  | [], _ => rfl
  | c :: text, s => by
    rw [outcome_cons, step_string, StringState.scan]
    rcases s.step (target ≠ .skipped) c with e | _ | s'
    · rfl
    · rfl
    · exact outcome_string r target text s'

theorem outcome_key (r : Reader) : ∀ (text : List Char) (s : StringState),
    (r.expecting (.key s)).outcome text =
      (s.scan r.strictKey text).bind fun found => (r.completeKey found.1.text).toOption.bind (outcome · found.2)
  | [], _ => rfl
  | c :: text, s => by
    rw [outcome_cons, step_key, StringState.scan]
    rcases s.step r.strictKey c with e | _ | s'
    · rfl
    · rfl
    · exact outcome_key r text s'

/-! ### Numbers -/

theorem step_number (r : Reader) (p : NumberPoint) (chars : List Char) (target : Target) (c : Char) :
    (r.expecting (.number p chars target)).step c = (p.next c).bind fun next => match next with
      | some q => .ok (r.expecting (.number q (c :: chars) target))
      | none => ((r.expecting (.number p chars target)).completeNumber target chars).bind fun r =>
        if isSpace c then .ok r else r.stepAfter c := rfl

theorem completeNumber_expecting (r : Reader) (p : Point) (target : Target) (chars : List Char) :
    (r.expecting p).completeNumber target chars = r.completeNumber target chars := by
  unfold completeNumber
  split
  · rfl
  · simp only [complete_expecting]

theorem point_of_completeNumber {target : Target} {chars : List Char} (h : r.completeNumber target chars = .ok r') :
    r'.point = .after := by
  unfold completeNumber at h
  split at h
  · cases h
    rfl
  · cases hread : readNumber chars.reverse with
    | error e => rw [hread] at h; cases h
    | ok value => rw [hread] at h; exact point_of_complete h

theorem outcome_passes (r : Reader) (target : Target) {p q : NumberPoint} (h : NumberPoint.Passes p text q)
    (chars rest : List Char) : (r.expecting (.number p chars target)).outcome (text ++ rest) =
      (r.expecting (.number q (text.reverse ++ chars) target)).outcome rest := by
  induction h generalizing chars with
  | nil => rfl
  | @cons p q q' c text hnext _ ih =>
    have hstep : (r.expecting (.number p chars target)).step c = .ok (r.expecting (.number q (c :: chars) target)) := by
      rw [step_number, hnext]
      rfl
    rw [List.cons_append, outcome_of_step hstep, ih, List.reverse_cons, List.append_assoc]
    rfl

/-- What follows a number completes it. -/
theorem outcome_numberEnd (r : Reader) (target : Target) {p : NumberPoint} (hp : p.complete = true)
    (hf : Follows rest) (chars : List Char) : (r.expecting (.number p chars target)).outcome rest =
      (r.completeNumber target chars).toOption.bind (outcome · rest) := by
  cases rest with
  | nil =>
    have hfinish : (r.expecting (.number p chars target)).finish =
        (r.completeNumber target chars).bind finishAfter := by
      rw [← completeNumber_expecting r (.number p chars target)]
      exact if_pos hp
    rw [outcome_nil, hfinish]
    cases hread : r.completeNumber target chars with
    | error e => rfl
    | ok r' =>
      show _ = r'.outcome []
      rw [outcome_nil, finish, point_of_completeNumber hread]
      rfl
  | cons c rest =>
    -- the character that ends the number is read once more, as one behind a value
    rw [outcome_cons, step_number, NumberPoint.next_of_follows hp hf, completeNumber_expecting]
    cases hread : r.completeNumber target chars with
    | error e => rfl
    | ok r' =>
      show _ = r'.outcome (c :: rest)
      rw [outcome_cons]
      unfold step
      rw [point_of_completeNumber hread]
      rfl

theorem isSpace_of_start? {p : NumberPoint} (h : NumberPoint.start? c = some p) : isSpace c = false := by
  unfold NumberPoint.start? at h
  split_ifs at h with hminus hzero hdigit
  · rw [hminus]
    rfl
  · rw [hzero]
    rfl
  · exact isSpace_of_isDigit hdigit

theorem outcome_numeral (r : Reader) (target : Target) (n : Numeral) (hf : Follows rest) :
    (r.expecting (.value target)).outcome (n.text ++ rest) =
      (r.completeNumber target n.text.reverse).toOption.bind (outcome · rest) := by
  obtain ⟨c, text, p, q, htext, hstart, hpasses, hq⟩ := n.exists_passes
  have hstep : (r.expecting (.value target)).step c = .ok (r.expecting (.number p [c] target)) := by
    simp [step, expecting, isSpace_of_start? hstart, startValue, hstart]
  rw [htext, List.cons_append, outcome_of_step hstep, outcome_passes r target hpasses, outcome_numberEnd r target hq hf,
    List.reverse_cons]

/-! ### First characters -/

/-- A character that a value begins with. -/
structure Begins (c : Char) : Prop where
  space : isSpace c = false
  bracket : c ≠ ']'

theorem exists_tokens_begins (value : Json) : ∃ c token tokens, value.tokens = (c :: token) :: tokens ∧ Begins c := by
  cases value with
  | null => exact ⟨'n', _, _, rfl, rfl, by decide⟩
  | bool b => cases b <;> exact ⟨_, _, _, rfl, rfl, by decide⟩
  | number n =>
    obtain ⟨c, text, p, q, htext, hstart, -, -⟩ := n.exists_passes
    refine ⟨c, text, [], by rw [Json.tokens, htext], isSpace_of_start? hstart, ?_⟩
    rintro rfl
    cases hstart
  | string pieces => exact ⟨'"', _, _, rfl, rfl, by decide⟩
  | list items => cases items <;> exact ⟨'[', _, _, rfl, rfl, by decide⟩
  | object members => cases members <;> exact ⟨'\x7b', _, _, rfl, rfl, by decide⟩

/-- Where a value begins does not matter for it. -/
theorem startValue_expecting (r : Reader) (p : Point) (target : Target) (c : Char) :
    (r.expecting p).startValue target c = r.startValue target c := by
  unfold startValue
  split
  · rfl
  · split <;> rfl

/-- White space in front of a token is passed. -/
theorem exists_outcome_token {token : List Char} {tokens : List (List Char)} (hlayout : Layout (token :: tokens) text) :
    ∃ more, Layout tokens more ∧
      ∀ (r : Reader) (p : Point), p.IsGap → ∀ rest,
        (r.expecting p).outcome (text ++ rest) = (r.expecting p).outcome (token ++ (more ++ rest)) := by
  obtain _ | @⟨blank, _, more, _, hblank, hmore⟩ := hlayout
  refine ⟨more, hmore, fun r p hp rest => ?_⟩
  rw [List.append_assoc, outcome_blank (r := r.expecting p) hp hblank, List.append_assoc]

theorem outcome_token {token : List Char} (hlayout : Layout [token] text) (r : Reader) {p : Point} (hp : p.IsGap)
    (rest : List Char) : (r.expecting p).outcome (text ++ rest) = (r.expecting p).outcome (token ++ rest) := by
  obtain ⟨more, hmore, htext⟩ := exists_outcome_token hlayout
  cases hmore
  exact htext r p hp rest

/-- A reader between tokens that starts a value with its first character reads it. -/
theorem outcome_value {value : Json} {p : Point} (hp : p.IsGap) {target : Target} (hlayout : Layout value.tokens text)
    (hstart : ∀ c, Begins c → (r.expecting p).step c = r'.startValue target c) (rest : List Char) :
    (r.expecting p).outcome (text ++ rest) = (r'.expecting (.value target)).outcome (text ++ rest) := by
  obtain ⟨c, token, tokens, htokens, hc⟩ := exists_tokens_begins value
  rw [htokens] at hlayout
  obtain ⟨more, -, htext⟩ := exists_outcome_token hlayout
  have hvalue : (r'.expecting (.value target)).step c = r'.startValue target c := by
    rw [← startValue_expecting r' (.value target)]
    simp [step, expecting, hc.space]
  rw [htext r p hp, htext r' (.value target) trivial, List.cons_append, outcome_cons, outcome_cons, hstart c hc, hvalue]

/-! ### Scalars -/

theorem outcome_null (r : Reader) (target : Target) (hlayout : Layout Json.null.tokens text) (rest : List Char) :
    (r.expecting (.value target)).outcome (text ++ rest) =
      (r.complete target .null).toOption.bind (outcome · rest) := by
  rw [outcome_token hlayout r (p := .value target) trivial]
  exact (outcome_of_step rfl).trans (outcome_word r target .null rest 'u' ['l', 'l'])

theorem outcome_bool (r : Reader) (target : Target) {b : Bool} (hlayout : Layout (Json.bool b).tokens text)
    (rest : List Char) : (r.expecting (.value target)).outcome (text ++ rest) =
      (r.complete target (.bool b)).toOption.bind (outcome · rest) := by
  rw [outcome_token hlayout r (p := .value target) trivial]
  cases b with
  | false => exact (outcome_of_step rfl).trans (outcome_word r target (.bool false) rest 'a' ['l', 's', 'e'])
  | true => exact (outcome_of_step rfl).trans (outcome_word r target (.bool true) rest 'r' ['u', 'e'])

theorem outcome_number (r : Reader) (target : Target) {n : Numeral} (hlayout : Layout (Json.number n).tokens text)
    (hf : Follows rest) : (r.expecting (.value target)).outcome (text ++ rest) =
      (r.completeNumber target n.text.reverse).toOption.bind (outcome · rest) := by
  rw [outcome_token hlayout r (p := .value target) trivial]
  exact outcome_numeral r target n hf

theorem outcome_quoted (r : Reader) (target : Target) {pieces : List Piece}
    (hlayout : Layout (Json.string pieces).tokens text) (rest : List Char) :
    (r.expecting (.value target)).outcome (text ++ rest) =
      (StringState.start.scan (target ≠ .skipped) (pieces.flatMap Piece.text ++ '"' :: rest)).bind fun found =>
        (r.complete target (.text found.1.text)).toOption.bind (outcome · found.2) := by
  rw [outcome_token hlayout r (p := .value target) trivial, Piece.quoted, List.cons_append, List.append_assoc]
  exact (outcome_of_step rfl).trans (outcome_string r target _ .start)

/-! ### Keys -/

/-- A key of an object is read to its closing quote. -/
theorem outcome_quotedKey {p : Point} (hp : p = .opened ∨ p = .comma) {bracket : Bracket} {outer : List Bracket}
    (hb : r.brackets = bracket :: outer) (hshape : bracket.shape = .object) (key : List Piece) (rest : List Char) :
    (r.expecting p).outcome (Piece.quoted key ++ rest) =
      (StringState.start.scan bracket.strict (key.flatMap Piece.text ++ '"' :: rest)).bind fun found =>
        (r.completeKey found.1.text).toOption.bind (outcome · found.2) := by
  have hstep : (r.expecting p).step '"' = .ok (r.expecting (.key .start)) := by
    rcases hp with rfl | rfl <;> simp [step, expecting, isSpace, stepOpened, stepComma, hb, hshape]
  have hstrict : r.strictKey = bracket.strict := by
    simp [strictKey, hb]
  rw [Piece.quoted, List.cons_append, List.append_assoc, outcome_of_step hstep, outcome_key, hstrict]
  rfl

theorem outcome_colon (r : Reader) (target : Target) (rest : List Char) :
    (r.expecting (.colon target)).outcome (':' :: rest) = (r.expecting (.value target)).outcome rest :=
  outcome_of_step rfl

/-! ### Brackets and commas -/

theorem outcome_openSkipped (r : Reader) {shape : Shape} {c : Char}
    (hc : shape = .list ∧ c = '[' ∨ shape = .object ∧ c = '\x7b') (rest : List Char) :
    (r.expecting (.value .skipped)).outcome (c :: rest) =
      ({ r with brackets := .skipped shape :: r.brackets }.expecting .opened).outcome rest := by
  rcases hc with ⟨rfl, rfl⟩ | ⟨rfl, rfl⟩ <;> exact outcome_of_step rfl

/-- The closing bracket of the innermost object or list. -/
theorem outcome_close {p : Point} (hp : p = .opened ∨ p = .after) {bracket : Bracket} {outer : List Bracket}
    (hb : r.brackets = bracket :: outer) {c : Char}
    (hc : bracket.shape = .list ∧ c = ']' ∨ bracket.shape = .object ∧ c = '\x7d') (hlayout : Layout [[c]] text)
    (rest : List Char) : (r.expecting p).outcome (text ++ rest) = r.close.outcome rest := by
  have hgap : p.IsGap := by
    rcases hp with rfl | rfl <;> trivial
  have hclose : (r.expecting p).close = r.close := by
    unfold close
    rw [show (r.expecting p).brackets = r.brackets from rfl, hb]
    cases bracket with
    | settings group _ _ => cases group <;> rfl
    | skipped _ => rfl
  rw [outcome_token hlayout r hgap, ← hclose]
  refine outcome_of_step ?_
  rcases hc with ⟨hshape, rfl⟩ | ⟨hshape, rfl⟩ <;> rcases hp with rfl | rfl <;>
    simp [step, expecting, isSpace, stepOpened, stepAfter, hb, hshape]

/-- A comma in an object or a list that may go on. -/
theorem exists_outcome_comma {bracket : Bracket} {outer : List Bracket} (hb : r.brackets = bracket :: outer)
    (hfull : full bracket = false) {tokens : List (List Char)} (hlayout : Layout ([','] :: tokens) text) :
    ∃ more, Layout tokens more ∧
      ∀ rest, (r.expecting .after).outcome (text ++ rest) = (r.expecting .comma).outcome (more ++ rest) := by
  obtain ⟨more, hmore, htext⟩ := exists_outcome_token hlayout
  refine ⟨more, hmore, fun rest => (htext r .after trivial rest).trans (outcome_of_step ?_)⟩
  cases hshape : bracket.shape <;> simp [step, expecting, isSpace, stepAfter, hb, hshape, hfull]

/-! ### Skipped values -/

theorem outcome_skippedElement {p : Point} (hp : p = .opened ∨ p = .comma) {outer : List Bracket}
    (hb : r.brackets = .skipped .list :: outer) {value : Json} (hlayout : Layout value.tokens text) (rest : List Char) :
    (r.expecting p).outcome (text ++ rest) = (r.expecting (.value .skipped)).outcome (text ++ rest) := by
  refine outcome_value (Point.isGap_of_first hp) hlayout (fun c hc => ?_) rest
  rw [← startValue_expecting r p]
  rcases hp with rfl | rfl <;>
    simp [step, expecting, hc.space, hc.bracket, stepOpened, stepComma, startElement, hb, Bracket.shape, Bracket.strict]

theorem exists_outcome_skippedKey {p : Point} (hp : p = .opened ∨ p = .comma) {outer : List Bracket}
    (hb : r.brackets = .skipped .object :: outer) {key : List Piece} {tokens : List (List Char)}
    (hlayout : Layout (Piece.quoted key :: [':'] :: tokens) text) : ∃ more, Layout tokens more ∧ ∀ rest,
      (r.expecting p).outcome (text ++ rest) = (r.expecting (.value .skipped)).outcome (more ++ rest) := by
  obtain ⟨more, hmore, htext⟩ := exists_outcome_token hlayout
  obtain ⟨more', hmore', htext'⟩ := exists_outcome_token hmore
  refine ⟨more', hmore', fun rest => ?_⟩
  obtain ⟨s, hs⟩ := StringState.exists_scan_skipped key [] (more ++ rest)
  rw [htext r p (Point.isGap_of_first hp), outcome_quotedKey hp hb rfl]
  show Option.bind (StringState.scan false ⟨[], .closed⟩ _) _ = _
  rw [hs]
  have hkey : r.completeKey s.text = .ok (r.expecting (.colon .skipped)) := by
    simp [completeKey, hb, expecting]
  show (r.completeKey s.text).toOption.bind _ = _
  rw [hkey]
  exact (htext' r (.colon .skipped) trivial rest).trans (outcome_colon r .skipped _)

mutual

/-- A value that is skipped leaves the reader as it was. -/
theorem outcome_skipped (r : Reader) {rest : List Char} (hf : Follows rest) : ∀ (value : Json) {text : List Char},
    Layout value.tokens text →
      (r.expecting (.value .skipped)).outcome (text ++ rest) = (r.expecting .after).outcome rest
  | .null, _, h => outcome_null r .skipped h rest
  | .bool b, _, h => outcome_bool r .skipped h rest
  | .number n, _, h => outcome_number r .skipped h hf
  | .string pieces, _, h => by
    obtain ⟨s, hs⟩ := StringState.exists_scan_skipped pieces [] rest
    rw [outcome_quoted r .skipped h]
    show Option.bind (StringState.scan false ⟨[], .closed⟩ _) _ = _
    rw [hs]
    rfl
  | .list [], _, h => by
    obtain ⟨more, hmore, htext⟩ := exists_outcome_token h
    rw [htext r (.value .skipped) trivial, List.singleton_append, outcome_openSkipped r (.inl ⟨rfl, rfl⟩)]
    exact outcome_close (.inl rfl) rfl (.inl ⟨rfl, rfl⟩) hmore rest
  | .list (item :: items), _, h => by
    obtain ⟨more, hmore, htext⟩ := exists_outcome_token h
    obtain ⟨front, back, rfl, hfront, hback⟩ := hmore.exists_of_append
    rw [htext r (.value .skipped) trivial, List.singleton_append, List.append_assoc,
      outcome_openSkipped r (.inl ⟨rfl, rfl⟩), outcome_skippedElement (.inl rfl) rfl hfront,
      outcome_skipped _ (follows_itemTokens hback rest) item hfront]
    exact outcome_skippedItems _ rfl rest items hback
  | .object [], _, h => by
    obtain ⟨more, hmore, htext⟩ := exists_outcome_token h
    rw [htext r (.value .skipped) trivial, List.singleton_append, outcome_openSkipped r (.inr ⟨rfl, rfl⟩)]
    exact outcome_close (.inl rfl) rfl (.inr ⟨rfl, rfl⟩) hmore rest
  | .object ((key, value) :: members), _, h => by
    obtain ⟨more, hmore, htext⟩ := exists_outcome_token h
    rw [htext r (.value .skipped) trivial, List.singleton_append, outcome_openSkipped r (.inr ⟨rfl, rfl⟩)]
    obtain ⟨more', hmore', hkey⟩ :=
      exists_outcome_skippedKey (r := { r with brackets := .skipped .object :: r.brackets }) (.inl rfl) rfl hmore
    obtain ⟨front, back, rfl, hfront, hback⟩ := hmore'.exists_of_append
    rw [hkey, List.append_assoc, outcome_skipped _ (follows_memberTokens hback rest) value hfront]
    exact outcome_skippedMembers _ rfl rest members hback

theorem outcome_skippedItems (r : Reader) {outer : List Bracket} (hb : r.brackets = .skipped .list :: outer)
    (rest : List Char) : ∀ (items : List Json) {text : List Char}, Layout (itemTokens items) text →
      (r.expecting .after).outcome (text ++ rest) = ({ r with brackets := outer }.expecting .after).outcome rest
  | [], _, h => by
    refine (outcome_close (.inr rfl) hb (.inl ⟨rfl, rfl⟩) h rest).trans ?_
    simp [close, hb, expecting]
  | item :: items, _, h => by
    obtain ⟨more, hmore, hcomma⟩ := exists_outcome_comma hb rfl h
    obtain ⟨front, back, rfl, hfront, hback⟩ := hmore.exists_of_append
    rw [hcomma, List.append_assoc, outcome_skippedElement (.inr rfl) hb hfront,
      outcome_skipped _ (follows_itemTokens hback rest) item hfront]
    exact outcome_skippedItems r hb rest items hback

theorem outcome_skippedMembers (r : Reader) {outer : List Bracket} (hb : r.brackets = .skipped .object :: outer)
    (rest : List Char) : ∀ (members : List Member) {text : List Char}, Layout (memberTokens members) text →
      (r.expecting .after).outcome (text ++ rest) = ({ r with brackets := outer }.expecting .after).outcome rest
  | [], _, h => by
    refine (outcome_close (.inr rfl) hb (.inr ⟨rfl, rfl⟩) h rest).trans ?_
    simp [close, hb, expecting]
  | (key, value) :: members, _, h => by
    obtain ⟨more, hmore, hcomma⟩ := exists_outcome_comma hb rfl h
    obtain ⟨more', hmore', hkey⟩ := exists_outcome_skippedKey (.inr rfl) hb hmore
    obtain ⟨front, back, rfl, hfront, hback⟩ := hmore'.exists_of_append
    rw [hcomma, hkey, List.append_assoc, outcome_skipped _ (follows_memberTokens hback rest) value hfront]
    exact outcome_skippedMembers r hb rest members hback

end

end Reader

end ScriptHost.Config
