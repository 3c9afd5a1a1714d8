/-
Reading a written expression. The forms are tried one after the other, and none is taken for one that is tried
before it: words are words of their own, only a string begins with a quote and only a number with a digit, and
the constructor of an error is no path.
-/
import ScriptHost.Proofs.Script.Written
import Mathlib.Tactic

namespace ScriptHost.Script

open ScriptHost.Text

/-! ## Words, quotes and numbers -/

/-- The texts of the expressions that are single words. -/
def words : List (List Char) := ["undefined".toList, "true".toList, "false".toList, "\x7b\x7d".toList]

theorem wordExpr?_eq_none {text : List Char} (h : text ∉ words) : wordExpr? text = none := by
  have hmem : ∀ word : String, String.ofList text = word → word.toList ∈ words → text ∈ words := by
    rintro _ rfl hword
    rwa [String.toList_ofList] at hword
  unfold wordExpr?
  split
  next heq => exact absurd (hmem _ heq (by decide)) h
  next heq => exact absurd (hmem _ heq (by decide)) h
  next heq => exact absurd (hmem _ heq (by decide)) h
  next heq => exact absurd (hmem _ heq (by decide)) h
  next => rfl

/-- No word could be read as something else. -/
theorem word_not_literal : ∀ word ∈ words, quotedText? word = none ∧ startsNumber word = false ∧ '(' ∉ word := by
  decide

theorem quotedText?_quote {q : Char} (hq : Scan.isQuote q = true) (value : String) :
    quotedText? (q :: (value.toList ++ [q])) = some value := by
  simp [quotedText?, hq, dropLast?]

theorem quotedText?_of_isPlain {c : Char} {rest : List Char} (h : isPlain c = true) :
    quotedText? (c :: rest) = none := by
  have hs := isStructural_of_isPlain h
  simp only [isStructural, Bool.or_eq_false_iff] at hs
  simp [quotedText?, hs.1.1]

theorem isPlain_of_startsNumber {c : Char} {rest : List Char} (h : startsNumber (c :: rest) = true) :
    isPlain c = true := by
  simp only [startsNumber, List.head?_cons, Option.any_some, Bool.or_eq_true, decide_eq_true_eq] at h
  rcases h with h | rfl
  · simp [isPlain, Decimal.inNumeral_of_isDigit h]
  · rfl

theorem isPlain_of_startsName {c : Char} (h : startsName c = true) : isPlain c = true :=
  isPlain_of_inName (inName_of_startsName h)

theorem isDigit_of_isAlpha {c : Char} (h : c.isAlpha = true) : c.isDigit = false := by
  rw [← Bool.not_eq_true]
  intro hd
  simp only [Char.isAlpha, Char.isUpper, Char.isLower, Char.isDigit, Bool.or_eq_true, Bool.and_eq_true,
    decide_eq_true_eq, UInt32.le_iff_toNat_le, ge_iff_le] at h hd
  change (65 ≤ c.val.toNat ∧ _) ∨ (97 ≤ c.val.toNat ∧ _) at h
  change _ ∧ c.val.toNat ≤ 57 at hd
  omega

theorem startsNumber_of_startsName {c : Char} {rest : List Char} (h : startsName c = true) :
    startsNumber (c :: rest) = false := by
  simp only [startsName, Bool.or_eq_true, decide_eq_true_eq] at h
  rcases h with (h | rfl) | rfl
  · have hminus : c ≠ '-' := by
      rintro rfl
      cases h
    simp [startsNumber, isDigit_of_isAlpha h, hminus]
  · rfl
  · rfl

/-! ## Constructors and calls -/

theorem dropLast?_concat (last : Char) (text : List Char) : dropLast? last (text ++ [last]) = some text := by
  simp [dropLast?]

theorem dropStart?_eq_some {start text rest : List Char} (h : start ++ rest = text) :
    dropStart? start text = some rest :=
  List.isPrefixOf?_eq_some_iff_append_eq.2 h

/-- A plain text begins with nothing that is not plain. -/
theorem dropStart?_of_isPlain {start text : List Char} {c : Char} (hc : c ∈ start) (hplain : isPlain c = false)
    (h : ∀ d ∈ text, isPlain d = true) : dropStart? start text = none := by
  cases hdrop : dropStart? start text with
  | none => rfl
  | some rest =>
    rw [dropStart?, List.isPrefixOf?_eq_some_iff_append_eq] at hdrop
    have hmem : c ∈ text := hdrop ▸ List.mem_append_left rest hc
    exact absurd (hplain.symm.trans (h c hmem)) Bool.false_ne_true

/-- A text begins with nothing that goes on differently behind its plain front. -/
theorem dropStart?_append_cons {start word front more : List Char} {c d : Char} (hstart : start = word ++ c :: more)
    (hword : word.all isPlain = true) (hfront : ∀ d ∈ front, isPlain d = true) (hc : isPlain c = false)
    (hd : isPlain d = false) (hne : front = word → d ≠ c) (rest : List Char) :
    dropStart? start (front ++ d :: rest) = none := by
  cases hdrop : dropStart? start (front ++ d :: rest) with
  | none => rfl
  | some behind =>
    rw [dropStart?, List.isPrefixOf?_eq_some_iff_append_eq, hstart, List.append_assoc, List.cons_append] at hdrop
    obtain ⟨rfl, rfl, -⟩ := append_cons_inj_of_isPlain (List.all_eq_true.1 hword) hfront hc hd hdrop
    exact absurd rfl (hne rfl)

theorem word_blank_error : "new Error(".toList = "new".toList ++ ' ' :: "Error(".toList := rfl

theorem splitAtBracket_append {front : List Char} (h : '(' ∉ front) (rest : List Char) :
    splitAtBracket (front ++ '(' :: rest) = some (front, rest) := by
  induction front with
  | nil => rfl
  | cons c front ih =>
    obtain ⟨hc, hfront⟩ := not_or.1 (mt List.mem_cons.2 h)
    simp [splitAtBracket, Ne.symm hc, ih hfront]

theorem splitAtBracket_eq_none {text : List Char} (h : '(' ∉ text) : splitAtBracket text = none := by
  induction text with
  | nil => rfl
  | cons c text ih =>
    obtain ⟨hc, htext⟩ := not_or.1 (mt List.mem_cons.2 h)
    simp [splitAtBracket, Ne.symm hc, ih htext]

theorem splitCall_enclose {front : List Char} (h : '(' ∉ front) (ht : Tight front) (inner : List Char) :
    splitCall (enclose front inner) = some (front, argumentTexts inner) := by
  rw [splitCall, enclose, splitAtBracket_append h]
  simp only [dropLast?_concat, Option.map_some, ht.trim_eq]

theorem separating_comma : Separating (· = ',') := .single rfl

/-- The blank behind a comma is trimmed away. -/
theorem map_trim_topLevelParts_cons {separator : Char → Bool} (hsep : Separating separator) (text : List Char) :
    (topLevelParts separator (' ' :: text)).map trim = (topLevelParts separator text).map trim := by
  have hblank : Uncut separator .start [' '] .start := .blank hsep
  rw [← List.singleton_append, hblank.topLevelParts_append]
  cases topLevelParts separator text with
  | nil => rfl
  | cons first more => simp [trim_cons_of_blank (show isBlank ' ' = true from rfl)]

theorem map_trim_topLevelParts : ∀ {arg : List Char} {args : List (List Char)},
    (∀ text ∈ arg :: args, Tight text ∧ Uncut (· = ',') .start text .start) →
    (topLevelParts (· = ',') ([',', ' '].intercalate (arg :: args))).map trim = arg :: args
  | arg, [], h => by
    obtain ⟨htight, huncut⟩ := h arg List.mem_cons_self
    rw [List.intercalate_singleton, huncut.topLevelParts_eq, List.map_singleton, htight.trim_eq]
  | arg, next :: args, h => by
    obtain ⟨⟨htight, huncut⟩, hrest⟩ := List.forall_mem_cons.1 h
    have htext : [',', ' '].intercalate (arg :: next :: args) =
        arg ++ ',' :: ' ' :: [',', ' '].intercalate (next :: args) := by
      simp [List.intercalate_cons_cons]
    rw [htext, huncut.topLevelParts_append_cons (by simp) rfl, List.map_cons, htight.trim_eq,
      map_trim_topLevelParts_cons separating_comma, map_trim_topLevelParts hrest]

/-- The arguments of a call are cut at the commas between them. -/
theorem argumentTexts_intercalate {args : List (List Char)}
    (h : ∀ text ∈ args, Tight text ∧ Uncut (· = ',') .start text .start) :
    argumentTexts ([',', ' '].intercalate args) = args := by
  cases args with
  | nil => rfl
  | cons arg args =>
    rw [argumentTexts, map_trim_topLevelParts h, List.filter_eq_self]
    intro text htext
    simpa using (h text htext).1.ne_nil

/-! ## Expressions -/

namespace Expr

theorem ofText_word {text : List Char} {e : Expr} (h : wordExpr? text = some e) (hne : text ≠ []) :
    ofText text = .ok e := by
  rw [ofText]
  simp [h, hne]

theorem ofText_quote {text : List Char} {value : String} (h : quote? value = some text) :
    ofText text = .ok (.text value) := by
  obtain ⟨q, hq, -, rfl⟩ := quote?_eq_some h
  have hquoted := quotedText?_quote hq value
  have hword : wordExpr? (q :: (value.toList ++ [q])) = none := wordExpr?_eq_none fun hmem => by
    rw [(word_not_literal _ hmem).1] at hquoted
    cases hquoted
  rw [ofText]
  simp [hword, hquoted]

theorem ofText_number {text : List Char} {x : Float} (h : startsNumber text = true)
    (hread : Decimal.read? text = some x) : ofText text = .ok (.number x) := by
  cases text with
  | nil => cases h
  | cons c rest =>
    -- a numeral has no quote in it and is none of the words
    have hquoted : quotedText? (c :: rest) = none := quotedText?_of_isPlain (isPlain_of_startsNumber h)
    have hword : wordExpr? (c :: rest) = none := wordExpr?_eq_none fun hmem => by
      rw [(word_not_literal _ hmem).2.1] at h
      cases h
    unfold startsNumber at h
    rw [ofText]
    simp only [hword, hquoted, h, hread]
    rfl

/-- What is left of the reader where a text begins with a name. -/
def ofNamed (text : List Char) : Except SyntaxError Expr :=
  match (dropStart? "new Error(".toList text).bind (dropLast? ')') with
  | some inner => errorExpr inner
  | none =>
    match splitCall text with
    | some (callee, parts) =>
      match pathOf? callee with
      | none => .error (.unexpectedToken (String.ofList text))
      | some names => (parts.mapM ofText).map (.call names)
    | none =>
      match pathOf? text with
      | some names => .ok (.path names)
      | none => .error (.unexpectedToken (String.ofList text))

theorem ofText_of_startsName {text : List Char} (h : ∃ c rest, text = c :: rest ∧ startsName c = true)
    (hword : text ∉ words) : ofText text = ofNamed text := by
  obtain ⟨c, rest, rfl, hc⟩ := h
  have hnumber : startsNumber (c :: rest) = false := startsNumber_of_startsName hc
  unfold startsNumber at hnumber
  rw [ofText]
  simp only [wordExpr?_eq_none hword, quotedText?_of_isPlain (isPlain_of_startsName hc), hnumber, List.isEmpty_cons]
  -- the reader of arguments carries a proof that each is shorter; without it it is a plain `mapM`
  have hparts : ∀ parts : List (List Char), parts.attach.mapM (fun part => ofText part.1) = parts.mapM ofText :=
    fun parts => by rw [List.mapM_subtype fun _ _ => rfl, List.unattach_attach]
  simp only [hparts, Bool.false_eq_true, if_false, ofNamed]
  cases (dropStart? "new Error(".toList (c :: rest)).bind (dropLast? ')') with
  | some inner => rfl
  | none =>
    dsimp only
    split
    next callee parts hcall =>
      rw [hcall]
      dsimp only
      cases pathOf? callee with
      | none => rfl
      | some names => cases parts.mapM ofText <;> rfl
    next hcall => cases pathOf? (c :: rest) <;> simp only [hcall]

theorem ofText_error {text : List Char} {message : String} (h : quote? message = some text) :
    ofText (enclose "new Error".toList text) = .ok (.error ("Error: " ++ message)) := by
  obtain ⟨q, hq, -, hquote⟩ := quote?_eq_some h
  have hblank := isBlank_of_isQuote hq
  have htight : Tight text := hquote ▸ .of_cons_concat hblank hblank _
  have hname : ∃ c rest, enclose "new Error".toList text = c :: rest ∧ startsName c = true :=
    ⟨'n', "ew Error".toList ++ '(' :: (text ++ [')']), rfl, rfl⟩
  have hbracket : '(' ∈ enclose "new Error".toList text := by simp [enclose]
  have hdrop : dropStart? "new Error(".toList (enclose "new Error".toList text) = some (text ++ [')']) :=
    dropStart?_eq_some rfl
  rw [ofText_of_startsName hname fun hmem => (word_not_literal _ hmem).2.2 hbracket, ofNamed, hdrop,
    Option.bind_some, dropLast?_concat]
  simp only [errorExpr, htight.trim_eq]
  rw [hquote, quotedText?_quote hq]

theorem ofText_path {names : List String} (h : IsValuePath names) :
    ofText (pathText names) = .ok (.path names) := by
  have hword : pathText names ∉ words := by
    intro hmem
    have hpath := pathOf?_pathText h.toIsPath
    simp only [words, List.mem_cons, List.not_mem_nil, or_false] at hmem
    rcases hmem with hmem | hmem | hmem | hmem <;> rw [hmem] at hpath
    · exact h.not_word "undefined" (by simp) (Option.some.inj hpath).symm
    · exact h.not_word "true" (by simp) (Option.some.inj hpath).symm
    · exact h.not_word "false" (by simp) (Option.some.inj hpath).symm
    · cases hpath
  have hbracket : '(' ∉ pathText names := fun hmem => Bool.false_ne_true (h.isPlain _ hmem)
  have hblank : ' ' ∈ "new Error(".toList := by decide
  rw [ofText_of_startsName h.startsName hword, ofNamed, dropStart?_of_isPlain hblank rfl h.isPlain, splitCall,
    splitAtBracket_eq_none hbracket, pathOf?_pathText h.toIsPath]
  rfl

theorem mapM_ofText {args : List (Expr × List Char)} (h : ∀ arg ∈ args, ofText arg.2 = .ok arg.1) :
    (args.map (·.2)).mapM ofText = .ok (args.map (·.1)) := by
  induction args with
  | nil => rfl
  | cons arg args ih =>
    obtain ⟨harg, hargs⟩ := List.forall_mem_cons.1 h
    rw [List.map_cons, List.mapM_cons, harg, ih hargs]
    rfl

theorem ofText_call {callee : List String} {args : List (Expr × List Char)} (h : IsPath callee)
    (hargs : ∀ arg ∈ args, Tight arg.2 ∧ Uncut (· = ',') .start arg.2 .start)
    (hread : ∀ arg ∈ args, ofText arg.2 = .ok arg.1) :
    ofText (enclose (pathText callee) ([',', ' '].intercalate (args.map (·.2)))) =
      .ok (.call callee (args.map (·.1))) := by
  obtain ⟨c, rest, hcallee, hc⟩ := h.startsName
  have hname : ∃ c rest, enclose (pathText callee) ([',', ' '].intercalate (args.map (·.2))) = c :: rest ∧
      startsName c = true := ⟨c, _, by rw [hcallee]; rfl, hc⟩
  have hbracket : '(' ∉ pathText callee := fun hmem => Bool.false_ne_true (h.isPlain _ hmem)
  -- no callee is `new Error`, which has a blank in it
  have hdrop : dropStart? "new Error(".toList (enclose (pathText callee) ([',', ' '].intercalate (args.map (·.2)))) =
      none :=
    dropStart?_append_cons word_blank_error rfl h.isPlain rfl rfl (fun _ => by decide) _
  have htexts : ∀ text ∈ args.map (·.2), Tight text ∧ Uncut (· = ',') .start text .start := by
    simpa using fun text e harg => hargs (e, text) harg
  rw [ofText_of_startsName hname fun hmem => (word_not_literal _ hmem).2.2 (by simp [enclose]), ofNamed, hdrop,
    splitCall_enclose hbracket h.tight, argumentTexts_intercalate htexts]
  simp only [pathOf?_pathText h, mapM_ofText hread, Option.bind_none]
  rfl

end Expr

/-- A written expression is read as it is. -/
theorem Expr.Written.ofText_eq {e : Expr} {text : List Char} (h : e.Written text) : Expr.ofText text = .ok e := by
  induction h with
  | undefined => exact ofText_word rfl (by decide)
  | bool value => cases value <;> exact ofText_word rfl (by decide)
  | object => exact ofText_word rfl (by decide)
  | number hstart hread => exact ofText_number hstart hread
  | text hquote => exact ofText_quote hquote
  | error hquote => exact ofText_error hquote
  | path hpath => exact ofText_path hpath
  | call hcallee hargs ih =>
    exact ofText_call hcallee (fun arg harg => ⟨(hargs arg harg).tight, (hargs arg harg).uncut separating_comma⟩) ih

end ScriptHost.Script
