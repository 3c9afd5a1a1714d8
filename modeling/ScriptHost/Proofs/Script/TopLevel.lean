/-
Where a text is cut. A quotation goes from a quote to the next same quote, whatever else stands between them; a
text at whose end no quote is open is made of quotations and of characters outside them, and the brackets among
the latter tell its depth, which a stray closing bracket does not take below zero. Main result: the top-level
parts and the characters cut out between them are the whole text; a character is cut just where it is a separator
and the text before it ends outside quotations at depth zero; and no part is cut again.
-/
import ScriptHost.Proofs.Script.Cut
import Mathlib.Tactic

namespace ScriptHost.Script

/-! ## Outside quotes and brackets -/

/-- A text at whose end no quote is open, and the characters of it that stand outside quotations. -/
inductive Unquoted : List Char → List Char → Prop where
  | nil : Unquoted [] []
  | outside {c : Char} {text bare : List Char} (hc : Scan.isQuote c = false) (h : Unquoted text bare) :
      Unquoted (c :: text) (c :: bare)
  | quotation {q : Char} {inner text bare : List Char} (hq : Scan.isQuote q = true) (hinner : q ∉ inner)
      (h : Unquoted text bare) : Unquoted (q :: (inner ++ q :: text)) bare

/-- The brackets left open behind those that were. A closing bracket where none is open closes none. -/
def bracketDepth (depth : Nat) (bare : List Char) : Nat :=
  bare.foldl (fun depth c => if Scan.opens c then depth + 1 else if Scan.closes c then depth - 1 else depth) depth

namespace Scan

variable {text : List Char} {depth : Nat}

theorem run_append (s : Scan) (text more : List Char) : s.run (text ++ more) = (s.run text).run more :=
  List.foldl_append

/-- Only the quote itself ends a quotation. -/
theorem run_inside {q : Char} (h : q ∉ text) : run ⟨some q, depth⟩ text = ⟨some q, depth⟩ := by
  induction text with
  | nil => rfl
  | cons c text ih =>
    obtain ⟨hc, htext⟩ := not_or.1 (mt List.mem_cons.2 h)
    have hstep : step ⟨some q, depth⟩ c = ⟨some q, depth⟩ := if_neg (Ne.symm hc)
    rw [run, List.foldl_cons, hstep]
    exact ih htext

theorem run_quotation {q : Char} {inner : List Char} (hq : isQuote q = true) (hinner : q ∉ inner)
    (text : List Char) : run ⟨none, depth⟩ (q :: (inner ++ q :: text)) = run ⟨none, depth⟩ text := by
  have hopen : step ⟨none, depth⟩ q = ⟨some q, depth⟩ := if_pos hq
  have hclose : step ⟨some q, depth⟩ q = ⟨none, depth⟩ := if_pos rfl
  calc run ⟨none, depth⟩ (q :: (inner ++ q :: text))
      = run (step ⟨none, depth⟩ q) (inner ++ q :: text) := rfl
    _ = run (run ⟨some q, depth⟩ inner) (q :: text) := by rw [hopen, run_append]
    _ = run (step ⟨some q, depth⟩ q) text := by rw [run_inside hinner]; rfl
    _ = run ⟨none, depth⟩ text := by rw [hclose]

theorem step_outside {c : Char} (hc : isQuote c = false) :
    step ⟨none, depth⟩ c = ⟨none, bracketDepth depth [c]⟩ := by
  simp only [step, hc, Bool.false_eq_true, if_false, bracketDepth, List.foldl_cons, List.foldl_nil]
  split_ifs <;> rfl

theorem run_unquoted {bare : List Char} (h : Unquoted text bare) :
    ∀ depth, run ⟨none, depth⟩ text = ⟨none, bracketDepth depth bare⟩ := by
  induction h with
  | nil => exact fun _ => rfl
  | outside hc _ ih =>
    -- brackets count outside quotations only, and `bare` is what stands there
    intro depth
    rw [run, List.foldl_cons, step_outside hc]
    exact ih _
  | quotation hq hinner _ ih =>
    intro depth
    rw [run_quotation hq hinner]
    exact ih depth

end Scan

/-- Where a scan ends outside quotes, every quote that it met has been closed. -/
theorem exists_unquoted (text : List Char) (depth : Nat) (h : (Scan.run ⟨none, depth⟩ text).quote = none) :
    ∃ bare, Unquoted text bare :=
  match text with
  | [] => ⟨[], .nil⟩
  | c :: rest => by
    cases hc : Scan.isQuote c with
    | false =>
      rw [Scan.run, List.foldl_cons, Scan.step_outside hc] at h
      obtain ⟨bare, hbare⟩ := exists_unquoted rest _ h
      exact ⟨c :: bare, .outside hc hbare⟩
    | true =>
      have hopen : Scan.step ⟨none, depth⟩ c = ⟨some c, depth⟩ := if_pos hc
      have hmem : c ∈ rest := by
        by_contra hne
        rw [Scan.run, List.foldl_cons, hopen] at h
        exact Option.some_ne_none c ((congrArg Scan.quote (Scan.run_inside hne)).symm.trans h)
      -- A quotation goes at once, so the recursion is on what is left behind it and not on the rest.
      obtain ⟨inner, more, rfl, hinner⟩ := List.eq_append_cons_of_mem hmem
      rw [Scan.run_quotation hc hinner] at h
      obtain ⟨bare, hbare⟩ := exists_unquoted more depth h
      exact ⟨bare, .quotation hc hinner hbare⟩
termination_by text.length

/-- What it is for a scan from the start to be at the top level, said of the text alone. -/
theorem Scan.atTop_run_start_iff (text : List Char) :
    (start.run text).atTop = true ↔ ∃ bare, Unquoted text bare ∧ bracketDepth 0 bare = 0 := by
  constructor
  · intro htop
    have hstart : start.run text = start := eq_start_of_atTop htop
    obtain ⟨bare, hbare⟩ := exists_unquoted text 0 (congrArg Scan.quote hstart)
    exact ⟨bare, hbare, congrArg Scan.depth ((run_unquoted hbare 0).symm.trans hstart)⟩
  · rintro ⟨bare, hbare, hdepth⟩
    have hrun : start.run text = ⟨none, bracketDepth 0 bare⟩ := run_unquoted hbare 0
    rw [hrun, hdepth]
    rfl

/-! ## Parts and cuts -/

/-- The parts of a text that begins at a given position, with one character cut out between any two of them, and
these characters with their positions. -/
inductive Interleaved : Nat → List Char → List (List Char) → List (Nat × Char) → Prop where
  | last (position : Nat) (part : List Char) : Interleaved position part [part] []
  | cut {position : Nat} {text : List Char} {parts : List (List Char)} {found : List (Nat × Char)}
      (part : List Char) (c : Char) (h : Interleaved (position + part.length + 1) text parts found) :
      Interleaved position (part ++ c :: text) (part :: parts) ((position + part.length, c) :: found)

/-- A character that is not cut goes to the front of the first part. -/
theorem Interleaved.cons {position : Nat} {text part : List Char} {parts : List (List Char)}
    {found : List (Nat × Char)} (c : Char) (h : Interleaved (position + 1) text (part :: parts) found) :
    Interleaved position (c :: text) ((c :: part) :: parts) found := by
  cases h with
  | last => exact .last position (c :: text)
  | cut _ d hrest =>
    have hlength : position + 1 + part.length = position + (c :: part).length := by
      rw [List.length_cons, Nat.add_right_comm, Nat.add_assoc]
    rw [hlength] at hrest ⊢
    exact .cut (c :: part) d hrest

/-- What stands from some place on is the character there or stands behind it. -/
theorem getElem?_append_cons_iff {before text : List Char} {c d : Char} {i : Nat} :
    before.length ≤ i ∧ (before ++ c :: text)[i]? = some d ↔
      i = before.length ∧ d = c ∨ before.length + 1 ≤ i ∧ (before ++ c :: text)[i]? = some d := by
  constructor
  · rintro ⟨hle, hd⟩
    rcases Nat.eq_or_lt_of_le hle with rfl | hlt
    · exact .inl ⟨rfl, by simpa using hd.symm⟩
    · exact .inr ⟨hlt, hd⟩
  · rintro (⟨rfl, rfl⟩ | ⟨hlt, hd⟩)
    · exact ⟨Nat.le_refl _, by simp⟩
    · exact ⟨Nat.le_of_succ_le hlt, hd⟩

section Cuts

variable (separator : Char → Bool)

/-- A scan that has read a text cuts the rest into parts, just where it is at the top level before a separator. -/
theorem exists_cuts : ∀ text before : List Char, ∃ found,
    Interleaved before.length text ((partsFrom separator (Scan.start.run before) text).1 ::
      (partsFrom separator (Scan.start.run before) text).2) found ∧
    ∀ i c, (i, c) ∈ found ↔ (before.length ≤ i ∧ (before ++ text)[i]? = some c) ∧
      cuts separator (Scan.start.run ((before ++ text).take i)) c = true
  | [], before => by
    refine ⟨[], .last _ [], fun i c => ⟨fun h => (List.not_mem_nil h).elim, ?_⟩⟩
    rintro ⟨⟨hle, hc⟩, -⟩
    rw [List.append_nil, List.getElem?_eq_none hle] at hc
    cases hc
  | c :: text, before => by
    -- The text that has been read grows with the induction, so positions count from the start throughout.
    obtain ⟨found, hparts, hfound⟩ := exists_cuts text (before ++ [c])
    have hstep : Scan.start.run (before ++ [c]) = (Scan.start.run before).step c := Scan.run_append _ _ _
    rw [List.length_append, List.length_singleton, hstep] at hparts
    simp only [List.append_assoc, List.singleton_append, List.length_append, List.length_singleton] at hfound
    have hhere : (before ++ c :: text).take before.length = before := List.take_left
    cases hcuts : cuts separator (Scan.start.run before) c with
    | true =>
      rw [Scan.step_of_cuts hcuts] at hparts
      refine ⟨(before.length, c) :: found, ?_, fun i d => ?_⟩
      · rw [partsFrom_cons_of_cuts hcuts]
        exact .cut [] c hparts
      · rw [List.mem_cons, Prod.mk.injEq, hfound, getElem?_append_cons_iff, or_and_right]
        refine or_congr_left ⟨fun h => ⟨h, ?_⟩, And.left⟩
        rw [h.1, h.2, hhere, hcuts]
    | false =>
      refine ⟨found, ?_, fun i d => ?_⟩
      · rw [partsFrom_cons_of_not_cuts hcuts]
        exact hparts.cons c
      · rw [hfound, getElem?_append_cons_iff, or_and_right]
        refine (or_iff_right ?_).symm
        rintro ⟨⟨rfl, rfl⟩, h⟩
        rw [hhere, hcuts] at h
        cases h

/-- The first part is not cut by the scan that read it. A later one was read from a cut on, where a scan is as at
the start of a text. -/
theorem partsFrom_parts : ∀ (text : List Char) (s : Scan),
    partsFrom separator s (partsFrom separator s text).1 = ((partsFrom separator s text).1, []) ∧
      ∀ part ∈ (partsFrom separator s text).2, topLevelParts separator part = [part]
  | [], _ => ⟨rfl, fun _ h => by cases h⟩
  | c :: text, s => by
    cases hcuts : cuts separator s c with
    | true =>
      have hstart : s = .start := Scan.eq_start_of_cuts hcuts
      obtain ⟨hfirst, hmore⟩ := partsFrom_parts text s
      rw [partsFrom_cons_of_cuts hcuts]
      refine ⟨rfl, List.forall_mem_cons.2 ⟨?_, hmore⟩⟩
      rw [hstart] at hfirst ⊢
      rw [topLevelParts, hfirst]
    | false =>
      obtain ⟨hfirst, hmore⟩ := partsFrom_parts text (s.step c)
      rw [partsFrom_cons_of_not_cuts hcuts]
      refine ⟨?_, hmore⟩
      rw [partsFrom_cons_of_not_cuts hcuts, hfirst]

/-- No part is cut again. -/
theorem topLevelParts_of_mem {text part : List Char} (h : part ∈ topLevelParts separator text) :
    topLevelParts separator part = [part] := by
  obtain ⟨hfirst, hmore⟩ := partsFrom_parts separator text .start
  rcases List.mem_cons.1 h with rfl | h
  · rw [topLevelParts, hfirst]
  · exact hmore part h

end Cuts

/-- The parts with the characters cut out between them are the whole text. What is cut are the separators outside
quotations at depth zero, and all of these; no part is cut again. -/
theorem topLevelParts_exact (separator : Char → Bool) (hsep : ∀ c, isStructural c = true → separator c = false)
    (text : List Char) : ∃ found, Interleaved 0 text (topLevelParts separator text) found ∧
      (∀ i c, (i, c) ∈ found ↔ text[i]? = some c ∧ separator c = true ∧
        ∃ bare, Unquoted (text.take i) bare ∧ bracketDepth 0 bare = 0) ∧
      ∀ part ∈ topLevelParts separator text, topLevelParts separator part = [part] := by
  obtain ⟨found, hparts, hfound⟩ := exists_cuts separator text []
  refine ⟨found, hparts, fun i c => ?_, fun part => topLevelParts_of_mem separator⟩
  -- a separator is no quote and no bracket, so the scan cuts at it wherever nothing is open
  have hcuts : cuts separator (Scan.start.run (text.take i)) c = true ↔
      separator c = true ∧ (Scan.start.run (text.take i)).atTop = true := by
    have hplain : separator c = true → isStructural c = false := fun hc =>
      eq_false_of_ne_true fun hs => Bool.false_ne_true ((hsep c hs).symm.trans hc)
    simp only [cuts, Bool.and_eq_true, Bool.not_eq_true']
    exact ⟨fun h => ⟨h.1.2, h.1.1⟩, fun h => ⟨⟨h.2, h.1⟩, hplain h.1⟩⟩
  rw [hfound, ← Scan.atTop_run_start_iff, List.nil_append, hcuts]
  simp

/-- A stray closing bracket, the other quote in a quotation, brackets around a separator, and a quote that stays
open. -/
theorem topLevelParts_exact_unbalanced : (∀ c, isStructural c = true → decide (c = ';') = false) ∧
    topLevelParts (· = ';') "é);\"';\"([;]);';".toList = ["é)".toList, "\"';\"([;])".toList, "';".toList] ∧
    ∃ found, Interleaved 0 "é);\"';\"([;]);';".toList ["é)".toList, "\"';\"([;])".toList, "';".toList] found ∧
      ((2, ';') ∈ found ∧ (5, ';') ∉ found ∧ (9, ';') ∉ found ∧ (12, ';') ∈ found ∧ (14, ';') ∉ found) ∧
      topLevelParts (· = ';') "';".toList = ["';".toList] := by
  have hsep : ∀ c, isStructural c = true → decide (c = ';') = false := by
    intro c hc
    refine decide_eq_false ?_
    rintro rfl
    cases hc
  have heval : topLevelParts (· = ';') "é);\"';\"([;]);';".toList =
      ["é)".toList, "\"';\"([;])".toList, "';".toList] := by
    decide +kernel
  obtain ⟨found, hparts, hfound, hwhole⟩ := topLevelParts_exact (· = ';') hsep "é);\"';\"([;]);';".toList
  simp only [← Scan.atTop_run_start_iff] at hfound
  rw [heval] at hparts hwhole
  refine ⟨hsep, heval, found, hparts, ⟨?_, ?_, ?_, ?_, ?_⟩, hwhole _ (by simp)⟩
  · exact (hfound 2 ';').2 (by decide +kernel)
  · exact mt (hfound 5 ';').1 (by decide +kernel)
  · exact mt (hfound 9 ';').1 (by decide +kernel)
  · exact (hfound 12 ';').2 (by decide +kernel)
  · exact mt (hfound 14 ';').1 (by decide +kernel)

end ScriptHost.Script
