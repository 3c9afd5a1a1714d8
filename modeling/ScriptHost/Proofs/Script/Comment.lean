/-
Comments in a program. A line that begins with two slashes is dropped, but only after the text has been cut,
and a scan knows no comments: a quote or a bracket in one stays open behind its line, and a semicolon in one
begins a statement. Main result: a comment changes nothing of any program around it just where its text leaves
neither a quote nor a bracket open and no statement stands behind a semicolon in it.
-/
import ScriptHost.Proofs.Engine.Basic
import ScriptHost.Proofs.Script.Composition
import Mathlib.Tactic

namespace ScriptHost.Script

open ScriptHost.Text

/-! ## Scans that stay open -/

section Open

variable {separator : Char → Bool} {s : Scan} {text : List Char}

/-- Only quotes are open as quotes. -/
theorem Scan.isQuote_of_run (hs : ∀ q ∈ s.quote, isQuote q = true) (text : List Char) :
    ∀ q ∈ (s.run text).quote, isQuote q = true := by
  induction text generalizing s with
  | nil => exact hs
  | cons c text ih =>
    refine ih fun q hq => ?_
    unfold step at hq
    split at hq
    · split_ifs at hq
      · cases hq
      · exact hs q hq
    next hnone =>
      split_ifs at hq with hc
      · rwa [← Option.mem_some_iff.1 hq]
      all_goals exact hs q hq

theorem Scan.step_of_not_structural {c : Char} (hs : ∀ q ∈ s.quote, isQuote q = true)
    (hc : isStructural c = false) : s.step c = s := by
  simp only [isStructural, Bool.or_eq_false_iff] at hc
  obtain ⟨⟨hquote, hopens⟩, hcloses⟩ := hc
  unfold step
  split
  next q hq =>
    have hne : c ≠ q := by
      rintro rfl
      exact Bool.false_ne_true (hquote.symm.trans (hs c hq))
    rw [if_neg hne]
  next => simp [hquote, hopens, hcloses]

/-- A scan that is not at the top goes through any text that it does not follow. -/
theorem Uncut.of_open (hs : ∀ q ∈ s.quote, Scan.isQuote q = true) (hopen : s.atTop = false)
    (h : ∀ c ∈ text, isStructural c = false) : Uncut separator s text s := by
  induction text with
  | nil => exact nil
  | cons c text ih =>
    obtain ⟨hc, htext⟩ := List.forall_mem_cons.1 h
    have hcuts : cuts separator s c = false := by simp [cuts, hopen]
    exact cons hcuts (Scan.step_of_not_structural hs hc) (ih htext)

theorem Uncut.of_not_separator (h : ∀ c ∈ text, separator c = false) : Uncut separator s text (s.run text) := by
  induction text generalizing s with
  | nil => exact nil
  | cons c text ih =>
    obtain ⟨hc, htext⟩ := List.forall_mem_cons.1 h
    have hcuts : cuts separator s c = false := by simp [cuts, hc]
    exact cons hcuts rfl (ih htext)

/-- The last part grows with what is not cut; the parts before it are what they were. -/
theorem exists_parts_append (separator : Char → Bool) (text : List Char) :
    ∃ front last, ∀ more s', Uncut separator (Scan.start.run text) more s' →
      topLevelParts separator (text ++ more) = front ++ [last ++ more] := by
  suffices hfrom : ∀ (text : List Char) (s : Scan), ∃ front last, ∀ more s', Uncut separator (s.run text) more s' →
      (partsFrom separator s (text ++ more)).1 :: (partsFrom separator s (text ++ more)).2 =
        front ++ [last ++ more] from hfrom text .start
  intro text
  induction text with
  | nil =>
    refine fun s => ⟨[], [], fun more s' h => ?_⟩
    have hmore : partsFrom separator s (more ++ []) = (more ++ [], []) := h []
    rw [List.append_nil] at hmore
    simp [hmore]
  | cons c text ih =>
    intro s
    obtain ⟨front, last, hparts⟩ := ih (s.step c)
    cases hcuts : cuts separator s c with
    | true =>
      -- a cut leaves an empty part, and whatever follows changes the last of the parts behind it
      refine ⟨[] :: front, last, fun more s' h => ?_⟩
      have := hparts more s' h
      rw [Scan.step_of_cuts hcuts] at this
      rw [List.cons_append, partsFrom_cons_of_cuts hcuts, this]
      rfl
    | false =>
      simp only [List.cons_append, partsFrom_cons_of_not_cuts hcuts]
      -- the character joins the first part, which is the last one where there is no other
      cases front with
      | nil =>
        refine ⟨[], c :: last, fun more s' h => ?_⟩
        obtain ⟨hfirst, hmore⟩ := List.cons.inj (hparts more s' h)
        rw [hfirst, hmore]
        rfl
      | cons first front =>
        refine ⟨(c :: first) :: front, last, fun more s' h => ?_⟩
        obtain ⟨hfirst, hmore⟩ := List.cons.inj (hparts more s' h)
        rw [hfirst, hmore]
        rfl

end Open

/-! ## Lines -/

/-- A comment as it stands on its line. -/
def commentLine (comment : List Char) : List Char := '/' :: '/' :: comment

theorem run_commentLine (comment : List Char) : Scan.start.run (commentLine comment) = Scan.start.run comment := rfl

/-- Whether a part of a program is a statement. -/
def isStatement (statement : List Char) : Bool := !statement.isEmpty && (dropStart? "//".toList statement).isNone

theorem isStatement_commentLine (comment : List Char) : isStatement (trim (commentLine comment)) = false := by
  have htrim : trim (commentLine comment) = commentLine (trimEnd comment) := by
    have hslash : isBlank '/' = false := rfl
    simp [trim, commentLine, trimEnd_cons, hslash]
  have hdrop : dropStart? "//".toList (commentLine (trimEnd comment)) = some (trimEnd comment) := by
    simp [dropStart?, commentLine, List.isPrefixOf?]
  rw [htrim, isStatement, hdrop]
  exact Bool.and_false _

theorem statementTexts_eq_filter {text : List Char} {parts : List (List Char)}
    (h : topLevelParts endsStatement text = parts) : statementTexts text = (parts.map trim).filter isStatement := by
  subst h
  rfl

/-- Each statement of a program has a text. -/
theorem length_statementTexts {text : List Char} {statements : List Statement}
    (h : statementsOf text = .ok statements) : (statementTexts text).length = statements.length :=
  (forall₂_of_mapM_ok h).length_eq

/-- The line between two programs, at whose end nothing is open. -/
theorem statementTexts_comment {a comment : List Char} (ha : (Scan.start.run a).atTop = true)
    (hc : (Scan.start.run comment).atTop = true) (b : List Char) :
    statementTexts (a ++ '\n' :: (commentLine comment ++ '\n' :: b)) =
      statementTexts a ++ (statementTexts (commentLine comment) ++ statementTexts b) := by
  rw [statementTexts_append_cons rfl ha, statementTexts_append_cons rfl ((run_commentLine comment).symm ▸ hc)]

/-- Where something is open at the end of a line, the next ones belong to the last part of it. -/
theorem length_statementTexts_of_open {comment : List Char} (hopen : (Scan.start.run comment).atTop = false)
    (hnone : statementTexts (commentLine comment ++ ['\n']) = []) {b : List Char}
    (hb : ∀ c ∈ b, isStructural c = false) : (statementTexts (commentLine comment ++ '\n' :: b)).length ≤ 1 := by
  obtain ⟨front, last, hparts⟩ := exists_parts_append endsStatement (commentLine comment)
  have huncut : ∀ more, (∀ c ∈ more, isStructural c = false) →
      Uncut endsStatement (Scan.start.run (commentLine comment)) more (Scan.start.run (commentLine comment)) :=
    fun more hmore => .of_open (Scan.isQuote_of_run (fun q hq => by cases hq) _) hopen hmore
  have hend := hparts ['\n'] _ (huncut _ (List.forall_mem_singleton.2 rfl))
  have hnext := hparts ('\n' :: b) _ (huncut _ (List.forall_mem_cons.2 ⟨rfl, hb⟩))
  have hfront : (front.map trim).filter isStatement = [] := by
    rw [statementTexts_eq_filter hend, List.map_append, List.filter_append] at hnone
    exact (List.append_eq_nil_iff.1 hnone).1
  rw [statementTexts_eq_filter hnext, List.map_append, List.filter_append, hfront, List.nil_append]
  exact List.length_filter_le ..

/-! ## Comments that change nothing -/

/-- Nothing of any program around it changes with the comment. -/
def Inert (comment : String) : Prop := ∀ params a b : String, (Scan.start.run a.toList).atTop = true →
  Body.ofText params (a ++ "\n//" ++ comment ++ "\n" ++ b) = Body.ofText params (a ++ "\n" ++ b)

theorem Body.ofText_congr (params : String) {source source' : String}
    (h : statementTexts source.toList = statementTexts source'.toList) :
    Body.ofText params source = Body.ofText params source' := by
  rw [ofText, ofText, statementsOf, h]
  rfl

theorem Body.statementsOf_eq_of_ofText {params source source' : String}
    (h : Body.ofText params source = Body.ofText params source') :
    statementsOf source.toList = statementsOf source'.toList := by
  unfold ofText at h
  cases hs : statementsOf source.toList <;> cases hs' : statementsOf source'.toList <;> rw [hs, hs'] at h <;> cases h
    <;> rfl

theorem statementTexts_newline (text : List Char) : statementTexts ('\n' :: text) = statementTexts text :=
  statementTexts_append_cons (a := []) rfl rfl text

/-- Behind an inert comment a program is read as without it. -/
theorem Inert.statementsOf_eq {comment : String} (h : Inert comment) (b : List Char) :
    statementsOf (commentLine comment.toList ++ '\n' :: b) = statementsOf b := by
  have hread := Body.statementsOf_eq_of_ofText (h "" "" (String.ofList b) rfl)
  have htext : ("" ++ "\n//" ++ comment ++ "\n" ++ String.ofList b).toList =
      '\n' :: (commentLine comment.toList ++ '\n' :: b) := by
    simp [commentLine]
  have htext' : ("" ++ "\n" ++ String.ofList b).toList = '\n' :: b := by simp
  rw [htext, htext'] at hread
  simpa only [statementsOf, statementTexts_newline] using hread

/-- Two statements are not read as one. -/
theorem Inert.atTop {comment : String} (h : Inert comment)
    (hnone : statementTexts (commentLine comment.toList ++ ['\n']) = []) :
    (Scan.start.run comment.toList).atTop = true := by
  by_contra hopen
  have hone := length_statementTexts_of_open (eq_false_of_ne_true hopen) hnone (b := ['a', ';', 'a'])
    (by simp [isStructural, Scan.isQuote, Scan.opens, Scan.closes])
  have ha : Statement.Written (.expr (.path ["a"])) ['a'] :=
    .expr (fun names hnames => by cases hnames; decide) (.path (by decide))
  have hread := statementsOf_of_written (.cons (.inr rfl) ha (.single ha))
  have htwo := length_statementTexts ((h.statementsOf_eq ['a', ';', 'a']).trans hread)
  rw [htwo] at hone
  exact absurd hone (by decide)

/-- A comment is inert just where it leaves neither a quote nor a bracket open, and all that stands behind
semicolons in it is blank or a comment. -/
theorem comment_inert_iff (comment : String) : Inert comment ↔
    (Scan.start.run comment.toList).atTop = true ∧ statementTexts ("//" ++ comment).toList = [] := by
  have hline : ("//" ++ comment).toList = commentLine comment.toList := by simp [commentLine]
  rw [hline]
  constructor
  · intro hinert
    have hnone : statementTexts (commentLine comment.toList ++ ['\n']) = [] :=
      List.length_eq_zero_iff.1 (length_statementTexts (hinert.statementsOf_eq []))
    have htop := hinert.atTop hnone
    rw [statementTexts_append_cons rfl ((run_commentLine _).symm ▸ htop)] at hnone
    exact ⟨htop, (List.append_eq_nil_iff.1 hnone).1⟩
  · rintro ⟨htop, hnone⟩ params a b ha
    apply Body.ofText_congr
    have htext : (a ++ "\n//" ++ comment ++ "\n" ++ b).toList =
        a.toList ++ '\n' :: (commentLine comment.toList ++ '\n' :: b.toList) := by
      simp [commentLine]
    have htext' : (a ++ "\n" ++ b).toList = a.toList ++ '\n' :: b.toList := by simp
    rw [htext, htext', statementTexts_comment ha htop, hnone, statementTexts_append_cons rfl ha, List.nil_append]

/-! ## Comments that are not inert -/

/-- Behind a quote that a comment leaves open nothing is read where that quote does not stand again. -/
theorem Body.ofText_behind_quote (params : String) {a comment b : String} {q : Char}
    (ha : (Scan.start.run a.toList).atTop = true) (hc : ∀ c ∈ comment.toList, endsStatement c = false)
    (hq : (Scan.start.run comment.toList).quote = some q) (hb : q ∉ b.toList) :
    Body.ofText params (a ++ "\n//" ++ comment ++ "\n" ++ b) = Body.ofText params a := by
  obtain ⟨depth, hscan⟩ : ∃ depth, Scan.start.run comment.toList = ⟨some q, depth⟩ :=
    ⟨_, congrArg (Scan.mk · _) hq⟩
  have hquote : Scan.isQuote q = true := Scan.isQuote_of_run (fun _ h => by cases h) _ q hq
  have hbreak : q ∉ '\n' :: b.toList := by
    rintro (_ | ⟨_, h⟩)
    · exact Bool.false_ne_true hquote
    · exact hb h
  have hfront : Uncut endsStatement .start (commentLine comment.toList) ⟨some q, depth⟩ := by
    rw [← hscan, ← run_commentLine]
    exact .of_not_separator (List.forall_mem_cons.2 ⟨rfl, List.forall_mem_cons.2 ⟨rfl, hc⟩⟩)
  have hparts := hfront.append (Uncut.inside hbreak) []
  have hline : commentLine comment.toList ++ '\n' :: b.toList = commentLine (comment.toList ++ '\n' :: b.toList) := rfl
  -- the comment and all of `b` are one part, which is no statement
  have hnone : statementTexts (commentLine comment.toList ++ '\n' :: b.toList) = [] := by
    have hone : topLevelParts endsStatement (commentLine comment.toList ++ '\n' :: b.toList) =
        [commentLine comment.toList ++ '\n' :: b.toList] := by
      rw [List.append_nil] at hparts
      rw [topLevelParts, hparts]
      simp [partsFrom]
    rw [statementTexts_eq_filter hone, hline]
    simp [isStatement_commentLine]
  have htext : (a ++ "\n//" ++ comment ++ "\n" ++ b).toList =
      a.toList ++ '\n' :: (commentLine comment.toList ++ '\n' :: b.toList) := by
    simp [commentLine]
  apply Body.ofText_congr
  rw [htext, statementTexts_append_cons rfl ha, hnone, List.append_nil]

/-- An apostrophe in a comment takes the program behind it away. -/
theorem comment_not_inert_apostrophe : '\n' ∉ " don't".toList ∧ (Scan.start.run "".toList).atTop = true ∧
    Body.ofText "" ("" ++ "\n//" ++ " don't" ++ "\n" ++ "return a") = .ok ⟨[], []⟩ ∧
    Body.ofText "" ("" ++ "\n" ++ "return a") = .ok ⟨[], [.return (some (.path ["a"]))]⟩ ∧ ¬ Inert " don't" := by
  have htop : (Scan.start.run "".toList).atTop = true := rfl
  have hcomment : Body.ofText "" ("" ++ "\n//" ++ " don't" ++ "\n" ++ "return a") = .ok ⟨[], []⟩ := by
    rw [Body.ofText_behind_quote "" (q := '\'') htop (by simp [endsStatement]) rfl (by decide +kernel)]
    rfl
  have hreturn : Statement.Written (.return (some (.path ["a"]))) "return a".toList := .returnValue (.path (by decide))
  have hplain : Body.ofText "" ("" ++ "\n" ++ "return a") = .ok ⟨[], [.return (some (.path ["a"]))]⟩ := by
    have htext : statementTexts ("" ++ "\n" ++ "return a").toList = statementTexts "return a".toList :=
      statementTexts_newline "return a".toList
    exact (Body.ofText_congr "" htext).trans (Body.ofText_of_written "" "return a" (.single hreturn))
  refine ⟨by decide +kernel, htop, hcomment, hplain, fun hinert => ?_⟩
  have hsame := hinert "" "" "return a" htop
  rw [hcomment, hplain] at hsame
  cases hsame

end ScriptHost.Script
