/-
Reading a written program. It is cut at the separators between its statements, since none stands at the top
level of a statement, and each part is read as the statement that was written there. The words that begin
statements, and the sign of an assignment, stand where nothing else of a statement could be taken for them.
-/
import ScriptHost.Proofs.Script.Expression
import Mathlib.Tactic

namespace ScriptHost.Script

open ScriptHost.Text

/-! ## The fronts of statements -/

theorem isPlain_of_isStructural {c : Char} (h : isStructural c = true) : isPlain c = false := by
  rw [← Bool.not_eq_true]
  intro hp
  exact Bool.false_ne_true ((isStructural_of_isPlain hp).symm.trans h)

/-- An expression begins with no word that a blank or a slash ends, `new` apart. -/
theorem Expr.Written.dropStart?_eq_none {e : Expr} {text start word more : List Char} {c : Char}
    (h : e.Written text) (hstart : start = word ++ c :: more) (hword : word.all isPlain = true)
    (hnew : word ≠ "new".toList) (hc : isPlain c = false) (hs : isStructural c = false) :
    dropStart? start text = none := by
  rcases h.front with hplain | ⟨front, d, rest, rfl, hfront, hd⟩
  · exact dropStart?_of_isPlain (by simp [hstart]) hc hplain
  · have hdplain : isPlain d = false := by
      rcases hd with hd | ⟨rfl, -⟩
      · exact isPlain_of_isStructural hd
      · rfl
    refine dropStart?_append_cons hstart hword hfront hc hdplain ?_ rest
    rintro rfl rfl
    rcases hd with hd | ⟨-, hd⟩
    · exact Bool.false_ne_true (hs.symm.trans hd)
    · exact hnew hd

/-! Where the words that begin something else than an expression stop being plain. -/

theorem throw_blank : "throw ".toList = "throw".toList ++ [' '] := rfl

theorem return_blank : "return ".toList = "return".toList ++ [' '] := rfl

theorem comment_front : "//".toList = [] ++ ['/', '/'] := rfl

namespace Statement.Written

variable {statement : Statement} {text : List Char}

theorem tight (h : statement.Written text) : Tight text := by
  cases h with
  | assign htarget _ hvalue => simpa using htarget.tight.append hvalue.tight [' ', '=', ' ']
  | throw hvalue =>
    have hword : Tight "throw".toList := .of_plain (by decide) (List.all_eq_true.1 rfl)
    simpa using hword.append hvalue.tight [' ']
  | returnValue hvalue =>
    have hword : Tight "return".toList := .of_plain (by decide) (List.all_eq_true.1 rfl)
    simpa using hword.append hvalue.tight [' ']
  | returnNone => exact .of_plain (by decide) (List.all_eq_true.1 rfl)
  | expr _ hvalue => exact hvalue.tight

theorem uncut (h : statement.Written text) {separator : Char → Bool} (hsep : Separating separator)
    (heq : separator '=' = false) {depth : Nat} : Uncut separator ⟨none, depth⟩ text ⟨none, depth⟩ := by
  have hblank : Uncut separator ⟨none, depth⟩ [' '] ⟨none, depth⟩ := .blank hsep
  cases h with
  | assign htarget _ hvalue =>
    have hsign : Uncut separator ⟨none, depth⟩ ['='] ⟨none, depth⟩ := .single rfl fun _ => heq
    exact (htarget.uncut hsep).append (hblank.append (hsign.append (hblank.append (hvalue.uncut hsep))))
  | throw hvalue =>
    have hword : Uncut separator ⟨none, depth⟩ "throw".toList ⟨none, depth⟩ := .plain hsep (List.all_eq_true.1 rfl)
    exact hword.append (hblank.append (hvalue.uncut hsep))
  | returnValue hvalue =>
    have hword : Uncut separator ⟨none, depth⟩ "return".toList ⟨none, depth⟩ := .plain hsep (List.all_eq_true.1 rfl)
    exact hword.append (hblank.append (hvalue.uncut hsep))
  | returnNone => exact .plain hsep (List.all_eq_true.1 rfl)
  | expr _ hvalue => exact hvalue.uncut hsep

/-- No statement is taken for a comment. -/
theorem dropStart?_comment (h : statement.Written text) : dropStart? "//".toList text = none := by
  cases h with
  | assign htarget =>
    exact dropStart?_append_cons comment_front rfl htarget.isPlain rfl rfl (fun _ => by decide) _
  | throw => exact dropStart?_append_cons comment_front rfl (List.all_eq_true.1 rfl) rfl rfl (fun _ => by decide) _
  | returnValue =>
    exact dropStart?_append_cons comment_front rfl (List.all_eq_true.1 rfl) rfl rfl (fun _ => by decide) _
  | returnNone => rfl
  | expr _ hvalue => exact hvalue.dropStart?_eq_none comment_front rfl (by decide) rfl rfl

end Statement.Written

/-! ## Statements -/

namespace Statement

theorem ofText_throw {value : Expr} {text : List Char} (h : value.Written text) :
    ofText ("throw".toList ++ ' ' :: text) = .ok (.throw value) := by
  have hdrop : dropStart? "throw ".toList ("throw".toList ++ ' ' :: text) = some text :=
    dropStart?_eq_some rfl
  simp only [ofText, hdrop, h.tight.trim_eq, h.ofText_eq]
  rfl

theorem ofText_returnValue {value : Expr} {text : List Char} (h : value.Written text) :
    ofText ("return".toList ++ ' ' :: text) = .ok (.return (some value)) := by
  have hthrow : dropStart? "throw ".toList ("return".toList ++ ' ' :: text) = none :=
    dropStart?_append_cons throw_blank rfl (List.all_eq_true.1 rfl) rfl rfl (fun h => by cases h) _
  have hne : "return".toList ++ ' ' :: text ≠ "return".toList := by simp
  have hdrop : dropStart? "return ".toList ("return".toList ++ ' ' :: text) = some text :=
    dropStart?_eq_some rfl
  simp only [ofText, hthrow, if_neg hne, hdrop, h.tight.trim_eq, h.ofText_eq]
  rfl

theorem separating_equals : Separating (· = '=') := .single rfl

/-- The sign of an assignment is the only one at the top level. -/
theorem topLevelParts_assign {target : List String} {value : Expr} {text : List Char} (ht : IsPath target)
    (h : value.Written text) : topLevelParts (· = '=') (pathText target ++ ' ' :: '=' :: ' ' :: text) =
      [pathText target ++ [' '], ' ' :: text] := by
  have htarget : Uncut (· = '=') .start (pathText target ++ [' ']) .start :=
    (ht.uncut separating_equals).append (.blank separating_equals)
  have hvalue : Uncut (· = '=') .start (' ' :: text) .start :=
    (Uncut.blank separating_equals).append (h.uncut separating_equals)
  have hcut : topLevelParts (· = '=') (pathText target ++ [' '] ++ '=' :: ' ' :: text) =
      (pathText target ++ [' ']) :: topLevelParts (· = '=') (' ' :: text) :=
    htarget.topLevelParts_append_cons rfl rfl _
  rwa [hvalue.topLevelParts_eq, List.append_assoc] at hcut

theorem ofText_assign {target : List String} {value : Expr} {text : List Char} (ht : IsPath target)
    (hk : ¬ IsKeyword target) (h : value.Written text) :
    ofText (pathText target ++ ' ' :: '=' :: ' ' :: text) = .ok (.assign target value) := by
  have hnothrow : pathText target ≠ "throw".toList :=
    pathText_ne ht fun heq => hk (.inr (Option.some.inj heq).symm)
  have hnoreturn : pathText target ≠ "return".toList :=
    pathText_ne ht fun heq => hk (.inl (Option.some.inj heq).symm)
  have hthrow : dropStart? "throw ".toList (pathText target ++ ' ' :: '=' :: ' ' :: text) = none :=
    dropStart?_append_cons throw_blank rfl ht.isPlain rfl rfl (fun heq => absurd heq hnothrow) _
  have hne : pathText target ++ ' ' :: '=' :: ' ' :: text ≠ "return".toList := by
    intro heq
    have hmem : ' ' ∈ "return".toList := heq ▸ List.mem_append_right _ List.mem_cons_self
    exact absurd hmem (by decide)
  have hreturn : dropStart? "return ".toList (pathText target ++ ' ' :: '=' :: ' ' :: text) = none :=
    dropStart?_append_cons return_blank rfl ht.isPlain rfl rfl (fun heq => absurd heq hnoreturn) _
  have hblank : isBlank ' ' = true := rfl
  simp only [ofText, hthrow, if_neg hne, hreturn, topLevelParts_assign ht h, ht.tight.trim_concat hblank,
    pathOf?_pathText ht, trim_cons_of_blank hblank, h.tight.trim_eq, h.ofText_eq]
  rfl

theorem ofText_expr {value : Expr} {text : List Char} (hk : ∀ names, value = .path names → ¬ IsKeyword names)
    (h : value.Written text) : ofText text = .ok (.expr value) := by
  have hthrow : dropStart? "throw ".toList text = none :=
    h.dropStart?_eq_none throw_blank rfl (by decide) rfl rfl
  have hreturn : dropStart? "return ".toList text = none :=
    h.dropStart?_eq_none return_blank rfl (by decide) rfl rfl
  have hne : text ≠ "return".toList := by
    -- read as an expression the word is a path, and no statement is that path
    rintro rfl
    have hpath : IsValuePath ["return"] := by decide
    have hread : Expr.ofText "return".toList = .ok (.path ["return"]) := Expr.ofText_path hpath
    rw [h.ofText_eq] at hread
    exact hk ["return"] (Except.ok.inj hread) (.inl rfl)
  simp only [ofText, hthrow, if_neg hne, hreturn, (h.uncut separating_equals).topLevelParts_eq, h.tight.trim_eq,
    h.ofText_eq]
  rfl

end Statement

/-- A written statement is read as it is. -/
theorem Statement.Written.ofText_eq {statement : Statement} {text : List Char} (h : statement.Written text) :
    Statement.ofText text = .ok statement := by
  cases h with
  | assign htarget hkeyword hvalue => exact ofText_assign htarget hkeyword hvalue
  | throw hvalue => exact ofText_throw hvalue
  | returnValue hvalue => exact ofText_returnValue hvalue
  | returnNone => rfl
  | expr hkeyword hvalue => exact ofText_expr hkeyword hvalue

/-! ## Programs -/

/-- Whether statements are cut at a character. -/
def endsStatement (c : Char) : Bool := c = ';' || c = '\n'

theorem separating_endsStatement : Separating endsStatement := by
  intro c hc
  simp only [endsStatement, Bool.or_eq_true, decide_eq_true_eq] at hc
  rcases hc with rfl | rfl <;> rfl

namespace Statement.Written

variable {statement : Statement} {text : List Char}

/-- Neither blank nor a comment. -/
theorem kept (h : statement.Written text) :
    (!text.isEmpty && (dropStart? "//".toList text).isNone) = true := by
  rw [h.dropStart?_comment, List.isEmpty_eq_false_iff.2 h.tight.ne_nil]
  rfl

theorem statementTexts_eq (h : statement.Written text) : statementTexts text = [text] := by
  have hparts := (h.uncut separating_endsStatement rfl).topLevelParts_eq
  unfold endsStatement at hparts
  simp only [statementTexts, hparts, List.map_cons, List.map_nil, h.tight.trim_eq, List.filter_cons, h.kept, if_true,
    List.filter_nil]

theorem statementTexts_append_cons (h : statement.Written text) {separator : Char}
    (hsep : separator = '\n' ∨ separator = ';') (rest : List Char) :
    statementTexts (text ++ separator :: rest) = text :: statementTexts rest := by
  have hends : endsStatement separator = true ∧ isStructural separator = false := by
    rcases hsep with rfl | rfl <;> exact ⟨rfl, rfl⟩
  have hparts := (h.uncut separating_endsStatement rfl).topLevelParts_append_cons hends.1 hends.2 rest
  unfold endsStatement at hparts
  simp only [statementTexts, hparts, List.map_cons, h.tight.trim_eq, List.filter_cons, h.kept, if_true]

end Statement.Written

theorem statementsOf_of_written {statements : List Statement} {text : List Char}
    (h : Program.Written statements text) : statementsOf text = .ok statements := by
  induction h with
  | nil => rfl
  | single hstatement =>
    rw [statementsOf, hstatement.statementTexts_eq, List.mapM_cons, hstatement.ofText_eq]
    rfl
  | cons hsep hstatement _ ih =>
    rw [statementsOf] at ih
    rw [statementsOf, hstatement.statementTexts_append_cons hsep, List.mapM_cons, hstatement.ofText_eq, ih]
    rfl

/-- A program is read back from its written form, whatever the parameters of the body. -/
theorem Body.ofText_of_written (params source : String) {statements : List Statement}
    (h : Program.Written statements source.toList) :
    Body.ofText params source = .ok ⟨paramsOf params.toList, statements⟩ := by
  rw [Body.ofText, statementsOf_of_written h]
  rfl

/-- Separators, quotes, brackets and a sign of assignment inside strings inside calls. -/
theorem Body.ofText_of_written_calls : ∃ (x : Float) (statements : List Statement) (source : String),
    Decimal.read? "-2e3".toList = some x ∧
    statements = [
      .assign ["a", "b"] (.number x),
      .expr (.call ["log"] [.text "; = (\n", .call ["f"] [.text "\"", .object], .error "Error: [,"]),
      .return (some (.path ["a"]))] ∧
    source = "a.b = -2e3\nlog(\"; = (\n\", f('\"', \x7b\x7d), new Error(\"[,\"));return a" ∧
    Program.Written statements source.toList ∧
    Body.ofText "a, b" source = .ok ⟨["a", "b"], statements⟩ := by
  obtain ⟨x, hx⟩ : ∃ x, Decimal.read? "-2e3".toList = some x := Option.isSome_iff_exists.1 rfl
  have hassign : Statement.Written (.assign ["a", "b"] (.number x)) "a.b = -2e3".toList :=
    .assign (by decide) (by decide) (.number rfl hx)
  have hf : Expr.Written (.call ["f"] [.text "\"", .object]) "f('\"', \x7b\x7d)".toList :=
    @Expr.Written.call ["f"] [(.text "\"", "'\"'".toList), (.object, "\x7b\x7d".toList)] (by decide)
      (List.forall_mem_cons.2 ⟨.text rfl, List.forall_mem_singleton.2 .object⟩)
  have herror : Expr.Written (.error "Error: [,") "new Error(\"[,\")".toList := @Expr.Written.error "[," _ rfl
  have hlog : Expr.Written (.call ["log"] [.text "; = (\n", .call ["f"] [.text "\"", .object], .error "Error: [,"])
      "log(\"; = (\n\", f('\"', \x7b\x7d), new Error(\"[,\"))".toList :=
    @Expr.Written.call ["log"] [(.text "; = (\n", "\"; = (\n\"".toList),
      (.call ["f"] [.text "\"", .object], "f('\"', \x7b\x7d)".toList),
      (.error "Error: [,", "new Error(\"[,\")".toList)] (by decide)
      (List.forall_mem_cons.2 ⟨.text rfl, List.forall_mem_cons.2 ⟨hf, List.forall_mem_singleton.2 herror⟩⟩)
  have hreturn : Statement.Written (.return (some (.path ["a"]))) "return a".toList :=
    .returnValue (.path (by decide))
  have hprogram := Program.Written.cons (.inl rfl) hassign
    (.cons (.inr rfl) (.expr (fun _ h => by cases h) hlog) (.single hreturn))
  exact ⟨x, _, _, hx, rfl, rfl, hprogram, Body.ofText_of_written "a, b" _ hprogram⟩

end ScriptHost.Script
