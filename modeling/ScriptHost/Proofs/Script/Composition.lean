/-
One program behind another. Where a scan of the first text ends outside quotes and brackets, a separator
behind it cuts, and the two texts are read on their own; their statements stand behind each other. A run of
them is a run of the first ones and then, if these finish, of the second ones from where the first left the
locals and the heap. However else the first ones end, the second ones have no effect.
-/
import ScriptHost.Proofs.Engine.Region
import ScriptHost.Proofs.Script.Program
import Mathlib.Tactic

namespace ScriptHost.Script

/-! ## Cutting -/

section Cutting

variable {separator : Char → Bool} {c : Char}

/-- A separator cuts at the top level, and what stands behind it is cut as if nothing stood before. -/
theorem partsFrom_append_cons (hc : separator c = true) (hs : isStructural c = false) (b : List Char) :
    ∀ (a : List Char) (s : Scan), (s.run a).atTop = true → partsFrom separator s (a ++ c :: b) =
      ((partsFrom separator s a).1, (partsFrom separator s a).2 ++ topLevelParts separator b)
  | [], s, htop => by
    -- at the top level nothing is open, so the scan is as at the start of a text
    have hstart : s = .start := Scan.eq_start_of_atTop htop
    have hcuts : cuts separator .start c = true := by
      simp only [cuts, hc, hs]
      rfl
    rw [hstart, List.nil_append, partsFrom_cons_of_cuts hcuts]
    rfl
  | d :: rest, s, htop => by
    have hrest := partsFrom_append_cons hc hs b rest (s.step d) htop
    rw [List.cons_append]
    cases hcuts : cuts separator s d with
    | true =>
      rw [Scan.step_of_cuts hcuts] at hrest
      rw [partsFrom_cons_of_cuts hcuts, partsFrom_cons_of_cuts hcuts, hrest, List.cons_append]
    | false => rw [partsFrom_cons_of_not_cuts hcuts, partsFrom_cons_of_not_cuts hcuts, hrest]

theorem topLevelParts_append_cons (hc : separator c = true) (hs : isStructural c = false) {a : List Char}
    (ha : (Scan.start.run a).atTop = true) (b : List Char) :
    topLevelParts separator (a ++ c :: b) = topLevelParts separator a ++ topLevelParts separator b := by
  rw [topLevelParts, partsFrom_append_cons hc hs b a .start ha]
  rfl

end Cutting

/-! ## Reading -/

theorem isStructural_of_endsStatement {c : Char} (h : endsStatement c = true) : isStructural c = false := by
  simp only [endsStatement, Bool.or_eq_true, decide_eq_true_eq] at h
  rcases h with rfl | rfl <;> rfl

theorem statementTexts_append_cons {c : Char} (hc : endsStatement c = true) {a : List Char}
    (ha : (Scan.start.run a).atTop = true) (b : List Char) :
    statementTexts (a ++ c :: b) = statementTexts a ++ statementTexts b := by
  have hparts := topLevelParts_append_cons hc (isStructural_of_endsStatement hc) ha b
  unfold endsStatement at hparts
  rw [statementTexts, hparts, List.map_append, List.filter_append]
  rfl

/-- The first error from the left is reported. -/
theorem statementsOf_append_cons {c : Char} (hc : endsStatement c = true) {a : List Char}
    (ha : (Scan.start.run a).atTop = true) (b : List Char) : statementsOf (a ++ c :: b) = do
      let first ← statementsOf a
      let second ← statementsOf b
      return first ++ second := by
  rw [statementsOf, statementTexts_append_cons hc ha, List.mapM_append]
  rfl

/-- The statements of one body behind those of another. -/
def Body.append (x y : Body) : Body := { x with statements := x.statements ++ y.statements }

theorem Body.ofText_append_cons (params : String) {a b : String} {c : Char} (hc : endsStatement c = true)
    (ha : (Scan.start.run a.toList).atTop = true) : Body.ofText params (a ++ String.singleton c ++ b) =
      match Body.ofText params a, Body.ofText params b with
      | .ok x, .ok y => .ok (x.append y)
      | .ok _, .error e => .error e
      | .error e, _ => .error e := by
  have htext : (a ++ String.singleton c ++ b).toList = a.toList ++ c :: b.toList := by simp
  unfold Body.ofText
  rw [htext, statementsOf_append_cons hc ha]
  cases statementsOf a.toList with
  | error e => rfl
  | ok first => cases statementsOf b.toList <;> rfl

end ScriptHost.Script

namespace ScriptHost.Run

open ScriptHost.Script

/-! ## Running -/

/-- Where there is no value of a latest expression, an earlier one counts. -/
def Flow.orLast (last : Option Slot) : Flow → Flow
  | .next p => .next { p with last := p.last.or last }
  | .returned value => .returned value

variable (call : Caller)

/-- No statement looks at the value of an earlier one. -/
theorem step_orLast (p : Progress) (last : Option Slot) (statement : Statement) :
    step call { p with last := p.last.or last } statement = Flow.orLast last <$> step call p statement := by
  cases statement with
  | assign target value => simp [step, Flow.orLast]
  | throw value =>
    simp only [step, map_bind]
    rfl
  | «return» value => cases value <;> simp [step, Flow.orLast]
  | expr value => simp [step, Flow.orLast]

theorem steps_orLast (last : Option Slot) : ∀ (statements : List Statement) (p : Progress),
    steps call { p with last := p.last.or last } statements = Flow.orLast last <$> steps call p statements
  | [], p => by simp [steps, Flow.orLast]
  | statement :: rest, p => by
    simp only [steps, step_orLast, bind_map_left, map_bind]
    congr
    funext flow
    cases flow with
    | next p => exact steps_orLast last rest p
    | returned value => simp [Flow.orLast]

/-- What statements do behind others, where these finish. -/
def after (statements : List Statement) : Flow → Run Flow
  | .next p => Flow.orLast p.last <$> steps call ⟨p.locals, none⟩ statements
  | .returned value => return .returned value

theorem steps_eq_after (statements : List Statement) (p : Progress) :
    steps call p statements = after call statements (.next p) :=
  steps_orLast call p.last statements ⟨p.locals, none⟩

theorem steps_append (second : List Statement) : ∀ (first : List Statement) (p : Progress),
    steps call p (first ++ second) = steps call p first >>= after call second
  | [], p => by
    rw [List.nil_append, steps_eq_after, steps, pure_bind]
  | statement :: rest, p => by
    simp only [List.cons_append, steps, bind_assoc]
    congr
    funext flow
    cases flow with
    | next p => exact steps_append second rest p
    | returned value => rfl

theorem body_append (x y : Body) (args : List Slot) :
    body call (x.append y) args = body call x args >>= after call y.statements := by
  simp only [body, Body.append, steps_append, bind_assoc]

theorem run_orLast (last : Option Slot) (r : Run Flow) (h : Heap) : (Flow.orLast last <$> r).run h =
    match r.run h with
    | (.ok (.next p), h₁) => (.ok (.next ⟨p.locals, p.last.or last⟩), h₁)
    | ended => ended := by
  rw [map_eq_pure_bind, Region.run_bind]
  rcases r.run h with ⟨_ | (p | value), h₁⟩ <;> rfl

end ScriptHost.Run

namespace ScriptHost.Script

open Run

/-- A text behind another is read and run as the two of them. -/
theorem Body.ofText_compose (params : String) {a b : String} {c : Char} (hc : c = ';' ∨ c = '\n')
    (ha : (Scan.start.run a.toList).atTop = true) :
    (Body.ofText params (a ++ String.singleton c ++ b) =
      match Body.ofText params a, Body.ofText params b with
      | .ok x, .ok y => .ok (x.append y)
      | .ok _, .error e => .error e
      | .error e, _ => .error e) ∧
    ∀ (call : Caller) (x y : Body) (args : List Slot) (h : Heap), (body call (x.append y) args).run h =
      match (body call x args).run h with
      | (.ok (.next p), h₁) =>
        match (steps call ⟨p.locals, none⟩ y.statements).run h₁ with
        | (.ok (.next q), h₂) => (.ok (.next ⟨q.locals, q.last.or p.last⟩), h₂)
        | ended => ended
      | ended => ended := by
  have hends : endsStatement c = true := by
    rcases hc with rfl | rfl <;> rfl
  refine ⟨ofText_append_cons params hends ha, fun call x y args h => ?_⟩
  rw [body_append, Region.run_bind]
  -- only a body that runs to its end goes on, and its last value stays where `b` has none
  rcases (body call x args).run h with ⟨_ | (p | value), h₁⟩
  · rfl
  · exact run_orLast p.last _ h₁
  · rfl

theorem Body.ofText_compose_quoted : ∃ x y : Body,
    x.statements = [.assign ["a"] (.text ";(")] ∧ y.statements = [.return (some (.path ["a"]))] ∧
    (Scan.start.run "a = \";(\"".toList).atTop = true ∧
    Body.ofText "p" ("a = \";(\"" ++ String.singleton '\n' ++ "return a") = .ok (x.append y) ∧
    ((body (callWithin 0) (x.append y) []).run .empty).1.toOption = some (.returned 1) := by
  have ha : Statement.Written (.assign ["a"] (.text ";(")) "a = \";(\"".toList :=
    .assign (by decide) (by decide) (.text rfl)
  have hb : Statement.Written (.return (some (.path ["a"]))) "return a".toList := .returnValue (.path (by decide))
  have htop : (Scan.start.run "a = \";(\"".toList).atTop = true := by decide +kernel
  refine ⟨⟨["p"], _⟩, ⟨["p"], _⟩, rfl, rfl, htop, ?_, ?_⟩
  · rw [(Body.ofText_compose "p" (.inr rfl) htop).1, Body.ofText, Body.ofText, statementsOf_of_written (.single ha),
      statementsOf_of_written (.single hb)]
    rfl
  · rw [(Body.ofText_compose "p" (b := "") (.inr rfl) htop).2]
    rfl

end ScriptHost.Script
