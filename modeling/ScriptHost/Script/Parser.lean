/-
Reading a body. Statements stand between semicolons and line breaks, blank ones and comment lines
are dropped, and the first error from the left is reported.
-/
import ScriptHost.Decimal.Reading
import ScriptHost.Script.Split
import ScriptHost.Script.Syntax
import ScriptHost.Text.Blank
import ScriptHost.Text.Utf8

namespace ScriptHost.Script

open ScriptHost.Text

/-! ## Words -/

def startsName (c : Char) : Bool := c.isAlpha || c = '_' || c = '$'

def inName (c : Char) : Bool := c.isAlphanum || c = '_' || c = '$'

/-- Letters, digits, underscores and dollar signs of ASCII, not starting with a digit. -/
def isName : List Char → Bool
  | [] => false
  | c :: rest => startsName c && rest.all inName

def pathOf? (text : List Char) : Option (List String) :=
  let names := splitOnChar '.' text
  if names.all isName then some (names.map String.ofList) else none

/-- The rest of a text behind a given start. -/
def dropStart? (start text : List Char) : Option (List Char) :=
  start.isPrefixOf? text

/-- A text without a given last character. -/
def dropLast? (last : Char) (text : List Char) : Option (List Char) :=
  if text.getLast? = some last then some text.dropLast else none

/-- What stands between a quote at the front and the same quote at the end. -/
def quotedText? : List Char → Option String
  | [] => none
  | c :: rest => if Scan.isQuote c then (dropLast? c rest).map String.ofList else none

/-! ## Expressions -/

def wordExpr? (text : List Char) : Option Expr :=
  match String.ofList text with
  | "undefined" => some .undefined
  | "true" => some (.bool true)
  | "false" => some (.bool false)
  | "\x7b\x7d" => some .object
  | _ => none

/-- The message of an error value, in quotes between the brackets of its constructor. -/
def errorExpr (inner : List Char) : Except SyntaxError Expr :=
  match quotedText? (trim inner) with
  | some message => .ok (.error ("Error: " ++ message))
  | none => .error (.unexpectedToken (String.ofList inner))

/-- The text before the first opening bracket, and the text behind it. -/
def splitAtBracket : List Char → Option (List Char × List Char)
  | [] => none
  | c :: rest =>
    if c = '(' then some ([], rest)
    else (splitAtBracket rest).map fun found => (c :: found.1, found.2)

theorem length_of_splitAtBracket : ∀ {text : List Char} {found : List Char × List Char},
    splitAtBracket text = some found → found.2.length < text.length
  | c :: rest, found, h => by
    unfold splitAtBracket at h
    split at h
    · cases h; exact Nat.lt_succ_self _
    · obtain ⟨inner, hinner, rfl⟩ := Option.map_eq_some_iff.1 h
      have := length_of_splitAtBracket hinner
      exact Nat.lt_succ_of_lt this

/-- The texts of the arguments between brackets; blank ones are dropped. -/
def argumentTexts (text : List Char) : List (List Char) :=
  ((topLevelParts (· = ',') text).map trim).filter (!·.isEmpty)

theorem length_le_of_mem_argumentTexts {text part : List Char} (h : part ∈ argumentTexts text) :
    part.length ≤ text.length := by
  obtain ⟨whole, hwhole, rfl⟩ := List.mem_map.1 (List.mem_filter.1 h).1
  exact Nat.le_trans (length_trim_le whole) (length_le_of_mem_topLevelParts hwhole)

def splitCall (text : List Char) : Option (List Char × List (List Char)) :=
  match splitAtBracket text with
  | some (callee, rest) => (dropLast? ')' rest).map fun inner => (trim callee, argumentTexts inner)
  | none => none

theorem length_lt_of_mem_splitCall {text callee part : List Char} {parts : List (List Char)}
    (h : splitCall text = some (callee, parts)) (hpart : part ∈ parts) :
    part.length < text.length := by
  unfold splitCall at h
  split at h
  next first rest hfound =>
    obtain ⟨inner, hinner, heq⟩ := Option.map_eq_some_iff.1 h
    cases heq
    have hrest := length_of_splitAtBracket hfound
    have hle := length_le_of_mem_argumentTexts hpart
    unfold dropLast? at hinner
    split at hinner
    · cases hinner
      rw [List.length_dropLast] at hle
      exact Nat.lt_of_le_of_lt (Nat.le_trans hle (Nat.sub_le _ _)) hrest
    · cases hinner
  next => cases h

/-- Reads a trimmed expression. -/
def Expr.ofText (text : List Char) : Except SyntaxError Expr :=
  if text.isEmpty then .error .endOfInput
  else if let some word := wordExpr? text then .ok word
  else if let some value := quotedText? text then .ok (.text value)
  else if text.head?.any fun c => c.isDigit || c = '-' then
    match Decimal.read? text with
    | some value => .ok (.number value)
    | none => .error (.invalidNumber (String.ofList text))
  else if let some inner := (dropStart? "new Error(".toList text).bind (dropLast? ')') then
    errorExpr inner
  else
    match h : splitCall text with
    | some (callee, parts) =>
      match pathOf? callee with
      | none => .error (.unexpectedToken (String.ofList text))
      | some names => do
        let args ← parts.attach.mapM fun part =>
          have := length_lt_of_mem_splitCall h part.2
          Expr.ofText part.1
        return .call names args
    | none =>
      match pathOf? text with
      | some names => .ok (.path names)
      | none => .error (.unexpectedToken (String.ofList text))
termination_by text.length

/-! ## Statements and bodies -/

/-- Reads a trimmed statement that is not empty. -/
def Statement.ofText (text : List Char) : Except SyntaxError Statement :=
  if let some rest := dropStart? "throw ".toList text then .throw <$> Expr.ofText (trim rest)
  else if text = "return".toList then .ok (.return none)
  else if let some rest := dropStart? "return ".toList text then
    (fun value => .return (some value)) <$> Expr.ofText (trim rest)
  else
    -- an assignment has just one sign outside quotes and brackets
    match topLevelParts (· = '=') text with
    | [whole] => .expr <$> Expr.ofText (trim whole)
    | [target, value] =>
      match pathOf? (trim target) with
      | some path => .assign path <$> Expr.ofText (trim value)
      | none => .error (.invalidTarget (String.ofList (trim target)))
    | _ => .error (.unexpectedIn (String.ofList text))

def statementTexts (text : List Char) : List (List Char) :=
  -- comments go after the cuts are made, and not before
  ((topLevelParts (fun c => c = ';' || c = '\n') text).map trim).filter fun statement =>
    !statement.isEmpty && (dropStart? "//".toList statement).isNone

def statementsOf (text : List Char) : Except SyntaxError (List Statement) :=
  (statementTexts text).mapM Statement.ofText

/-- Names separated by commas; blank ones are dropped. -/
def paramsOf (text : List Char) : List String :=
  (((splitOnChar ',' text).map trim).filter (!·.isEmpty)).map String.ofList

def Body.ofText (params source : String) : Except SyntaxError Body :=
  (statementsOf source.toList).map fun statements => ⟨paramsOf params.toList, statements⟩

/-- Reads a body from bytes, which have to be a text. -/
def Body.ofBytes (params : String) (source : Bytes) : Except SyntaxError Body :=
  match decode source with
  | .ok text => Body.ofText params text
  | .error _ => .error .notText

end ScriptHost.Script
