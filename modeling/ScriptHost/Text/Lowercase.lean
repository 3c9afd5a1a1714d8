/-
Lower case of whole texts. A capital sigma at the end of a word takes its final form; a capital I
with a dot becomes two characters; every other character follows the table of mappings.
-/
import ScriptHost.Text.CaseData

namespace ScriptHost.Text

/-- The lower-case form of a character, whatever stands beside it. -/
def lowerChar (c : Char) : List Char :=
  let n := c.toNat
  if n = 0x130 then ['i', '\u0307']
  else
    match caseRuns.find? fun run =>
      run.first ≤ n && n ≤ run.last && (n - run.first) % run.stride = 0 with
    | some run => [Char.ofNat (n + run.shift).toNat]
    | none => [c]

def within (stretches : List (Nat × Nat)) (c : Char) : Bool :=
  stretches.any fun stretch => stretch.1 ≤ c.toNat && c.toNat ≤ stretch.2

/-- Whether the first character that is not skipped is cased. -/
def startsCased (text : List Char) : Bool :=
  match text.dropWhile (within skippedStretches) with
  | [] => false
  | c :: _ => within casedStretches c

/-- The form of a capital sigma between what stands before it, read backwards, and what follows:
final after a cased character with no cased character behind. -/
def lowerSigma (before after : List Char) : Char :=
  if startsCased before && !startsCased after then 'ς' else 'σ'

/-- Lower case, where `before` holds the characters already passed, the nearest first. -/
def lowerFrom (before : List Char) : List Char → List Char
  | [] => []
  | c :: after =>
    let lower := if c = 'Σ' then [lowerSigma before after] else lowerChar c
    lower ++ lowerFrom (c :: before) after

def lowercase (text : String) : String :=
  String.ofList (lowerFrom [] text.toList)

end ScriptHost.Text
