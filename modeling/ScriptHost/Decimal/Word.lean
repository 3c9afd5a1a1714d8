/-
Reading numbers of sixteen bits: decimal digits, with a plus sign at most before them.
-/
import ScriptHost.Decimal.Reading

namespace ScriptHost.Decimal

/-- Why a text is no number of sixteen bits. -/
inductive WordError where
  | empty
  | invalidDigit
  | tooLarge
  deriving Repr, DecidableEq

def WordError.message : WordError → String
  | .empty => "cannot parse integer from empty string"
  | .invalidDigit => "invalid digit found in string"
  | .tooLarge => "number too large to fit in target type"

def WordError.debug : WordError → String
  | .empty => "ParseIntError \x7b kind: Empty \x7d"
  | .invalidDigit => "ParseIntError \x7b kind: InvalidDigit \x7d"
  | .tooLarge => "ParseIntError \x7b kind: PosOverflow \x7d"

def appendDigit (n : Nat) (c : Char) : Except WordError Nat :=
  if !c.isDigit then .error .invalidDigit
  else if n * 10 + (c.toNat - '0'.toNat) < 65536 then .ok (n * 10 + (c.toNat - '0'.toNat))
  else .error .tooLarge

/-- The number that a text denotes. The first character that is no digit, or does not fit, decides. -/
def readWord (text : List Char) : Except WordError UInt16 :=
  match text with
  | [] => .error .empty
  | '+' :: first :: rest => ((first :: rest).foldlM appendDigit 0).map Nat.toUInt16
  | _ => (text.foldlM appendDigit 0).map Nat.toUInt16

end ScriptHost.Decimal
