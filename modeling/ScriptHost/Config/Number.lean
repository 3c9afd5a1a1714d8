/-
Numbers of a document. The grammar is a small automaton over characters; the value is a whole number
of sixty-four bits where there is neither a point nor an exponent and it fits, and a double
otherwise. A double is found by scaling the leading digits that fit into sixty-four bits once by a
power of ten, so its last bit is not always the nearest.
-/
import ScriptHost.Config.Error
import ScriptHost.Decimal.Reading

namespace ScriptHost.Config

/-! ## Grammar -/

/-- How far a number has been read. -/
inductive NumberPoint where
  | sign
  | zero
  | whole
  | point
  | fraction
  | exponent
  | exponentSign
  | exponentDigits
  deriving Repr, DecidableEq

namespace NumberPoint

/-- Whether a number may end here. -/
def complete : NumberPoint → Bool
  | .zero | .whole | .fraction | .exponentDigits => true
  | _ => false

def start? (c : Char) : Option NumberPoint :=
  if c = '-' then some .sign
  else if c = '0' then some .zero
  else if c.isDigit then some .whole
  else none

def isMark (c : Char) : Bool := c = 'e' || c = 'E'

/-- Where a character leads. `none` says that the number ended before it. -/
def next (p : NumberPoint) (c : Char) : Except ReadError (Option NumberPoint) :=
  match p with
  | .sign =>
    if c = '0' then .ok (some .zero)
    else if c.isDigit then .ok (some .whole)
    else .error .invalidNumber
  | .zero =>
    if c.isDigit then .error .invalidNumber
    else if c = '.' then .ok (some .point)
    else .ok (if isMark c then some .exponent else none)
  | .whole =>
    if c.isDigit then .ok (some .whole)
    else if c = '.' then .ok (some .point)
    else .ok (if isMark c then some .exponent else none)
  | .point => if c.isDigit then .ok (some .fraction) else .error .invalidNumber
  | .fraction =>
    if c.isDigit then .ok (some .fraction) else .ok (if isMark c then some .exponent else none)
  | .exponent =>
    if c = '+' || c = '-' then .ok (some .exponentSign)
    else if c.isDigit then .ok (some .exponentDigits)
    else .error .invalidNumber
  | .exponentSign => if c.isDigit then .ok (some .exponentDigits) else .error .invalidNumber
  | .exponentDigits => .ok (if c.isDigit then some .exponentDigits else none)

end NumberPoint

/-! ## Value -/

/-- Two to the sixty-fourth, the first number that does not fit into sixty-four bits. -/
def wordEnd : Nat := 18446744073709551616

/-- Leading digits of a number and the digits that no longer fit into sixty-four bits. -/
def takeWord : Nat → List Char → Nat × List Char
  | n, [] => (n, [])
  | n, c :: rest =>
    let m := n * 10 + (c.toNat - '0'.toNat)
    if m < wordEnd then takeWord m rest else (n, c :: rest)

structure NumberParts where
  negative : Bool
  whole : List Char
  /-- The digits after the point, if there is one. -/
  fraction : Option (List Char)
  /-- The sign and the digits of the exponent, if there is one. -/
  exponent : Option (Bool × List Char)

def NumberParts.ofText (text : List Char) : NumberParts :=
  let (negative, rest) := Decimal.splitSign text
  let whole := rest.takeWhile Char.isDigit
  let (fraction, rest) :=
    match rest.dropWhile Char.isDigit with
    | '.' :: rest => (some (rest.takeWhile Char.isDigit), rest.dropWhile Char.isDigit)
    | rest => (none, rest)
  let exponent :=
    match rest with
    | _ :: rest => some (Decimal.splitSign rest)
    | [] => none
  ⟨negative, whole, fraction, exponent⟩

/-- The greatest exponent that is read, and the greatest power of ten that is a double. -/
def greatestExponent : Nat := 2147483647
def greatestPower : Nat := 308

def powerOfTen (n : Nat) : Float := Float.ofScientific 1 false n

/-- Divides by the greatest power of ten until the exponent is within reach. -/
def scaleDown : Nat → Float → Nat → Float
  | 0, x, _ => x
  | fuel + 1, x, n =>
    if n ≤ greatestPower then x / powerOfTen n
    else if x == 0 then x
    else scaleDown fuel (x / powerOfTen greatestPower) (n - greatestPower)

/-- `significand * 10 ^ exponent` as a double. Three divisions take any significand to zero. -/
def scale (significand : Nat) (exponent : Int) : Except ReadError Float :=
  let x := significand.toUInt64.toFloat
  if exponent < 0 then .ok (scaleDown 4 x exponent.natAbs)
  else if exponent.natAbs ≤ greatestPower then
    let y := x * powerOfTen exponent.natAbs
    if y.isInf then .error .numberOutOfRange else .ok y
  else if x == 0 then .ok x
  else .error .numberOutOfRange

def NumberParts.magnitude (parts : NumberParts) : Except ReadError Float :=
  let (n, left) := takeWord 0 parts.whole
  let (significand, used) :=
    match parts.fraction with
    | none => (n, 0)
    | some digits =>
      let (m, unread) := takeWord n digits
      (m, digits.length - unread.length)
  let shift : Int := (left.length : Int) - used
  match parts.exponent with
  | none => scale significand shift
  | some (negative, digits) =>
    let e := Decimal.ofDigits digits
    if e > greatestExponent then
      if significand ≠ 0 && !negative then .error .numberOutOfRange else .ok 0
    else scale significand (if negative then shift - e else shift + e)

/-- The value of a number. A negative zero is a double. -/
def readNumber (text : List Char) : Except ReadError Scalar :=
  let parts := NumberParts.ofText text
  let n := Decimal.ofDigits parts.whole
  let fits := if parts.negative then 0 < n && 2 * n ≤ wordEnd else n < wordEnd
  if parts.fraction.isNone && parts.exponent.isNone && fits then
    .ok (.integer (if parts.negative then -(n : Int) else n))
  else
    parts.magnitude.map fun x => .float (if parts.negative then -x else x)

end ScriptHost.Config
