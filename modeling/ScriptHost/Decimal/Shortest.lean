/-
The shortest decimal of a double: of all decimals that round to the double, one with the fewest
digits, and of those the nearest. The search goes through grids of one digit, two digits and so on;
on each it tests the two points beside the value, and the first grid with a point in the rounding
interval decides. All of it is exact arithmetic on natural numbers.
-/

namespace ScriptHost.Decimal

/-! ## Doubles -/

/-- The number `mantissa * 2 ^ exponent`. -/
structure Binary where
  mantissa : Nat
  exponent : Int

inductive Double where
  | nan
  | infinite (negative : Bool)
  | finite (negative : Bool) (magnitude : Binary)

/-- Two to the fifty-second: the number of fractions, and the least mantissa of a normal double. -/
def fullMantissa : Nat := 4503599627370496

/-- Reads the sign, the eleven bits of the exponent and the fifty-two of the fraction. -/
def Double.ofFloat (x : Float) : Double :=
  let bits := x.toBits.toNat
  let negative := bits / fullMantissa / 2048 = 1
  let exponent : Nat := bits / fullMantissa % 2048
  let fraction := bits % fullMantissa
  if exponent = 2047 then
    if fraction = 0 then .infinite negative else .nan
  else if exponent = 0 then .finite negative ⟨fraction, -1074⟩
  else .finite negative ⟨fullMantissa + fraction, (exponent : Int) - 1075⟩

/-! ## The rounding interval -/

/-- Compares `a * 10 ^ p` with `b * 2 ^ q`. -/
def compareScaled (a : Nat) (p : Int) (b : Nat) (q : Int) : Ordering :=
  -- each power goes to the side where its exponent is not negative
  compare (a * Nat.pow 10 p.toNat * Nat.pow 2 (-q).toNat)
    (b * Nat.pow 2 q.toNat * Nat.pow 10 (-p).toNat)

/-- Whether `digits * 10 ^ p` rounds to the double. The interval reaches half way to both neighbours,
below a power of two only a quarter as far as the step above it; its ends belong to it when the
mantissa is even. -/
def Binary.roundsFrom (x : Binary) (digits : Nat) (p : Int) : Bool :=
  let below := if x.mantissa = fullMantissa && x.exponent > -1074 then 1 else 2
  let closed := x.mantissa % 2 = 0
  -- the ends in quarters of a step
  let low := compareScaled digits p (4 * x.mantissa - below) (x.exponent - 2)
  let high := compareScaled digits p (4 * x.mantissa + 2) (x.exponent - 2)
  (low == .gt || (closed && low == .eq)) && (high == .lt || (closed && high == .eq))

/-! ## Grids -/

/-- The greatest whole multiple of `10 ^ p` up to the number. -/
def Binary.floorAt (x : Binary) (p : Int) : Nat :=
  (x.mantissa * Nat.pow 2 x.exponent.toNat * Nat.pow 10 (-p).toNat)
    / (Nat.pow 2 (-x.exponent).toNat * Nat.pow 10 p.toNat)

/-- The exponent of the first digit of a positive number. Scaled by `10 ^ 330` the least positive
double has digits before the point. -/
def Binary.lead (x : Binary) : Int :=
  ((Nat.toDigits 10 (x.floorAt (-330))).length : Int) - 331

/-- Which of two equally near decimals is taken. -/
inductive Tie where
  | away
  | even

/-- The nearer of the two grid points beside the number, among those that round to it. -/
def Binary.onGrid (x : Binary) (tie : Tie) (p : Int) : Option Nat :=
  let down := x.floorAt p
  let up := down + 1
  match x.roundsFrom down p, x.roundsFrom up p with
  | false, false => none
  | true, false => some down
  | false, true => some up
  | true, true =>
    match compareScaled (2 * down + 1) p x.mantissa (x.exponent + 1), tie with
    | .gt, _ => some down
    | .lt, _ => some up
    | .eq, .away => some up
    | .eq, .even => some (if down % 2 = 0 then down else up)

/-! ## Digits -/

/-- Decimal digits with the exponent of the first of them. -/
structure Digits where
  digits : List Char
  lead : Int

/-- The digits of `n * 10 ^ p`, without zeros at the end. -/
def Digits.ofGrid (n : Nat) (p : Int) : Digits :=
  let all := Nat.toDigits 10 n
  ⟨(all.reverse.dropWhile (· = '0')).reverse, p + all.length - 1⟩

/-- The digits of the shortest decimal; seventeen always suffice. -/
def Binary.shortest (x : Binary) (tie : Tie) : Digits :=
  if x.mantissa = 0 then ⟨['0'], 0⟩
  else
    let lead := x.lead
    let found := (List.range 17).findSome? fun (k : Nat) =>
      (x.onGrid tie (lead - k)).map fun n => Digits.ofGrid n (lead - k)
    found.getD (Digits.ofGrid (x.floorAt (lead - 16)) (lead - 16))

end ScriptHost.Decimal
