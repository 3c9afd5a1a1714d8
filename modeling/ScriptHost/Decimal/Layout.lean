/-
How a double is written: its shortest digits, laid out positionally or with an exponent. What a
format decides is one record; what all formats share is the code.
-/
import ScriptHost.Decimal.Shortest

namespace ScriptHost.Decimal

/-- The decisions of a number format. -/
structure Format where
  /-- Exponents of the first digit for which no exponent is written. -/
  positional : Int → Bool
  /-- Whether a whole number written positionally ends in a point and a zero. -/
  pointZero : Bool
  tie : Tie

def zeros (n : Int) : List Char := List.replicate n.toNat '0'

/-- Digits around the decimal point, in their places. -/
def Digits.positional (d : Digits) (pointZero : Bool) : List Char :=
  if d.lead < 0 then '0' :: '.' :: (zeros (-d.lead - 1) ++ d.digits)
  else
    let whole := d.digits.take (d.lead + 1).toNat ++ zeros (d.lead + 1 - d.digits.length)
    match d.digits.drop (d.lead + 1).toNat with
    | [] => if pointZero then whole ++ ['.', '0'] else whole
    | fraction => whole ++ '.' :: fraction

/-- One digit, a point before the others, and a signed exponent. -/
def Digits.scientific (d : Digits) : List Char :=
  let mantissa :=
    match d.digits with
    | first :: second :: rest => first :: '.' :: second :: rest
    | short => short
  let sign := if d.lead < 0 then '-' else '+'
  mantissa ++ 'e' :: sign :: Nat.toDigits 10 d.lead.natAbs

def Format.render (format : Format) (x : Float) : String :=
  match Double.ofFloat x with
  | .nan => "NaN"
  | .infinite negative => if negative then "-inf" else "inf"
  | .finite negative magnitude =>
    let d := magnitude.shortest format.tie
    let text := if format.positional d.lead then d.positional format.pointZero else d.scientific
    String.ofList (if negative then '-' :: text else text)

end ScriptHost.Decimal
