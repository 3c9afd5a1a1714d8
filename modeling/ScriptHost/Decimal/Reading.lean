/-
Reading decimals. A decimal is a sign, digits with an optional point among or beside them, and an
optional exponent; its value is the nearest double. The words for infinity and for no number are
accepted in any case of letters.
-/

namespace ScriptHost.Decimal

def ofDigits (digits : List Char) : Nat :=
  digits.foldl (fun n c => n * 10 + (c.toNat - '0'.toNat)) 0

/-- The double nearest to `mantissa * 10 ^ exponent`. Numbers whose first digit stands above `10 ^ 310`
are infinite, and those below `10 ^ -330` are zero. -/
def nearest (mantissa : Nat) (exponent : Int) : Float :=
  let lead := (Nat.toDigits 10 mantissa).length + exponent
  if mantissa = 0 || lead < -330 then 0
  else if lead > 310 then 1 / 0
  else if exponent < 0 then Float.ofScientific mantissa true exponent.natAbs
  else Float.ofScientific (mantissa * Nat.pow 10 exponent.natAbs) false 0

def splitSign : List Char → Bool × List Char
  | '-' :: rest => (true, rest)
  | '+' :: rest => (false, rest)
  | text => (false, text)

/-- An exponent, from its letter to the end of the text. No text is the exponent zero. -/
def exponent? : List Char → Option Int
  | [] => some 0
  | c :: rest =>
    if c = 'e' || c = 'E' then
      let (negative, digits) := splitSign rest
      if digits.isEmpty || !digits.all Char.isDigit then none
      else some (if negative then -(ofDigits digits : Int) else ofDigits digits)
    else none

/-- A decimal without its sign. -/
def magnitude? (text : List Char) : Option Float :=
  let whole := text.takeWhile Char.isDigit
  let (fraction, rest) :=
    match text.dropWhile Char.isDigit with
    | '.' :: rest => (rest.takeWhile Char.isDigit, rest.dropWhile Char.isDigit)
    | rest => ([], rest)
  if whole.isEmpty && fraction.isEmpty then none
  else (exponent? rest).map fun e => nearest (ofDigits (whole ++ fraction)) (e - fraction.length)

/-- The words for numbers without digits. -/
def special? (text : List Char) : Option Float :=
  match String.ofList (text.map Char.toLower) with
  | "inf" => some (1 / 0)
  | "infinity" => some (1 / 0)
  | "nan" => some (0 / 0)
  | _ => none

def read? (text : List Char) : Option Float :=
  let (negative, rest) := splitSign text
  ((special? rest).or (magnitude? rest)).map fun x => if negative then -x else x

end ScriptHost.Decimal
