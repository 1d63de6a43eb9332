import StepChain.Decimal.Shortest

/-!
# Text of floating-point numbers

Numbers are written with the fewest digits that read back. A style says where
positional notation ends and how the special values are spelled. Reading takes
decimals with an optional fraction and exponent.
-/

namespace StepChain

/-- How numbers are spelled. -/
structure FloatStyle where
  tie : Decimal.Tie
  /-- Positions of the decimal point, counted from the first digit, for which
  notation is positional; without a limit it always is. -/
  positional : Option (Int × Int)
  infinity : String
  nan : String

namespace FloatStyle

/-- Documents: the point stands within four zeros before the digits and sixteen
digits before it, or an exponent is written. -/
def document : FloatStyle :=
  { tie := .toEven, positional := some (-4, 16), infinity := ".inf", nan := ".nan" }

/-- Messages: never with an exponent. -/
def message : FloatStyle :=
  { tie := .away, positional := none, infinity := "inf", nan := "NaN" }

end FloatStyle

namespace Decimal

def zeros (count : Nat) : List Char := List.replicate count '0'

/-- Digits with the decimal point at a position, and at least one digit on
either side of it. -/
def positionalText (digits : List Char) (point : Int) : List Char :=
  if point ≤ 0 then '0' :: '.' :: (zeros (-point).toNat ++ digits)
  else if (digits.length : Int) ≤ point then
    digits ++ zeros (point - digits.length).toNat ++ ['.', '0']
  else digits.take point.toNat ++ '.' :: digits.drop point.toNat

/-- One digit, the others after a point, and the exponent. -/
def exponentText (digits : List Char) (point : Int) : List Char :=
  let mantissa := match digits with
    | [] => []
    | [digit] => [digit]
    | digit :: rest => digit :: '.' :: rest
  mantissa ++ 'e' :: (toString (point - 1)).toList

def text (style : FloatStyle) (decimal : Decimal) : List Char :=
  let digits := decimal.digits.repr.toList
  let point := decimal.exponent + digits.length
  match style.positional with
  | some (low, high) =>
      if low ≤ point ∧ point ≤ high then positionalText digits point
      else exponentText digits point
  | none => positionalText digits point

end Decimal

/-- The text of a number taken apart. -/
def FloatParts.text (style : FloatStyle) : FloatParts → String
  | nan => style.nan
  | infinite negative => sign negative ++ style.infinity
  | zero negative => sign negative ++ "0.0"
  | finite negative magnitude =>
      sign negative ++
        String.ofList ((Decimal.shortest style.tie magnitude).text style)
where
  sign (negative : Bool) : String := if negative then "-" else ""

/-- The text of a number. -/
def floatText (style : FloatStyle) (number : Float) : String :=
  (FloatParts.ofFloat number).text style

/-- Read digits; there must be nothing else. -/
def digitsValue? (digits : List Char) : Option Nat :=
  if digits.all Char.isDigit then
    some (digits.foldl (fun acc digit => acc * 10 + (digit.toNat - '0'.toNat)) 0)
  else none

/-- The number nearest to `digits · 10 ^ exponent`. -/
def Decimal.toFloat (decimal : Decimal) : Float :=
  let size : Int := decimal.digits.repr.length + decimal.exponent
  if decimal.digits = 0 ∨ size < -400 then 0.0
  else if 400 < size then 1.0 / 0.0
  else Float.ofScientific decimal.digits (decimal.exponent < 0) decimal.exponent.natAbs

/-- Read a number without a sign: digits with an optional fraction, then an
optional exponent. A digit must stand before or after the point. -/
def readMagnitude? (text : List Char) : Option Decimal := do
  let whole := text.takeWhile Char.isDigit
  let (fraction, rest) := match text.dropWhile Char.isDigit with
    | '.' :: after => (after.takeWhile Char.isDigit, after.dropWhile Char.isDigit)
    | after => ([], after)
  if whole.isEmpty && fraction.isEmpty then none
  let digits ← digitsValue? (whole ++ fraction)
  let exponent ← match rest with
    | [] => some 0
    | mark :: after =>
        if mark = 'e' || mark = 'E' then readExponent? after else none
  some { digits, exponent := exponent - fraction.length }
where
  readExponent? (text : List Char) : Option Int :=
    let (negative, digits) := match text with
      | '-' :: rest => (true, rest)
      | '+' :: rest => (false, rest)
      | rest => (false, rest)
    if digits.isEmpty then none
    else (digitsValue? digits).map fun value => if negative then -(value : Int) else value

/-- Read a number with an optional sign. The special values are spelled `inf`,
`infinity` and `nan` in any case. -/
def readFloat? (text : String) : Option Float :=
  let (negative, rest) := match text.toList with
    | '-' :: rest => (true, rest)
    | '+' :: rest => (false, rest)
    | rest => (false, rest)
  let magnitude : Option Float :=
    match String.ofList (rest.map Char.toLower) with
    | "inf" => some (1.0 / 0.0)
    | "infinity" => some (1.0 / 0.0)
    | "nan" => some (0.0 / 0.0)
    | _ => (readMagnitude? rest).map Decimal.toFloat
  magnitude.map fun number => if negative then -number else number

end StepChain
