/-!
# Shortest decimals

The decimal that stands for a binary floating-point number: among the decimals
that round to the number those with the fewest digits, and of these the one
nearest to it. The search is exact, in natural numbers.
-/

namespace StepChain

/-- The decimal `digits · 10 ^ exponent`. -/
structure Decimal where
  digits : Nat
  exponent : Int
  deriving DecidableEq, Repr

namespace Decimal

/-- Which of two equally near decimals stands for a number. -/
inductive Tie where
  | toEven
  | away
  deriving DecidableEq, Repr

/-- The positive number `significand · 2 ^ exponent`. -/
structure Binary where
  significand : Nat
  exponent : Int
  /-- Whether the number below is only half as far away as the number above. -/
  narrowBelow : Bool
  deriving DecidableEq, Repr

/-- Two numbers over a common positive scale: quarters of the number's last
place, and the decimal grid `10 ^ power`. -/
def scales (binary : Binary) (power : Int) : Nat × Nat :=
  let quarter := binary.exponent - 2
  (Nat.pow 2 quarter.toNat * Nat.pow 10 (-power).toNat,
    Nat.pow 10 power.toNat * Nat.pow 2 (-quarter).toNat)

/-- Whether `digits · 10 ^ power` rounds to the number. The ends of the interval
belong to it when the significand is even. -/
def roundsTo (binary : Binary) (power : Int) (digits : Nat) : Bool :=
  let (quarter, grid) := scales binary power
  let low := (4 * binary.significand - (if binary.narrowBelow then 1 else 2)) * quarter
  let high := (4 * binary.significand + 2) * quarter
  let point := digits * grid
  if binary.significand % 2 = 0 then low ≤ point && point ≤ high
  else low < point && point < high

/-- The nearest decimal on the grid `10 ^ power` that rounds to the number. -/
def onGrid? (tie : Tie) (binary : Binary) (power : Int) : Option Nat :=
  let (quarter, grid) := scales binary power
  let exact := 4 * binary.significand * quarter
  let below := exact / grid
  let above := below + 1
  match roundsTo binary power below, roundsTo binary power above with
  | true, true =>
      let rest := exact - below * grid
      let upward := grid < 2 * rest ||
        (grid = 2 * rest && (tie = .away || below % 2 = 1))
      some (if upward then above else below)
  | true, false => some below
  | false, true => some above
  | false, false => none

/-- The first grid, from coarse to fine, that has a decimal for the number. -/
def search (tie : Tie) (binary : Binary) (power : Int) : Nat → Decimal
  | 0 => { digits := 0, exponent := 0 }
  | rounds + 1 =>
      match onGrid? tie binary power with
      | some digits => { digits, exponent := power }
      | none => search tie binary (power - 1) rounds

/-- Drop zeros at the end of the digits. -/
def strip (decimal : Decimal) : Nat → Decimal
  | 0 => decimal
  | rounds + 1 =>
      if decimal.digits ≠ 0 ∧ decimal.digits % 10 = 0 then
        strip { digits := decimal.digits / 10, exponent := decimal.exponent + 1 } rounds
      else decimal

/-- The power of ten of the coarsest grid worth trying. -/
def topPower (binary : Binary) : Int :=
  (binary.exponent + binary.significand.log2 + 1) * 30103 / 100000 + 1

/-- The shortest decimal of a positive number. -/
def shortest (tie : Tie) (binary : Binary) : Decimal :=
  strip (search tie binary (topPower binary) 24) 24

end Decimal

/-- A floating-point number taken apart. -/
inductive FloatParts where
  | nan
  | infinite (negative : Bool)
  | zero (negative : Bool)
  | finite (negative : Bool) (magnitude : Decimal.Binary)
  deriving DecidableEq, Repr

namespace FloatParts

/-- Take the 64 bits of a number apart: sign, eleven bits of exponent, and the
fraction. -/
def ofBits (bits : Nat) : FloatParts :=
  let negative := bits / Nat.pow 2 63 % 2 == 1
  let biased : Nat := bits / Nat.pow 2 52 % Nat.pow 2 11
  let fraction : Nat := bits % Nat.pow 2 52
  if biased = 2047 then
    if fraction = 0 then infinite negative else nan
  else if biased = 0 then
    if fraction = 0 then zero negative
    else
      finite negative { significand := fraction, exponent := -1074, narrowBelow := false }
  else
    finite negative
      { significand := Nat.pow 2 52 + fraction
        exponent := (biased : Int) - 1075
        narrowBelow := fraction = 0 && 1 < biased }

def ofFloat (number : Float) : FloatParts :=
  ofBits number.toBits.toNat

end FloatParts

end StepChain
