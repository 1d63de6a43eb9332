import StepChain.Decimal.Text
import StepChain.Toml.Table

/-!
# Numbers and moments in key-value documents

Whole numbers are decimal without superfluous zeros, or marked as hexadecimal,
octal or binary; floating-point numbers have a fraction or an exponent. Single
underscores may stand between digits. Dates and times are checked and not kept.
-/

namespace StepChain.Toml

/-- Digits, with single underscores allowed between two of them. -/
def digits? (test : Char → Bool) : List Char → Option (List Char)
  | [] => none
  | [c] => if test c then some [c] else none
  | c :: '_' :: rest => if test c then (digits? test rest).map (c :: ·) else none
  | c :: rest => if test c then (digits? test rest).map (c :: ·) else none

/-- The value of a digit. -/
def digitValue (c : Char) : Nat :=
  if c.isDigit then c.toNat - '0'.toNat
  else if c.isLower then c.toNat - 'a'.toNat + 10
  else c.toNat - 'A'.toNat + 10

def digitsValue (base : Nat) (digits : List Char) : Nat :=
  digits.foldl (fun acc c => acc * base + digitValue c) 0

def isHexDigit (c : Char) : Bool :=
  c.isDigit || ('a' ≤ c && c ≤ 'f') || ('A' ≤ c && c ≤ 'F')

/-- Take a sign off a text: whether it is a minus sign, and the rest. -/
def takeSign : List Char → Bool × List Char
  | '-' :: rest => (true, rest)
  | '+' :: rest => (false, rest)
  | rest => (false, rest)

/-- The digits of a decimal number, without a superfluous zero in front. -/
def decimal? (text : List Char) : Option (List Char) := do
  let digits ← digits? Char.isDigit text
  if 1 < digits.length && digits.head? == some '0' then none else some digits

/-- Read a whole number of any size. -/
def anyWhole? : List Char → Option Int
  | '0' :: 'x' :: rest => (digits? isHexDigit rest).map fun digits => digitsValue 16 digits
  | '0' :: 'o' :: rest =>
      (digits? (fun c => '0' ≤ c && c ≤ '7') rest).map fun digits => digitsValue 8 digits
  | '0' :: 'b' :: rest =>
      (digits? (fun c => c == '0' || c == '1') rest).map fun digits => digitsValue 2 digits
  | text =>
      let (negative, rest) := takeSign text
      (decimal? rest).map fun digits =>
        let magnitude : Int := digitsValue 10 digits
        if negative then -magnitude else magnitude

/-- Read a whole number of at most 128 bits. -/
def whole? (text : List Char) : Option Int :=
  (anyWhole? text).filter fun value => -(Nat.pow 2 127 : Int) ≤ value ∧ value < Nat.pow 2 128

/-- Whether a text is an exponent. -/
def isExponent : List Char → Bool
  | mark :: rest =>
      (mark == 'e' || mark == 'E') && (digits? Char.isDigit (takeSign rest).2).isSome
  | [] => false

/-- Whether a text is a fraction, with or without an exponent after it. -/
def isFraction : List Char → Bool
  | '.' :: rest =>
      let inFraction := fun c : Char => c.isDigit || c == '_'
      let exponent := rest.dropWhile inFraction
      (digits? Char.isDigit (rest.takeWhile inFraction)).isSome &&
        (exponent.isEmpty || isExponent exponent)
  | _ => false

/-- Read a floating-point number that is finite or says that it is not. -/
def float? (text : List Char) : Option Float :=
  let (negative, unsigned) := takeSign text
  if unsigned == ['i', 'n', 'f'] then some (if negative then -(1.0 / 0.0) else 1.0 / 0.0)
  else if unsigned == ['n', 'a', 'n'] then some (0.0 / 0.0)
  else
    let inWhole := fun c : Char => c.isDigit || c == '_'
    let rest := unsigned.dropWhile inWhole
    if (decimal? (unsigned.takeWhile inWhole)).isSome && (isFraction rest || isExponent rest) then
      (readFloat? (String.ofList (text.filter (· != '_')))).filter fun number => number.isFinite
    else none

/-- The value of exactly two digits. -/
def pair? : List Char → Option Nat
  | [a, b] => if a.isDigit && b.isDigit then some (digitsValue 10 [a, b]) else none
  | _ => none

def daysIn (year month : Nat) : Nat :=
  if month == 2 then
    if year % 4 == 0 && (year % 100 != 0 || year % 400 == 0) then 29 else 28
  else if month == 4 || month == 6 || month == 9 || month == 11 then 30
  else 31

/-- Whether a text is a date such as `1979-05-27`. -/
def isDate : List Char → Bool
  | [a, b, c, d, '-', m, n, '-', x, y] =>
      match pair? [m, n], pair? [x, y] with
      | some month, some day =>
          [a, b, c, d].all Char.isDigit && 1 ≤ month && month ≤ 12 && 1 ≤ day &&
            day ≤ daysIn (digitsValue 10 [a, b, c, d]) month
      | _, _ => false
  | _ => false

/-- Whether a text is an hour and a minute. -/
def isClock (hour minute : List Char) : Bool :=
  (pair? hour).any (· < 24) && (pair? minute).any (· < 60)

/-- Whether a text is a time such as `07:32:00.5`; the seconds may be missing. -/
def isTime : List Char → Bool
  | [a, b, ':', c, d] => isClock [a, b] [c, d]
  | [a, b, ':', c, d, ':', e, f] => isClock [a, b] [c, d] && (pair? [e, f]).any (· ≤ 60)
  | a :: b :: ':' :: c :: d :: ':' :: e :: f :: '.' :: rest =>
      isClock [a, b] [c, d] && (pair? [e, f]).any (· ≤ 60) && !rest.isEmpty &&
        rest.all Char.isDigit
  | _ => false

/-- Whether a text is the distance of a time zone, such as `-07:00`. -/
def isOffset : List Char → Bool
  | ['Z'] | ['z'] => true
  | [sign, a, b, ':', c, d] => (sign == '+' || sign == '-') && isClock [a, b] [c, d]
  | _ => false

/-- Whether a text is a time, perhaps with a time zone. -/
def isZonedTime (text : List Char) : Bool :=
  let isZoneMark := fun c : Char => c == 'Z' || c == 'z' || c == '+' || c == '-'
  let time := text.takeWhile fun c => !isZoneMark c
  let zone := text.dropWhile fun c => !isZoneMark c
  isTime time && (zone.isEmpty || isOffset zone)

/-- Whether a text is a date, a time, or a date and a time. -/
def isMoment (text : List Char) : Bool :=
  isDate text || isTime text ||
    (isDate (text.take 10) && (text[10]?).any (fun c => c == 'T' || c == 't' || c == ' ') &&
      isZonedTime (text.drop 11))

/-- What a word in the place of a value stands for. -/
def ofWord? (word : List Char) : Option Toml :=
  if word == ['t', 'r', 'u', 'e'] then some (.bool true)
  else if word == ['f', 'a', 'l', 's', 'e'] then some (.bool false)
  else if isMoment word then some .moment
  else (whole? word).map Toml.int <|> (float? word).map Toml.float

end StepChain.Toml
