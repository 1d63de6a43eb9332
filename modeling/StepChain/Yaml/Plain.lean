import StepChain.Decimal.Text
import StepChain.Yaml.Token
import StepChain.Yaml.Value

/-!
# Plain texts

What a plain text stands for: null, a boolean, a whole number, a floating-point
number, or else itself. Whole numbers may be written in base 2, 8 and 16. A
decimal number with superfluous zeros in front is no number.
-/

namespace StepChain.Yaml

/-- Spellings of null; an empty plain text is null as well. -/
def isNullText (text : String) : Bool :=
  ["null", "Null", "NULL", "~"].contains text

/-- Read a boolean. -/
def boolText? (text : String) : Option Bool :=
  if ["true", "True", "TRUE"].contains text then some true
  else if ["false", "False", "FALSE"].contains text then some false
  else none

/-- Whether a text has digits only, after an optional sign, with a superfluous
zero in front. -/
def hasLeadingZero (text : List Char) : Bool :=
  let digits := match text with
    | '-' :: rest => rest
    | '+' :: rest => rest
    | rest => rest
  1 < digits.length && digits.head? == some '0' && digits.all Char.isDigit

/-- The value of a digit in a base. -/
def digitIn? (base : Nat) (c : Char) : Option Nat :=
  (Lexer.hexValue? c).filter (· < base)

/-- Read digits in a base; there must be one. -/
def digitsIn? (base : Nat) (digits : List Char) : Option Nat :=
  if digits.isEmpty then none
  else digits.foldl (fun acc c => do some ((← acc) * base + (← digitIn? base c))) (some 0)

/-- Read digits after a mark of their base, such as `0x`. -/
def markedDigits? : List Char → Option Nat
  | '0' :: 'x' :: digits => digitsIn? 16 digits
  | '0' :: 'o' :: digits => digitsIn? 8 digits
  | '0' :: 'b' :: digits => digitsIn? 2 digits
  | _ => none

/-- Read a whole number without a minus sign. -/
def natText? (text : List Char) : Option Nat :=
  let unsigned := match text with
    | '+' :: rest => rest
    | rest => rest
  match markedDigits? unsigned with
  | some value => some value
  | none => if hasLeadingZero text then none else digitsIn? 10 unsigned

/-- Read the magnitude of a whole number with a minus sign. -/
def negatedText? : List Char → Option Nat
  | '-' :: rest =>
      match markedDigits? rest with
      | some value => some value
      | none => if hasLeadingZero rest then none else digitsIn? 10 rest
  | _ => none

/-- A whole number as it was written. -/
inductive WholeNumber where
  /-- One that has a representation. -/
  | fits (value : Int)
  /-- One of more than 64 bits, but not more than 128. -/
  | wide

/-- Read a whole number. One that needs more than 128 bits is read as a
floating-point number instead. -/
def wholeText? (text : String) : Option WholeNumber :=
  match natText? text.toList with
  | some value =>
      if value < Nat.pow 2 64 then some (.fits value)
      else if value < Nat.pow 2 128 then some .wide
      else none
  | none =>
      match negatedText? text.toList with
      | some magnitude =>
          if magnitude ≤ Nat.pow 2 63 then some (.fits (-(magnitude : Int)))
          else if magnitude ≤ Nat.pow 2 127 then some .wide
          else none
      | none => none

/-- Read a floating-point number; one too large to be finite is none. -/
def floatText? (text : String) : Option Float :=
  if [".inf", ".Inf", ".INF", "+.inf", "+.Inf", "+.INF"].contains text then some (1.0 / 0.0)
  else if ["-.inf", "-.Inf", "-.INF"].contains text then some (-(1.0 / 0.0))
  else if [".nan", ".NaN", ".NAN"].contains text then some (0.0 / 0.0)
  else
    let unsigned := match text.toList with
      | '+' :: '+' :: _ => "+"
      | '+' :: '-' :: _ => "+"
      | '+' :: rest => String.ofList rest
      | _ => text
    (readFloat? unsigned).filter fun number => number.isFinite

/-- What a plain text stands for. -/
def ofPlain (text : String) : Except YamlFault Yaml :=
  if text.isEmpty || isNullText text then .ok .null
  else
    match boolText? text with
    | some flag => .ok (.bool flag)
    | none =>
        match wholeText? text with
        | some (.fits value) => .ok (.int value)
        | some .wide => .error .numberTooLarge
        | none =>
            if hasLeadingZero text.toList then .ok (.str text)
            else
              match floatText? text with
              | some number => .ok (.float number)
              | none => .ok (.str text)

/-- What a text stands for under a tag of the core types; other tags of that kind
leave it as it is. -/
def ofCoreTag (tag : String) (text : String) : Except YamlFault Yaml :=
  match tag with
  | "tag:yaml.org,2002:bool" =>
      match boolText? text with
      | some flag => .ok (.bool flag)
      | none => .error .mismatchedTag
  | "tag:yaml.org,2002:int" =>
      match wholeText? text with
      | some (.fits value) => .ok (.int value)
      | some .wide => .error .numberTooLarge
      | none => .error .mismatchedTag
  | "tag:yaml.org,2002:float" =>
      match floatText? text with
      | some number => .ok (.float number)
      | none => .error .mismatchedTag
  | "tag:yaml.org,2002:null" =>
      if isNullText text then .ok .null else .error .mismatchedTag
  | _ => .ok (.str text)

/-- What a text stands for when it is written in a style and has no tag. -/
def ofUntagged (style : ScalarStyle) (text : String) : Except YamlFault Yaml :=
  if style = .plain then ofPlain text else .ok (.str text)

end StepChain.Yaml
