import StepChain.Text.Invisible

/-!
# Quoted text

A text between double quotes, with escapes for the quote, the backslash,
controls, and every character that has no shape of its own.
-/

namespace StepChain.Text

/-- A number in lower-case hexadecimal digits. -/
def hexDigits (number : Nat) : List Char :=
  Nat.toDigits 16 number

/-- How one character stands in a quoted text. -/
def quoteChar (c : Char) : List Char :=
  if c = '\x00' then ['\\', '0']
  else if c = '\t' then ['\\', 't']
  else if c = '\n' then ['\\', 'n']
  else if c = '\r' then ['\\', 'r']
  else if c = '"' then ['\\', '"']
  else if c = '\\' then ['\\', '\\']
  else if c.toNat < 0x20 || isInvisible c then
    '\\' :: 'u' :: '\x7b' :: (hexDigits c.toNat ++ ['\x7d'])
  else [c]

/-- A text between double quotes. -/
def quote (text : String) : String :=
  String.ofList ('"' :: (text.toList.flatMap quoteChar ++ ['"']))

end StepChain.Text
