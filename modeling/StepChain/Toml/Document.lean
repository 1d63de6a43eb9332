import StepChain.Toml.Scalar

/-!
# Key-value documents

A document is a sequence of lines: a key with a value, the header of a table, or
nothing but a comment. Texts stand between single or double quotes, or three of
either where they may have several lines.
-/

namespace StepChain.Toml

/-- Characters that comments and texts on one line may hold. -/
def isTextChar (c : Char) : Bool :=
  c == '\t' || (0x20 ≤ c.toNat && c.toNat != 0x7f)

def isBlankChar (c : Char) : Bool :=
  c == ' ' || c == '\t'

def isKeyChar (c : Char) : Bool :=
  c.isAlphanum || c == '_' || c == '-'

/-- The characters of numbers, moments and named values. -/
def isWordChar (c : Char) : Bool :=
  isKeyChar c || c == '+' || c == '.' || c == ':'

/-- What a letter after a backslash stands for. -/
def escapedChar? : Char → Option Char
  | 'b' => some '\x08'
  | 't' => some '\t'
  | 'n' => some '\n'
  | 'f' => some '\x0c'
  | 'r' => some '\r'
  | 'e' => some '\x1b'
  | '"' => some '"'
  | '\\' => some '\\'
  | _ => none

/-- The number of hexadecimal digits after the letter of an escape. -/
def escapeWidth? : Char → Option Nat
  | 'x' => some 2
  | 'u' => some 4
  | 'U' => some 8
  | _ => none

/-- The character with a number in hexadecimal digits. -/
def charOfHex? (width : Nat) (digits : List Char) : Option Char :=
  let code := digitsValue 16 digits
  if digits.length == width && digits.all isHexDigit && code.isValidChar then
    some (Char.ofNat code)
  else none

/-- What stands after a backslash: a character, and how much of the text it takes. -/
def escape? : List Char → Option (Char × Nat)
  | [] => none
  | c :: rest =>
      match escapeWidth? c with
      | some width => (charOfHex? width (rest.take width)).map fun c => (c, width + 1)
      | none => (escapedChar? c).map fun c => (c, 1)

/-- Take a line break off a text. -/
def takeBreak? : List Char → Option (List Char)
  | '\n' :: rest => some rest
  | '\r' :: '\n' :: rest => some rest
  | _ => none

/-- Whether nothing but blanks stands before the next line break. -/
def blankLine (text : List Char) : Bool :=
  (takeBreak? (text.dropWhile isBlankChar)).isSome

/-- A text without the blanks and line breaks in front of it. -/
def dropSpace : List Char → List Char
  | '\r' :: '\n' :: rest => dropSpace rest
  | c :: rest => if isBlankChar c || c == '\n' then dropSpace rest else c :: rest
  | [] => []

/-- A text up to its quote, and what follows. -/
abbrev Quoted := Option (List Char × List Char)

/-- Put a character in front of a text. -/
def Quoted.cons (c : Char) (text : Quoted) : Quoted :=
  text.map fun (inner, rest) => (c :: inner, rest)

/-- The end of a text between three quotes: up to two more quotes belong to it. -/
def closing? (quote : Char) (text : List Char) : Quoted :=
  let run := (text.takeWhile (· == quote)).length
  if run < 3 then none
  else
    let inside := min (run - 3) 2
    some (List.replicate inside quote, text.drop (inside + 3))

/-- Read a text on one line up to its quote. -/
def singleLine (quote : Char) (escapes : Bool) : Nat → List Char → Quoted
  | 0, _ => none
  | _ + 1, [] => none
  | rounds + 1, c :: rest =>
      if c == quote then some ([], rest)
      else if escapes && c == '\\' then do
        let (c, size) ← escape? rest
        Quoted.cons c (singleLine quote escapes rounds (rest.drop size))
      else if isTextChar c then Quoted.cons c (singleLine quote escapes rounds rest)
      else none

/-- Read a text of several lines up to its three quotes. A backslash at the end of
a line swallows the blanks and line breaks up to the next character. -/
def severalLines (quote : Char) (escapes : Bool) : Nat → List Char → Quoted
  | 0, _ => none
  | _ + 1, [] => none
  | rounds + 1, c :: rest =>
      match closing? quote (c :: rest) with
      | some closed => some closed
      | none =>
          if escapes && c == '\\' then
            if blankLine rest then severalLines quote escapes rounds (dropSpace rest)
            else do
              let (c, size) ← escape? rest
              Quoted.cons c (severalLines quote escapes rounds (rest.drop size))
          else if c == '\n' then Quoted.cons c (severalLines quote escapes rounds rest)
          else if c == '\r' then
            match rest with
            | '\n' :: rest => Quoted.cons '\n' (severalLines quote escapes rounds rest)
            | _ => none
          else if isTextChar c then Quoted.cons c (severalLines quote escapes rounds rest)
          else none

/-- Reads a part of a document. -/
abbrev Reader := StateT (List Char) Option

namespace Reader

def fail {α : Type} : Reader α := fun _ => none

/-- The next character. -/
def peek? : Reader (Option Char) := do
  return (← get).head?

/-- Move past a character. -/
def skip (count : Nat := 1) : Reader Unit :=
  modify fun rest => rest.drop count

/-- Move past a character if it is the given one, and tell whether it was. -/
def skipIf (c : Char) : Reader Bool := do
  if (← peek?) == some c then
    skip
    return true
  else return false

/-- Move past a character that must be there. -/
def expect (c : Char) : Reader Unit := do
  if !(← skipIf c) then fail

/-- Take the characters of a class. -/
def span (test : Char → Bool) : Reader (List Char) := do
  let rest ← get
  set (rest.dropWhile test)
  return rest.takeWhile test

def skipBlanks : Reader Unit := do
  let _ ← span isBlankChar

/-- Move past a comment, if there is one. -/
def skipComment : Reader Unit := do
  if ← skipIf '#' then
    let _ ← span isTextChar

/-- Move past a line break, if there is one, and tell whether there was. -/
def skipBreak : Reader Bool := do
  match takeBreak? (← get) with
  | some rest =>
      set rest
      return true
  | none => return false

/-- Move past blanks, comments and line breaks. -/
def skipSpace : Nat → Reader Unit
  | 0 => fail
  | rounds + 1 => do
      skipBlanks
      skipComment
      if ← skipBreak then skipSpace rounds

/-- Use a reader of quoted texts. -/
def quoted (read : List Char → Quoted) : Reader String := do
  match read (← get) with
  | some (text, rest) =>
      set rest
      return String.ofList text
  | none => fail

/-- Read a text between quotes of some kind. -/
def text (quote : Char) (multiline : Bool) : Reader String := do
  let rounds := (← get).length + 1
  let escapes := quote == '"'
  if multiline && (← get).take 3 == [quote, quote, quote] then
    skip 3
    let _ ← skipBreak
    quoted (severalLines quote escapes rounds)
  else
    skip
    quoted (singleLine quote escapes rounds)

/-- Read one part of a key. -/
def keyPart : Reader String := do
  match ← peek? with
  | some '"' => text '"' false
  | some '\'' => text '\'' false
  | _ =>
      let word ← span isKeyChar
      if word.isEmpty then fail else return String.ofList word

/-- How deep the collections of a document may nest, and how many parts a key may
have. -/
def maxDepth : Nat := 80

/-- Read at most some number of parts of a key, separated by dots. -/
def keyParts : Nat → Reader (List String)
  | 0 => fail
  | parts + 1 => do
      skipBlanks
      let part ← keyPart
      skipBlanks
      if ← skipIf '.' then return part :: (← keyParts parts)
      else return [part]

/-- Read a key. -/
def key : Reader (List String) :=
  keyParts maxDepth

/-- Read a number, a moment or a named value. A date and its time may be separated
by a space. -/
def word : Reader Toml := do
  let first ← span isWordChar
  let rest ← get
  let whole ←
    if isDate first && rest.head? == some ' ' && (rest.tail.head?).any Char.isDigit then do
      skip
      let time ← span isWordChar
      pure (first ++ ' ' :: time)
    else pure first
  match ofWord? whole with
  | some value => return value
  | none => fail

mutual

/-- Read a value, with collections nested at most to some depth. -/
def value : Nat → (depth : Nat) → Reader Toml
  | 0, _ => fail
  | rounds + 1, depth => do
      match ← peek? with
      | some '"' => return .str (← text '"' true)
      | some '\'' => return .str (← text '\'' true)
      | some '[' =>
          skip
          match depth with
          | 0 => fail
          | depth + 1 => return .array (← items rounds depth)
      | some '\x7b' =>
          skip
          match depth with
          | 0 => fail
          | depth + 1 => return .table .inline (← entries rounds depth [])
      | _ => word

/-- Read the items of an array up to its bracket. -/
def items : Nat → (depth : Nat) → Reader (List Toml)
  | 0, _ => fail
  | rounds + 1, depth => do
      skipSpace rounds
      if ← skipIf ']' then return []
      let item ← value rounds depth
      skipSpace rounds
      if ← skipIf ',' then return item :: (← items rounds depth)
      expect ']'
      return [item]

/-- Read the entries of an inline table up to its brace. Comments and line breaks may
stand anywhere but inside a key. -/
def entries : Nat → (depth : Nat) → TomlEntries → Reader TomlEntries
  | 0, _, _ => fail
  | rounds + 1, depth, before => do
      skipSpace rounds
      if ← skipIf '\x7d' then return before
      let keys ← key
      skipSpace rounds
      expect '='
      skipSpace rounds
      let value ← value rounds depth
      match before.put value keys with
      | none => fail
      | some after =>
          skipSpace rounds
          if ← skipIf ',' then entries rounds depth after
          else
            expect '\x7d'
            return after

end

/-- What was read of a document: its table, and the keys of the last header. -/
structure Draft where
  root : TomlEntries := []
  header : List String := []

/-- Change the draft, unless that breaks a rule of tables. -/
def change (draft : Draft) (keys : List String)
    (inTable : TomlEntries → Option TomlEntries) : Reader Draft :=
  match draft.root.alter inTable keys with
  | some root => return { draft with root }
  | none => fail

/-- Read a header, and open or append its table. -/
def header (draft : Draft) : Reader Draft := do
  let appended ← skipIf '['
  let keys ← key
  expect ']'
  if appended then expect ']'
  let last := keys.getLast?.getD ""
  let open? := if appended then TomlEntries.appendTable last else TomlEntries.openTable last
  let draft ← change draft keys.dropLast open?
  return { draft with header := keys }

/-- Read what stands on a line besides blanks and a comment. -/
def statement (rounds : Nat) (draft : Draft) : Reader Draft := do
  match ← peek? with
  | none | some '\n' | some '\r' | some '#' => return draft
  | some '[' =>
      skip
      header draft
  | _ =>
      let keys ← key
      expect '='
      skipBlanks
      let value ← value rounds maxDepth
      change draft draft.header (·.put value keys)

/-- Read the lines of a document. -/
def lines (rounds : Nat) : Nat → Draft → Reader TomlEntries
  | 0, _ => fail
  | count + 1, draft => do
      skipBlanks
      let draft ← statement rounds draft
      skipBlanks
      skipComment
      if ← skipBreak then lines rounds count draft
      else if (← get).isEmpty then return draft.root
      else fail

end Reader

/-- The table that a document amounts to; a byte order mark may stand in front. -/
def ofText? (text : String) : Option TomlEntries :=
  let content := match text.toList with
    | '\ufeff' :: rest => rest
    | rest => rest
  let rounds := 4 * content.length + 4
  ((Reader.lines rounds rounds {}).run content).map Prod.fst

end StepChain.Toml
