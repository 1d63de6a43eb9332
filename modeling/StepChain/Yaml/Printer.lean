import StepChain.Decimal.Text
import StepChain.Yaml.Plain

/-!
# Writing documents

Values are written in block style, with an indentation of two columns; a
sequence under a key is not indented. A text is written plain where it reads
back as itself, else between quotes; a text of several lines is written as a
literal block where its characters allow it.
-/

namespace StepChain

/-- Why a value has no document. -/
inductive YamlUnwritable where
  /-- A tag directly under a tag. -/
  | nestedTags
  /-- A mapping of one entry whose key is tagged or a mapping of one entry again. -/
  | lostMapping
  deriving DecidableEq, Repr

namespace Yaml

/-- Characters that need no escape in a document. -/
def isPrintable (c : Char) : Bool :=
  let code := c.toNat
  code == 0x0a || (0x20 ≤ code && code ≤ 0x7e) ||
    (0xa0 ≤ code && code ≤ 0xfffd && code != 0xfeff) || 0x10000 ≤ code

def isLineBreak (c : Option Char) : Bool :=
  c.any isBreak

def isSpaceOrEnd (c : Option Char) : Bool :=
  c.all fun c => isBlank c || isBreak c

/-- Whether a character, between the one before it and the one after it, would be
taken for an indicator in a plain text. Nothing stands before the first one. -/
def isIndicatorAt (before : Option Char) (c : Char) (after : Option Char) : Bool :=
  match before with
  | none =>
      ['#', ',', '[', ']', '\x7b', '\x7d', '&', '*', '!', '|', '>', '\'', '"', '%', '@',
        '\x60'].contains c ||
        ((c == '?' || c == ':' || c == '-') && isSpaceOrEnd after)
  | some before =>
      (c == ':' && isSpaceOrEnd after) || (c == '#' && isSpaceOrEnd (some before))

/-- Whether a test holds anywhere in a text, given the characters before and
after each one. -/
def anyAt (test : Option Char → Char → Option Char → Bool) :
    Option Char → List Char → Bool
  | _, [] => false
  | before, c :: rest => test before c rest.head? || anyAt test (some c) rest

/-- What the characters of a text allow. -/
structure TextTraits where
  multiline : Bool
  plain : Bool
  singleQuoted : Bool
  literal : Bool

/-- Which styles a text may be written in. -/
def traits (text : List Char) : TextTraits :=
  let edge := fun (c : Option Char) => c == some ' ' || isLineBreak c
  let multiline := text.any isBreak
  let special := !text.all isPrintable
  let breakSpace := anyAt (fun before c _ => c == ' ' && isLineBreak before) none text
  let spaceBreak := anyAt (fun before c _ => isBreak c && before == some ' ') none text
  let marker := ['-', '-', '-'].isPrefixOf text || ['.', '.', '.'].isPrefixOf text
  let indicator := marker || anyAt isIndicatorAt none text
  { multiline
    plain := !(edge text.head? || edge text.getLast? || breakSpace || spaceBreak || special ||
      multiline || indicator)
    singleQuoted := !(breakSpace || spaceBreak || special)
    literal := !text.isEmpty && !(text.getLast? == some ' ' || spaceBreak || special) }

/-- Whether a text without quotes might be taken for something else: it reads as
another value, or it is a number but for superfluous zeros. -/
def isAmbiguous (text : String) : Bool :=
  hasLeadingZero text.toList ||
    match ofPlain text with
    | .ok (.str _) => false
    | _ => true

/-- A number in at least some upper-case hexadecimal digits. -/
def hexPadded (width number : Nat) : List Char :=
  let digits := (Nat.toDigits 16 number).map Char.toUpper
  List.replicate (width - digits.length) '0' ++ digits

/-- How a character stands between double quotes. -/
def escapeChar (c : Char) : List Char :=
  let letters : List (Char × Char) :=
    [('\x00', '0'), ('\x07', 'a'), ('\x08', 'b'), ('\t', 't'), ('\n', 'n'), ('\x0b', 'v'),
      ('\x0c', 'f'), ('\r', 'r'), ('\x1b', 'e'), ('"', '"'), ('\\', '\\'), ('\u0085', 'N'),
      ('\u2028', 'L'), ('\u2029', 'P')]
  match letters.lookup c with
  | some letter => ['\\', letter]
  | none =>
      if isPrintable c then [c]
      else if c.toNat ≤ 0xff then '\\' :: 'x' :: hexPadded 2 c.toNat
      else if c.toNat ≤ 0xffff then '\\' :: 'u' :: hexPadded 4 c.toNat
      else '\\' :: 'U' :: hexPadded 8 c.toNat

def spaces (count : Nat) : List Char := List.replicate count ' '

/-- A text between double quotes. -/
def doubleQuoted (text : List Char) : List Char :=
  '"' :: (text.flatMap escapeChar ++ ['"'])

/-- A text between single quotes. After separators of lines the text, or the quote
that ends it, stands at a column. -/
def singleQuoted (column : Nat) (text : List Char) : List Char :=
  '\'' :: (go text ++ ['\''])
where
  go : List Char → List Char
  | [] => []
  | c :: rest =>
      if c == '\'' then '\'' :: '\'' :: go rest
      else if isBreak c && !isLineBreak rest.head? then
        c :: (spaces column ++ go rest)
      else c :: go rest

/-- What tells how a literal block is indented and how it ends. -/
def literalHeader (text : List Char) : List Char :=
  let indented := text.head?.any fun c => c == ' ' || isBreak c
  let ending := match text.reverse with
    | [] => ['-']
    | last :: before =>
        if !isBreak last then ['-']
        else if before.isEmpty || isLineBreak before.head? then ['+']
        else []
  (if indented then ['2'] else []) ++ ending

/-- The lines of a literal block; each one that is not empty is indented. -/
def literalLines (column : Nat) (lineStart : Bool) : List Char → List Char
  | [] => []
  | c :: rest =>
      if isBreak c then c :: literalLines column true rest
      else if lineStart then spaces column ++ c :: literalLines column false rest
      else c :: literalLines column false rest

/-- A text as a literal block. -/
def literalBlock (column : Nat) (text : List Char) : List Char :=
  '|' :: (literalHeader text ++ '\n' :: literalLines column true text)

/-- A text in the style that fits. A key in front of its colon stands on one line. -/
def textScalar (simpleKey : Bool) (column : Nat) (text : String) : List Char :=
  let chars := text.toList
  let allowed := traits chars
  if chars.contains '\n' then
    if allowed.literal && !simpleKey then literalBlock column chars else doubleQuoted chars
  else if allowed.plain && !isAmbiguous text then chars
  else if allowed.singleQuoted && !(simpleKey && allowed.multiline) then
    singleQuoted column chars
  else doubleQuoted chars

/-- The text of a value that is no collection and has no tag. -/
def scalarText? (simpleKey : Bool) (column : Nat) : Yaml → Option (List Char)
  | null => some ['n', 'u', 'l', 'l']
  | bool flag => some (if flag then ['t', 'r', 'u', 'e'] else ['f', 'a', 'l', 's', 'e'])
  | int value => some (toString value).toList
  | float value => some (StepChain.floatText .document value).toList
  | str text => some (textScalar simpleKey column text)
  | seq [] => some ['[', ']']
  | map [] => some ['\x7b', '\x7d']
  | _ => none

/-- The characters that stand for themselves in a written tag. -/
def isPlainTagChar (c : Char) : Bool :=
  isWord c || [';', '/', '?', ':', '@', '&', '=', '+', '$', ',', '.', '~', '*', '\'', '(', ')',
    '[', ']'].contains c

/-- A tag with all other characters escaped byte by byte. -/
def tagChars (tag : List Char) : List Char :=
  tag.flatMap fun c =>
    if isPlainTagChar c then [c]
    else (String.singleton c).toUTF8.toList.flatMap fun byte => '%' :: hexPadded 2 byte.toNat

/-- A tag with one mark in front of it. A null character ends it, here as in a document
that is read. -/
def markedTag (tag : String) : List Char :=
  match (bareTag tag).toList.takeWhile (· != '\x00') with
  | '!' :: rest => '!' :: rest
  | chars => '!' :: chars

/-- A tag as it is written. -/
def writtenTag (tag : String) : List Char :=
  match markedTag tag with
  | '!' :: c :: rest => '!' :: tagChars (c :: rest)
  | chars => '!' :: '<' :: (tagChars chars ++ ['>'])

/-- A text at whose end a new line starts. A literal block may end in a line break of
any kind. -/
def endLine (text : List Char) : List Char :=
  if isLineBreak text.getLast? then text else text ++ ['\n']

/-- Lines of a collection that starts at a column, one below the other. -/
def joinLines (column : Nat) : List (List Char) → List Char
  | [] => []
  | [last] => last
  | line :: rest => endLine line ++ spaces column ++ joinLines column rest

/-- Where a value is written: as the document, after the mark of an item, after the
mark of a key or value in a mapping, or after a key and its colon. -/
inductive WritePlace where
  | document
  | item
  | part
  | value
  deriving DecidableEq

namespace WritePlace

/-- Where the items of a sequence stand in a place. Inside a mapping they are not
indented, unless they start on the line of a mark. -/
def itemColumn (place : WritePlace) (tagged : Bool) (column : Nat) : Nat :=
  match place, tagged with
  | item, _ | part, false => column + 2
  | part, true | value, _ | document, _ => column

/-- Where the entries of a mapping stand in a place. -/
def entryColumn (place : WritePlace) (column : Nat) : Nat :=
  match place with
  | document => column
  | item | part | value => column + 2

end WritePlace

/-- Put something on the line that a place is in, after its tag. -/
def onLine (place : WritePlace) (tag : Option (List Char)) (text : List Char) : List Char :=
  (if place = .document then [] else [' ']) ++
    match tag with
    | some tag => tag ++ ' ' :: text
    | none => text

/-- Put the lines of a collection into a place. They start on the same line unless
there is a tag or a key in front of them. -/
def asBlock (place : WritePlace) (tag : Option (List Char)) (column : Nat) (lines : List Char) :
    List Char :=
  match tag, place with
  | some tag, .document => tag ++ '\n' :: (spaces column ++ lines)
  | some tag, _ => ' ' :: (tag ++ '\n' :: (spaces column ++ lines))
  | none, .document => lines
  | none, .item | none, .part => ' ' :: lines
  | none, .value => '\n' :: (spaces column ++ lines)

/-- The text of a key that can stand in front of its colon: it has one line and,
together with its tag, at most 128 bytes. -/
def simpleKey? (column : Nat) (key : Yaml) : Option (List Char) := do
  let (tag, value) := match key with
    | tagged tag value => (some tag, value)
    | value => (none, value)
  let text ← scalarText? true column value
  let size := match value with
    | seq _ | map _ => 0
    | str text => text.utf8ByteSize
    | _ => text.length
  let multiline := match value with
    | str text => text.toList.any isBreak
    | _ => false
  if multiline || 128 < size + (tag.map fun tag => Cursor.byteSize (markedTag tag)).getD 0 then none
  else some (onLine .document (tag.map writtenTag) text)

/-- Whether the start of a mapping would not be written: its only key looks like
the tag of a value, or hides a mapping like that. -/
def losesStart : List (Yaml × Yaml) → Bool
  | [(tagged _ _, _)] => true
  | [(map [_], _)] => true
  | _ => false

mutual

/-- Write a value into a place inside a collection at a column. -/
def write (place : WritePlace) (column : Nat) (tag : Option (List Char)) (value : Yaml) :
    Except YamlUnwritable (List Char) :=
  match value with
  | tagged own value =>
      if tag.isSome then .error .nestedTags
      else write place column (some (writtenTag own)) value
  | seq (item :: rest) =>
      let inner := place.itemColumn tag.isSome column
      match writeItems inner (item :: rest) with
      | .ok lines => .ok (asBlock place tag inner (joinLines inner lines))
      | .error fault => .error fault
  | map (entry :: rest) =>
      if tag.isNone && losesStart (entry :: rest) then .error .lostMapping
      else
        let inner := place.entryColumn column
        match writeEntries inner (entry :: rest) with
        | .ok lines => .ok (asBlock place tag inner (joinLines inner lines))
        | .error fault => .error fault
  | null | bool _ | int _ | float _ | str _ | seq [] | map [] =>
      .ok (onLine place tag ((scalarText? false (column + 2) value).getD []))
termination_by structural value

/-- Write the items of a sequence at a column. -/
def writeItems (column : Nat) (items : List Yaml) : Except YamlUnwritable (List (List Char)) :=
  match items with
  | [] => .ok []
  | item :: rest => do
      let text ← write .item column none item
      let lines ← writeItems column rest
      .ok (('-' :: text) :: lines)
termination_by structural items

/-- Write the entries of a mapping at a column. -/
def writeEntries (column : Nat) (entries : List (Yaml × Yaml)) :
    Except YamlUnwritable (List (List Char)) :=
  match entries with
  | [] => .ok []
  | entry :: rest => do
      let own ← writeEntry column entry
      let lines ← writeEntries column rest
      .ok (own ++ lines)
termination_by structural entries

/-- Write an entry. A key that cannot stand in front of its colon gets a mark and
lines of its own. -/
def writeEntry (column : Nat) (entry : Yaml × Yaml) : Except YamlUnwritable (List (List Char)) :=
  match entry with
  | (key, value) =>
      match simpleKey? column key with
      | some text => do
          let rest ← write .value column none value
          .ok [text ++ ':' :: rest]
      | none => do
          let keyText ← write .part column none key
          let rest ← write .part column none value
          .ok ['?' :: keyText, ':' :: rest]
termination_by structural entry

end

/-- The document that holds a value. -/
def toText (value : Yaml) : Except YamlUnwritable String := do
  let text ← write .document 0 none value
  .ok (String.ofList (endLine text))

end Yaml

end StepChain
