import StepChain.Yaml.Cursor
import StepChain.Yaml.Syntax

/-!
# Tokens of a document

The text of a document is cut into tokens. In block style the nesting follows
from indentation: when a line starts further to the right than the collections
around it a collection starts, and it ends before the first line that starts
further to the left. Whether a text is a mapping key shows only at the colon
after it; the token of the key is then put in front of it.
-/

namespace StepChain

/-- How a scalar is written. -/
inductive ScalarStyle where
  | plain
  | quoted
  | literal
  | folded
  deriving DecidableEq, Repr

/-- The characters of a tag. Escaped bytes that are no character stand as `none`. -/
abbrev TagText := List (Option Char)

namespace TagText

/-- The part of a tag before a null character, which ends it. -/
def untilNull (text : TagText) : TagText :=
  text.takeWhile (· != some '\x00')

/-- What a tag says. With bytes that are no characters it says nothing: one that starts
with a mark counts as missing, another one as a tag without a meaning. -/
def name? (text : TagText) : Option String :=
  match text.mapM id with
  | some chars => some (String.ofList chars)
  | none => if text.head? == some (some '!') then none else some ""

end TagText

/-- A token of a document. -/
inductive Token where
  | versionDirective (major minor : Nat)
  | tagDirective (handle : String) (expansion : TagText)
  | documentStart
  | documentEnd
  | blockSequenceStart
  | blockMappingStart
  | blockEnd
  | flowSequenceStart
  | flowSequenceEnd
  | flowMappingStart
  | flowMappingEnd
  | blockEntry
  | flowEntry
  | key
  | value
  | alias (name : String)
  | anchor (name : String)
  | tag (handle : String) (suffix : TagText)
  | scalar (text : String) (style : ScalarStyle)
  deriving DecidableEq, Repr

/-- The whitespace between two words of a scalar. -/
structure Gap where
  /-- Blanks before the first line break. -/
  blanks : List Char := []
  /-- The first line break. -/
  firstBreak : List Char := []
  /-- The line breaks after the first one. -/
  breaks : List Char := []
  /-- Whether there was a line break. -/
  broken : Bool := false

namespace Gap

/-- What stands for the gap in the text: a single line break is folded to a
space, of several ones the first is dropped. -/
def text (gap : Gap) : List Char :=
  if !gap.broken then gap.blanks
  else if gap.firstBreak == ['\n'] then
    if gap.breaks.isEmpty then [' '] else gap.breaks
  else gap.firstBreak ++ gap.breaks

/-- Read blanks and line breaks. A tab in the indentation of a plain text, that
is left of `indent`, is a fault. -/
def read (indent : Nat) : Nat → Gap → Cursor → Except YamlFault (Gap × Cursor)
  | 0, gap, cursor => .ok (gap, cursor)
  | rounds + 1, gap, cursor =>
      match cursor.peek? with
      | none => .ok (gap, cursor)
      | some c =>
          if isBlank c then
            if gap.broken && cursor.column < indent && c == '\t' then .error .tabIndentation
            else
              let gap := if gap.broken then gap else { gap with blanks := gap.blanks ++ [c] }
              read indent rounds gap cursor.skip
          else if isBreak c then
            let (text, cursor) := cursor.takeBreak
            let gap :=
              if gap.broken then { gap with breaks := gap.breaks ++ text }
              else { gap with firstBreak := text, broken := true }
            read indent rounds gap cursor
          else .ok (gap, cursor)

end Gap

/-- A place where a mapping key may have started. -/
structure KeyCandidate where
  /-- Whether the line must go on to be a key. -/
  required : Bool
  /-- How many tokens stood before it. -/
  token : Nat
  offset : Nat
  line : Nat
  column : Nat

/-- The state of cutting a text into tokens. -/
structure Lexer where
  cursor : Cursor
  tokens : Array Token := #[]
  /-- The columns of the open block collections, innermost first. -/
  indents : List Nat := []
  /-- Whether a mapping key may start here. -/
  keyAllowed : Bool := true
  /-- The key candidate of the open flow collections, innermost first, and last
  that of the block around them. -/
  candidates : List (Option KeyCandidate) := [none]

namespace Lexer

/-- How many flow collections are open. -/
def flowLevel (lexer : Lexer) : Nat :=
  lexer.candidates.length - 1

def inFlow (lexer : Lexer) : Bool :=
  0 < lexer.flowLevel

/-- The first column that is further to the right than the open collections. -/
def nextColumn (lexer : Lexer) : Nat :=
  match lexer.indents with
  | [] => 0
  | column :: _ => column + 1

def emit (lexer : Lexer) (token : Token) : Lexer :=
  { lexer with tokens := lexer.tokens.push token }

/-- Open a block collection at a column to the right of those around it. Its
token goes to a place among the tokens. -/
def openBlock (lexer : Lexer) (column place : Nat) (token : Token) : Lexer :=
  if lexer.inFlow || column < lexer.nextColumn then lexer
  else
    { lexer with
      indents := column :: lexer.indents
      tokens := lexer.tokens.insertIdxIfInBounds place token }

/-- Close the block collections to the right of a column; without a column all
of them. -/
def closeBlocks (lexer : Lexer) (column : Option Nat) : Lexer :=
  if lexer.inFlow then lexer
  else
    let isRight := fun (indent : Nat) => column.all (· < indent)
    let closed := lexer.indents.takeWhile isRight
    { lexer with
      indents := lexer.indents.dropWhile isRight
      tokens := lexer.tokens ++ (closed.map fun _ => Token.blockEnd).toArray }

/-- Give up the key candidate; a required one must not be given up. -/
def dropCandidate (lexer : Lexer) : Except YamlFault Lexer :=
  match lexer.candidates with
  | some candidate :: outer =>
      if candidate.required then .error .missingColon
      else .ok { lexer with candidates := none :: outer }
  | _ => .ok lexer

/-- Note that a key may start here. In block style a text at the column of the
innermost collection must be one. -/
def noteCandidate (lexer : Lexer) : Except YamlFault Lexer := do
  if !lexer.keyAllowed then return lexer
  let dropped ← lexer.dropCandidate
  let cursor := lexer.cursor
  let candidate : KeyCandidate :=
    { required := !lexer.inFlow && lexer.indents.head? == some cursor.column
      token := lexer.tokens.size
      offset := cursor.offset
      line := cursor.line
      column := cursor.column }
  return { dropped with candidates := some candidate :: dropped.candidates.tail }

/-- The key candidate, if it can still be a key: a key stands on one line and is
not longer than 1024 bytes. -/
def currentCandidate? (lexer : Lexer) : Except YamlFault (Option KeyCandidate) :=
  match lexer.candidates with
  | some candidate :: _ =>
      if candidate.line == lexer.cursor.line && lexer.cursor.offset ≤ candidate.offset + 1024 then
        .ok (some candidate)
      else if candidate.required then .error .missingColon
      else .ok none
  | _ => .ok none

/-- Move past blanks, comments and line breaks. Tabs do not count as blanks
where indentation is expected. After a line break in block style a key may
start. -/
def skipToToken : Nat → Lexer → Lexer
  | 0, lexer => lexer
  | rounds + 1, lexer =>
      let afterMark :=
        if lexer.cursor.column == 0 && lexer.cursor.at? '\ufeff' then lexer.cursor.skip
        else lexer.cursor
      let tabs := lexer.inFlow || !lexer.keyAllowed
      let afterBlanks := (afterMark.span fun c => c == ' ' || (tabs && c == '\t')).2
      let cursor :=
        if afterBlanks.at? '#' then (afterBlanks.span fun c => !isBreak c).2 else afterBlanks
      if cursor.sees isBreak then
        skipToToken rounds
          { lexer with
            cursor := cursor.takeBreak.2
            keyAllowed := lexer.keyAllowed || !lexer.inFlow }
      else { lexer with cursor }

/-! ## Anchors, tags and directives -/

/-- Read the name of an anchor or alias. -/
def readAnchor (cursor : Cursor) : Except YamlFault (String × Cursor) :=
  let (name, after) := cursor.skip.span isWord
  let ends := after.endsWord ||
    after.sees fun c => ['?', ':', ',', ']', '\x7d', '%', '@', '\x60'].contains c
  if name.isEmpty || !ends then .error .invalidAnchor
  else .ok (String.ofList name, after)

def isTagChar (c : Char) : Bool :=
  isWord c || [';', '/', '?', ':', '@', '&', '=', '+', '$', '.', '!', '~', '*', '\'', '(',
    ')'].contains c

/-- The value of a hexadecimal digit. -/
def hexValue? (c : Char) : Option Nat :=
  if '0' ≤ c && c ≤ '9' then some (c.toNat - '0'.toNat)
  else if 'a' ≤ c && c ≤ 'f' then some (c.toNat - 'a'.toNat + 10)
  else if 'A' ≤ c && c ≤ 'F' then some (c.toNat - 'A'.toNat + 10)
  else none

/-- The value of some hexadecimal digits. -/
def hexNumber? (digits : List Char) : Option Nat :=
  digits.foldl (fun acc c => do some ((← acc) * 16 + (← hexValue? c))) (some 0)

/-- Read a byte that is written as an escape such as `%C3`. -/
def readEscapedByte : List Char → Except YamlFault (Nat × List Char)
  | '%' :: high :: low :: rest =>
      match hexNumber? [high, low] with
      | some byte => .ok (byte, rest)
      | none => .error .invalidTag
  | _ => .error .invalidTag

/-- Read some bytes that go on with a character. -/
def readTrailingBytes : Nat → List Char → Except YamlFault (List Nat × List Char)
  | 0, rest => .ok ([], rest)
  | count + 1, rest => do
      let (byte, rest) ← readEscapedByte rest
      if byte < 0x80 || 0xc0 ≤ byte then .error .invalidTag
      let (bytes, rest) ← readTrailingBytes count rest
      .ok (byte :: bytes, rest)

/-- How many bytes follow the first one of a character. -/
def trailingCount? (first : Nat) : Option Nat :=
  if first < 0x80 then some 0
  else if first < 0xc0 then none
  else if first < 0xe0 then some 1
  else if first < 0xf0 then some 2
  else if first < 0xf8 then some 3
  else none

/-- Read the escapes of one character. The bytes may have the form of a character and
still be none. -/
def readEscapedChar (chars : List Char) : Except YamlFault (Option Char × List Char) := do
  let (first, afterFirst) ← readEscapedByte chars
  match trailingCount? first with
  | none => .error .invalidTag
  | some count =>
      let (bytes, rest) ← readTrailingBytes count afterFirst
      let text := String.fromUTF8? ⟨((first :: bytes).map Nat.toUInt8).toArray⟩
      .ok (text.bind fun text => text.toList.head?, rest)

/-- Read the characters of a tag, with escapes resolved. -/
def readTagChars (verbatim : Bool) : Nat → Cursor → Except YamlFault (TagText × Cursor)
  | 0, cursor => .ok ([], cursor)
  | rounds + 1, cursor =>
      match cursor.peek? with
      | none => .ok ([], cursor)
      | some c =>
          if c == '%' then do
            let (character, rest) ← readEscapedChar cursor.rest
            let after := cursor.skip (cursor.rest.length - rest.length)
            let (chars, cursor) ← readTagChars verbatim rounds after
            .ok (character :: chars, cursor)
          else if isTagChar c || (verbatim && (c == ',' || c == '[' || c == ']')) then do
            let (chars, cursor) ← readTagChars verbatim rounds cursor.skip
            .ok (some c :: chars, cursor)
          else .ok ([], cursor)

/-- Read a tag: its handle and the rest of it. -/
def readTag (inFlow : Bool) (cursor : Cursor) :
    Except YamlFault ((String × TagText) × Cursor) := do
  let ((handle, suffix), after) ←
    if cursor.at? '<' 1 then do
      let (chars, after) ← readTagChars true cursor.rest.length (cursor.skip 2)
      if chars.isEmpty || !after.at? '>' then .error .invalidTag
      else .ok (("", chars.untilNull), after.skip)
    else
      let (word, afterWord) := cursor.skip.span isWord
      if afterWord.at? '!' then do
        let handle := '!' :: (word ++ ['!'])
        let (chars, after) ← readTagChars false cursor.rest.length afterWord.skip
        if chars.isEmpty then .error .invalidTag
        else .ok ((String.ofList handle, chars.untilNull), after)
      else do
        let (chars, after) ← readTagChars false cursor.rest.length afterWord
        match TagText.untilNull (word.map some ++ chars) with
        | [] => .ok (("", [some '!']), after)
        | suffix => .ok (("!", suffix), after)
  if after.endsWord || (inFlow && after.at? ',') then .ok ((handle, suffix), after)
  else .error .invalidTag

/-- Read a directive, up to the end of its line. -/
def readDirective (cursor : Cursor) : Except YamlFault (Token × Cursor) := do
  let (name, afterName) := cursor.skip.span isWord
  if name.isEmpty || !afterName.endsWord then .error .invalidDirective
  let start := (afterName.span isBlank).2
  let (token, after) ← match String.ofList name with
    | "YAML" => readVersion start
    | "TAG" => readTagDirective start
    | _ => .error .invalidDirective
  let afterBlanks := (after.span isBlank).2
  let finish :=
    if afterBlanks.at? '#' then (afterBlanks.span fun c => !isBreak c).2 else afterBlanks
  if finish.endsLine then .ok (token, finish) else .error .invalidDirective
where
  number? (digits : List Char) : Option Nat :=
    if digits.isEmpty || 9 < digits.length then none
    else some (digits.foldl (fun acc c => acc * 10 + (c.toNat - '0'.toNat)) 0)
  readVersion (cursor : Cursor) : Except YamlFault (Token × Cursor) :=
    let (major, afterMajor) := cursor.span Char.isDigit
    let (minor, after) := afterMajor.skip.span Char.isDigit
    match number? major, afterMajor.at? '.', number? minor with
    | some major, true, some minor => .ok (.versionDirective major minor, after)
    | _, _, _ => .error .invalidDirective
  readTagDirective (cursor : Cursor) : Except YamlFault (Token × Cursor) := do
    if !cursor.at? '!' then .error .invalidDirective
    let (word, afterWord) := cursor.skip.span isWord
    let closed := afterWord.at? '!'
    if !closed && !word.isEmpty then .error .invalidDirective
    let handle := '!' :: (word ++ if closed then ['!'] else [])
    let afterHandle := if closed then afterWord.skip else afterWord
    if !afterHandle.sees isBlank then .error .invalidDirective
    let (chars, after) ← readTagChars true cursor.rest.length (afterHandle.span isBlank).2
    if chars.isEmpty || !after.endsWord then .error .invalidDirective
    else .ok (.tagDirective (String.ofList handle) chars.untilNull, after)

/-! ## Scalars -/

/-- Read the lines that hold nothing but indentation, and the column of the text
after them. Without a given column the text starts where its first line does,
at least at `least`. -/
def readBlockBreaks (column : Option Nat) (least : Nat) :
    Nat → (widest : Nat) → (breaks : List Char) → Cursor →
      Except YamlFault ((Nat × List Char) × Cursor)
  | 0, widest, breaks, cursor => .ok ((column.getD (max widest least), breaks), cursor)
  | rounds + 1, widest, breaks, cursor =>
      let room := match column with
        | some column => column - cursor.column
        | none => cursor.rest.length
      let blanks := (cursor.rest.take room).takeWhile (· == ' ')
      let cursor := cursor.skip blanks.length
      let widest := max widest cursor.column
      if column.all (cursor.column < ·) && cursor.at? '\t' then .error .tabIndentation
      else if cursor.sees isBreak then
        let (text, cursor) := cursor.takeBreak
        readBlockBreaks column least rounds widest (breaks ++ text) cursor
      else .ok ((column.getD (max widest least), breaks), cursor)

/-- The lines of a block scalar read so far. -/
structure BlockText where
  text : List Char := []
  /-- The break after the last line of text. -/
  lineBreak : List Char := []
  /-- The breaks of empty lines after it. -/
  emptyLines : List Char := []
  /-- Whether the last line of text started with a blank. -/
  indented : Bool := false

/-- Read the lines of a block scalar at a column. In folded style the break
between two lines that start with no blank becomes a space. -/
def readBlockLines (folded : Bool) (column : Nat) :
    Nat → BlockText → Cursor → Except YamlFault (BlockText × Cursor)
  | 0, block, cursor => .ok (block, cursor)
  | rounds + 1, block, cursor =>
      if cursor.column != column || cursor.atEnd then .ok (block, cursor)
      else do
        let indented := cursor.sees isBlank
        let joint :=
          if folded && block.lineBreak == ['\n'] && !block.indented && !indented then
            if block.emptyLines.isEmpty then [' '] else []
          else block.lineBreak
        let (line, afterLine) := cursor.span fun c => !isBreak c
        let (lineBreak, afterBreak) := afterLine.takeBreak
        let ((_, emptyLines), cursor) ←
          readBlockBreaks (some column) 0 (afterBreak.rest.length + 1) 0 [] afterBreak
        readBlockLines folded column rounds
          { text := block.text ++ joint ++ block.emptyLines ++ line
            lineBreak, emptyLines, indented }
          cursor

/-- What becomes of the line breaks at the end of a block scalar. -/
inductive Chomping where
  | strip
  | clip
  | keep
  deriving DecidableEq

/-- Read what follows the indicator of a block scalar: the treatment of its end
and its indentation, in any order. -/
def readBlockHeader (cursor : Cursor) : Except YamlFault ((Chomping × Option Nat) × Cursor) := do
  let (before, cursor) := chomping? cursor
  let (increment, cursor) ← match cursor.peek? with
    | some c =>
        if c == '0' then .error .invalidBlockHeader
        else if c.isDigit then .ok (some (c.toNat - '0'.toNat), cursor.skip)
        else .ok (none, cursor)
    | none => .ok (none, cursor)
  let (after, cursor) :=
    if before.isNone && increment.isSome then chomping? cursor else (none, cursor)
  .ok (((before <|> after).getD .clip, increment), cursor)
where
  chomping? (cursor : Cursor) : Option Chomping × Cursor :=
    if cursor.at? '+' then (some .keep, cursor.skip)
    else if cursor.at? '-' then (some .strip, cursor.skip)
    else (none, cursor)

/-- Read a block scalar. `outer` is the first column to the right of the block
around it. -/
def readBlockScalar (folded : Bool) (outer : Nat) (cursor : Cursor) :
    Except YamlFault (String × Cursor) := do
  let ((chomping, increment), afterHeader) ← readBlockHeader cursor.skip
  let afterBlanks := (afterHeader.span isBlank).2
  let lineEnd :=
    if afterBlanks.at? '#' then (afterBlanks.span fun c => !isBreak c).2 else afterBlanks
  if !lineEnd.endsLine then .error .invalidBlockHeader
  let start := if lineEnd.atEnd then lineEnd else lineEnd.takeBreak.2
  let column := increment.map fun increment => (outer - 1) + increment
  let ((column, emptyLines), cursor) ←
    readBlockBreaks column (max outer 1) (start.rest.length + 1) 0 [] start
  let (block, cursor) ←
    readBlockLines folded column (cursor.rest.length + 1) { emptyLines } cursor
  let ending := match chomping with
    | .strip => []
    | .clip => block.lineBreak
    | .keep => block.lineBreak ++ block.emptyLines
  .ok (String.ofList (block.text ++ ending), cursor)

/-- The character that an escape of one letter stands for. -/
def simpleEscape? (c : Char) : Option Char :=
  [('0', '\x00'), ('a', '\x07'), ('b', '\x08'), ('t', '\t'), ('\t', '\t'), ('n', '\n'),
    ('v', '\x0b'), ('f', '\x0c'), ('r', '\r'), ('e', '\x1b'), (' ', ' '), ('"', '"'),
    ('/', '/'), ('\\', '\\'), ('N', '\u0085'), ('_', '\u00a0'), ('L', '\u2028'),
    ('P', '\u2029')].lookup c

/-- How many digits follow the letter of a numeric escape. -/
def escapeWidth? (c : Char) : Option Nat :=
  [('x', 2), ('u', 4), ('U', 8)].lookup c

/-- Read an escape, from the letter after the backslash on. -/
def readEscape (cursor : Cursor) : Except YamlFault (Char × Cursor) :=
  match cursor.peek? with
  | none => .error .invalidEscape
  | some c =>
      match simpleEscape? c, escapeWidth? c with
      | some character, _ => .ok (character, cursor.skip)
      | none, some width =>
          let digits := (cursor.rest.drop 1).take width
          match hexNumber? digits with
          | some code =>
              if digits.length == width && code.isValidChar then
                .ok (Char.ofNat code, cursor.skip (width + 1))
              else .error .invalidEscape
          | none => .error .invalidEscape
      | none, none => .error .invalidEscape

/-- Read the words of a quoted text up to its end. -/
def readQuoted (single : Bool) : Nat → List Char → Cursor → Except YamlFault (List Char × Cursor)
  | 0, _, _ => .error .unclosedQuote
  | rounds + 1, text, cursor =>
      if cursor.atDocumentMarker then .error .unclosedQuote
      else
        match cursor.peek? with
        | none => .error .unclosedQuote
        | some c =>
            if single && c == '\'' && cursor.at? '\'' 1 then
              readQuoted single rounds (text ++ ['\'']) (cursor.skip 2)
            else if c == (if single then '\'' else '"') then .ok (text, cursor.skip)
            else if !single && c == '\\' && cursor.sees isBreak 1 then do
              let afterBreak := cursor.skip.takeBreak.2
              let (gap, cursor) ←
                Gap.read 0 afterBreak.rest.length { broken := true } afterBreak
              readQuoted single rounds (text ++ gap.text) cursor
            else if !single && c == '\\' then do
              let (character, cursor) ← readEscape cursor.skip
              readQuoted single rounds (text ++ [character]) cursor
            else if isBlank c || isBreak c then do
              let (gap, cursor) ← Gap.read 0 cursor.rest.length {} cursor
              readQuoted single rounds (text ++ gap.text) cursor
            else readQuoted single rounds (text ++ [c]) cursor.skip

/-- Read the characters of one word of a plain text. In flow style the indicators
of flow collections end it. -/
def readPlainWord (inFlow : Bool) : Nat → Cursor → Except YamlFault (List Char × Cursor)
  | 0, cursor => .ok ([], cursor)
  | rounds + 1, cursor =>
      match cursor.peek? with
      | none => .ok ([], cursor)
      | some c =>
          if isBlank c || isBreak c then .ok ([], cursor)
          else if inFlow && c == ':' &&
              cursor.sees (fun next => [',', '?', '[', ']', '\x7b', '\x7d'].contains next) 1 then
            .error .unexpectedCharacter
          else if c == ':' && cursor.endsWord 1 then .ok ([], cursor)
          else if inFlow && [',', '[', ']', '\x7b', '\x7d'].contains c then .ok ([], cursor)
          else do
            let (word, cursor) ← readPlainWord inFlow rounds cursor.skip
            .ok (c :: word, cursor)

/-- Read the words of a plain text. It ends at a comment, at a document marker,
or in block style at a line that is not indented. The flag tells whether the
text is followed by a line break. -/
def readPlain (inFlow : Bool) (indent : Nat) :
    Nat → (text : List Char) → Gap → Cursor → Except YamlFault ((List Char × Bool) × Cursor)
  | 0, text, gap, cursor => .ok ((text, gap.broken), cursor)
  | rounds + 1, text, gap, cursor =>
      if cursor.atDocumentMarker || cursor.at? '#' then .ok ((text, gap.broken), cursor)
      else do
        let (word, afterWord) ← readPlainWord inFlow cursor.rest.length cursor
        let text := if word.isEmpty then text else text ++ gap.text ++ word
        let pending := if word.isEmpty then gap else {}
        if !afterWord.sees fun c => isBlank c || isBreak c then
          .ok ((text, pending.broken), afterWord)
        else
          let (gap, cursor) ← Gap.read indent afterWord.rest.length pending afterWord
          if !inFlow && cursor.column < indent then .ok ((text, gap.broken), cursor)
          else readPlain inFlow indent rounds text gap cursor

/-! ## One token -/

/-- Replace the cursor and add a token. -/
def take (lexer : Lexer) (token : Token) (cursor : Cursor) : Lexer :=
  { lexer with cursor, tokens := lexer.tokens.push token }

def openFlow (lexer : Lexer) (token : Token) : Except YamlFault Lexer := do
  let noted ← lexer.noteCandidate
  return { noted with candidates := none :: noted.candidates, keyAllowed := true }.take token
    lexer.cursor.skip

def closeFlow (lexer : Lexer) (token : Token) : Except YamlFault Lexer := do
  let dropped ← lexer.dropCandidate
  let candidates := match dropped.candidates with
    | _ :: outer :: more => outer :: more
    | candidates => candidates
  return { dropped with candidates, keyAllowed := false }.take token lexer.cursor.skip

def takeFlowEntry (lexer : Lexer) : Except YamlFault Lexer := do
  let dropped ← lexer.dropCandidate
  return { dropped with keyAllowed := true }.take .flowEntry lexer.cursor.skip

def takeBlockEntry (lexer : Lexer) : Except YamlFault Lexer := do
  if !lexer.inFlow && !lexer.keyAllowed then .error .misplacedIndicator
  let opened := lexer.openBlock lexer.cursor.column lexer.tokens.size .blockSequenceStart
  let dropped ← opened.dropCandidate
  return { dropped with keyAllowed := true }.take .blockEntry lexer.cursor.skip

def takeKey (lexer : Lexer) : Except YamlFault Lexer := do
  if !lexer.inFlow && !lexer.keyAllowed then .error .misplacedIndicator
  let opened := lexer.openBlock lexer.cursor.column lexer.tokens.size .blockMappingStart
  let dropped ← opened.dropCandidate
  return { dropped with keyAllowed := !lexer.inFlow }.take .key lexer.cursor.skip

/-- Take the colon before a value. What stood on the line before it becomes the
key. -/
def takeValue (lexer : Lexer) : Except YamlFault Lexer := do
  match ← lexer.currentCandidate? with
  | some candidate =>
      let keyed :=
        { lexer with
          tokens := lexer.tokens.insertIdxIfInBounds candidate.token .key
          candidates := none :: lexer.candidates.tail
          keyAllowed := false }
      let opened := keyed.openBlock candidate.column candidate.token .blockMappingStart
      return opened.take .value lexer.cursor.skip
  | none =>
      if !lexer.inFlow && !lexer.keyAllowed then .error .misplacedIndicator
      let opened := lexer.openBlock lexer.cursor.column lexer.tokens.size .blockMappingStart
      return { opened with keyAllowed := !lexer.inFlow }.take .value lexer.cursor.skip

def takeAnchor (lexer : Lexer) (token : String → Token) : Except YamlFault Lexer := do
  let noted ← lexer.noteCandidate
  let (name, cursor) ← readAnchor lexer.cursor
  return { noted with keyAllowed := false }.take (token name) cursor

def takeTag (lexer : Lexer) : Except YamlFault Lexer := do
  let noted ← lexer.noteCandidate
  let ((handle, suffix), cursor) ← readTag lexer.inFlow lexer.cursor
  return { noted with keyAllowed := false }.take (.tag handle suffix) cursor

def takeBlockScalar (lexer : Lexer) (folded : Bool) : Except YamlFault Lexer := do
  let dropped ← lexer.dropCandidate
  let (text, cursor) ← readBlockScalar folded lexer.nextColumn lexer.cursor
  return { dropped with keyAllowed := true }.take
    (.scalar text (if folded then .folded else .literal)) cursor

def takeQuoted (lexer : Lexer) (single : Bool) : Except YamlFault Lexer := do
  let noted ← lexer.noteCandidate
  let start := lexer.cursor.skip
  let (text, cursor) ← readQuoted single (start.rest.length + 1) [] start
  return { noted with keyAllowed := false }.take (.scalar (String.ofList text) .quoted) cursor

def takePlain (lexer : Lexer) : Except YamlFault Lexer := do
  let noted ← lexer.noteCandidate
  let ((text, broken), cursor) ←
    readPlain lexer.inFlow lexer.nextColumn (lexer.cursor.rest.length + 1) [] {} lexer.cursor
  return { noted with keyAllowed := broken }.take (.scalar (String.ofList text) .plain) cursor

/-- Close all blocks before a directive or a document marker. -/
def endBlocks (lexer : Lexer) : Except YamlFault Lexer := do
  let dropped ← (lexer.closeBlocks none).dropCandidate
  return { dropped with keyAllowed := false }

/-- The characters that start no plain text. -/
def isIndicator (c : Char) : Bool :=
  ['-', '?', ':', ',', '[', ']', '\x7b', '\x7d', '#', '&', '*', '!', '|', '>', '\'', '"', '%',
    '@', '\x60'].contains c

/-- Whether a plain text starts here. -/
def startsPlain (lexer : Lexer) : Bool :=
  let cursor := lexer.cursor
  !cursor.endsWord &&
    (!cursor.sees isIndicator || (cursor.at? '-' && !cursor.sees isBlank 1) ||
      (!lexer.inFlow && (cursor.at? '?' || cursor.at? ':') && !cursor.endsWord 1))

/-- Take the next token, with the tokens for blocks that end before it. -/
def step (start : Lexer) : Except YamlFault Lexer := do
  let lexer := start.closeBlocks (some start.cursor.column)
  let cursor := lexer.cursor
  match cursor.peek? with
  | none => return lexer
  | some c =>
      if cursor.column == 0 && c == '%' then do
        let ended ← lexer.endBlocks
        let (token, cursor) ← readDirective cursor
        return ended.take token cursor
      else if cursor.atMarker '-' then
        return (← lexer.endBlocks).take .documentStart (cursor.skip 3)
      else if cursor.atMarker '.' then
        return (← lexer.endBlocks).take .documentEnd (cursor.skip 3)
      else if c == '[' then lexer.openFlow .flowSequenceStart
      else if c == '\x7b' then lexer.openFlow .flowMappingStart
      else if c == ']' then lexer.closeFlow .flowSequenceEnd
      else if c == '\x7d' then lexer.closeFlow .flowMappingEnd
      else if c == ',' then lexer.takeFlowEntry
      else if c == '-' && cursor.endsWord 1 then lexer.takeBlockEntry
      else if c == '?' && (lexer.inFlow || cursor.endsWord 1) then lexer.takeKey
      else if c == ':' && (lexer.inFlow || cursor.endsWord 1) then lexer.takeValue
      else if c == '*' then lexer.takeAnchor .alias
      else if c == '&' then lexer.takeAnchor .anchor
      else if c == '!' then lexer.takeTag
      else if c == '|' && !lexer.inFlow then lexer.takeBlockScalar false
      else if c == '>' && !lexer.inFlow then lexer.takeBlockScalar true
      else if c == '\'' then lexer.takeQuoted true
      else if c == '"' then lexer.takeQuoted false
      else if lexer.startsPlain then lexer.takePlain
      else .error .unexpectedCharacter

/-- Take all tokens. Each one takes up a character at least. -/
def run : Nat → Lexer → Except YamlFault Lexer
  | 0, lexer => .ok lexer
  | rounds + 1, lexer =>
      let ready := skipToToken (lexer.cursor.rest.length + 1) lexer
      if ready.cursor.atEnd then ready.endBlocks
      else do run rounds (← ready.step)

end Lexer

namespace Token

/-- Whether documents may hold a character. -/
def isAllowed (c : Char) : Bool :=
  let code := c.toNat
  code == 0x09 || code == 0x0a || code == 0x0d || (0x20 ≤ code && code ≤ 0x7e) ||
    code == 0x85 || (0xa0 ≤ code && code ≤ 0xfffd) || 0x10000 ≤ code

/-- The tokens of a text. -/
def scan (text : String) : Except YamlFault (List Token) := do
  let chars := text.toList
  if !chars.all isAllowed then .error .forbiddenCharacter
  let lexer ← Lexer.run (chars.length + 1) { cursor := { rest := chars } }
  return lexer.tokens.toList

end Token

end StepChain
