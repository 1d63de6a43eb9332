/-!
# Positions in a text

A cursor is the rest of a text with the place it starts at. Line breaks are
counted once each, a carriage return with its line feed as one.
-/

namespace StepChain

/-- Line breaks: line feed, carriage return, next line, line and paragraph
separator. -/
def isBreak (c : Char) : Bool :=
  c == '\n' || c == '\r' || c == '\u0085' || c == '\u2028' || c == '\u2029'

/-- Blanks: space and tab. -/
def isBlank (c : Char) : Bool :=
  c == ' ' || c == '\t'

/-- The characters of anchors and directives. -/
def isWord (c : Char) : Bool :=
  c.isAlphanum || c == '-' || c == '_'

/-- The rest of a text and the position it starts at. -/
structure Cursor where
  rest : List Char
  /-- The number of bytes before it. -/
  offset : Nat := 0
  line : Nat := 0
  column : Nat := 0

namespace Cursor

/-- The number of bytes that characters take. -/
def byteSize (chars : List Char) : Nat :=
  chars.foldr (fun char size => char.utf8Size + size) 0

def ofText (text : String) : Cursor :=
  { rest := text.toList }

/-- The character some places ahead. -/
def peek? (cursor : Cursor) (ahead : Nat := 0) : Option Char :=
  cursor.rest[ahead]?

/-- Whether some class of characters has the one some places ahead. -/
def sees (cursor : Cursor) (test : Char → Bool) (ahead : Nat := 0) : Bool :=
  (cursor.peek? ahead).any test

def at? (cursor : Cursor) (c : Char) (ahead : Nat := 0) : Bool :=
  cursor.sees (· == c) ahead

def atEnd (cursor : Cursor) : Bool :=
  cursor.rest.isEmpty

/-- Whether a line or the text ends some places ahead. -/
def endsLine (cursor : Cursor) (ahead : Nat := 0) : Bool :=
  (cursor.peek? ahead).all isBreak

/-- Whether a blank, a line break or the end stands some places ahead. -/
def endsWord (cursor : Cursor) (ahead : Nat := 0) : Bool :=
  (cursor.peek? ahead).all fun c => isBlank c || isBreak c

/-- Move on within a line. -/
def skip (cursor : Cursor) (count : Nat := 1) : Cursor :=
  { cursor with
    rest := cursor.rest.drop count
    offset := cursor.offset + byteSize (cursor.rest.take count)
    column := cursor.column + count }

/-- Move past a run of characters within a line, and return the run. -/
def span (cursor : Cursor) (test : Char → Bool) : List Char × Cursor :=
  let run := cursor.rest.takeWhile test
  (run, cursor.skip run.length)

/-- Move past a line break. All breaks but the separators count as a line feed. -/
def takeBreak (cursor : Cursor) : List Char × Cursor :=
  match cursor.rest with
  | '\r' :: '\n' :: rest =>
      (['\n'], { rest, offset := cursor.offset + 2, line := cursor.line + 1, column := 0 })
  | c :: rest =>
      let text := if c == '\u2028' || c == '\u2029' then [c] else ['\n']
      (text, { rest, offset := cursor.offset + c.utf8Size, line := cursor.line + 1, column := 0 })
  | [] => ([], cursor)

/-- Whether the line starts with a mark such as `---`, ended by a blank or the
end of the line. -/
def atMarker (cursor : Cursor) (mark : Char) : Bool :=
  cursor.column == 0 && cursor.at? mark && cursor.at? mark 1 && cursor.at? mark 2 &&
    cursor.endsWord 3

/-- Whether a document starts or ends here. -/
def atDocumentMarker (cursor : Cursor) : Bool :=
  cursor.atMarker '-' || cursor.atMarker '.'

end Cursor

end StepChain
