/-!
# Faults in documents

Why a text is no document, or a document no value.
-/

namespace StepChain

/-- A fault in the text of a document. -/
inductive YamlFault where
  /-- A character that documents may not hold. -/
  | forbiddenCharacter
  /-- An indicator or text where no token can start. -/
  | unexpectedCharacter
  /-- An indicator of a collection, key or value where none is allowed. -/
  | misplacedIndicator
  /-- A key without the colon that must follow it. -/
  | missingColon
  /-- A tab in place of indentation. -/
  | tabIndentation
  | invalidDirective
  | invalidAnchor
  | invalidTag
  | invalidEscape
  /-- A quoted text without its end. -/
  | unclosedQuote
  | invalidBlockHeader
  /-- A token that the grammar does not allow at its place. -/
  | unexpectedToken
  | undefinedTagHandle
  /-- An alias of an anchor that no node before it has. -/
  | undefinedAnchor
  | severalDocuments
  /-- A plain text that does not fit its tag. -/
  | mismatchedTag
  /-- A whole number that has no representation. -/
  | numberTooLarge
  | duplicateKey
  | nestedTooDeep
  /-- Aliases that repeat far more than the document holds. -/
  | repeatedTooOften
  deriving DecidableEq, Repr

end StepChain
