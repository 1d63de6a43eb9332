import StepChain.Yaml.Node
import StepChain.Yaml.Plain

/-!
# Documents

The value that the text of a document holds. Tags that start with `!` stay with
their values. A mapping must not have a key twice.
-/

namespace StepChain

namespace Node

/-- The tag of a value that a written tag amounts to: one that starts with `!`,
which is left out unless there is nothing else. -/
def valueTag? (tag : Option String) : Option String :=
  match tag with
  | some tag =>
      match tag.toList with
      | ['!'] => some "!"
      | '!' :: rest => some (String.ofList rest)
      | _ => none
  | none => none

/-- Put a tag around a value, if there is one. -/
def tagValue (tag : Option String) (value : Yaml) : Yaml :=
  match valueTag? tag with
  | some tag => .tagged tag value
  | none => value

/-- The value of a scalar. -/
def scalarValue (tag : Option String) (style : ScalarStyle) (text : String) :
    Except YamlFault Yaml :=
  match tag with
  | none => Yaml.ofUntagged style text
  | some written =>
      match valueTag? tag with
      | some _ => do
          let value ← Yaml.ofUntagged style text
          .ok (tagValue tag value)
      | none => Yaml.ofCoreTag written text

/-- Put an entry behind others, unless they have its key. -/
def addEntry (entries : YamlMapping) (key value : Yaml) : Except YamlFault YamlMapping :=
  if entries.any fun entry => key.same entry.1 then .error .duplicateKey
  else .ok (entries ++ [(key, value)])

end Node

/-- Reads values, given how many aliases may still be followed. -/
abbrev Repeating := StateT Nat (Except YamlFault)

namespace Document

/-- The node itself, or the one that it repeats, which takes up one repetition. -/
def follow (document : Document) (node : Node) : Repeating Node := do
  match node with
  | .repeated _ =>
      match ← get with
      | 0 => throw .repeatedTooOften
      | left + 1 =>
          set left
          match document.target? node with
          | some target => return target
          | none => throw .undefinedAnchor
  | _ => return node

/-- The value of a node, with collections nested at most to some depth. -/
def valueWithin (document : Document) (depth : Nat) (node : Node) : Repeating Yaml := do
  match ← document.follow node with
  | .scalar tag style text => Node.scalarValue tag style text
  | .sequence tag items =>
      match depth with
      | 0 => throw .nestedTooDeep
      | depth + 1 => return Node.tagValue tag (.seq (← items.mapM (document.valueWithin depth)))
  | .mapping tag entries =>
      match depth with
      | 0 => throw .nestedTooDeep
      | depth + 1 =>
          let values ← entries.foldlM
            (fun before entry => do
              let key ← document.valueWithin depth entry.1
              let value ← document.valueWithin depth entry.2
              Node.addEntry before key value)
            ([] : YamlMapping)
          return Node.tagValue tag (.map values)
  | .repeated _ => throw .undefinedAnchor

/-- How deep the collections of a document may nest. -/
def maxDepth : Nat := 128

/-- How often aliases may be followed in a document. -/
def maxRepeats (document : Document) : Nat := 100 * document.size

/-- The value that a document holds. -/
def value (document : Document) : Except YamlFault Yaml :=
  (document.valueWithin maxDepth document.root).run' document.maxRepeats

/-- The one document in a text; none if there is no document. -/
def ofText (text : String) : Except YamlFault (Option Document) := do
  ofTokens (← Token.scan text)

end Document

namespace Yaml

/-- The value of the one document in a text; null if there is no document. -/
def ofText (text : String) : Except YamlFault Yaml := do
  match ← Document.ofText text with
  | some document => document.value
  | none => .ok .null

end Yaml

end StepChain
