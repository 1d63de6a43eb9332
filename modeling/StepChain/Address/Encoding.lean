import StepChain.Address
import StepChain.Yaml.Decode

/-!
# Addresses as values

An address is a structure of a file name and a path, which may be missing. A
segment is a text or a position.
-/

namespace StepChain

namespace Segment

def toYaml : Segment → Yaml
  | key name => .str name
  | index position => .int position

/-- The key that a value stands for. -/
def key? : Yaml → Option Segment
  | .str name => some (key name)
  | _ => none

/-- The position that a value stands for. -/
def index? : Yaml → Option Segment
  | .int position => if 0 ≤ position then some (index position.toNat) else none
  | _ => none

def ofYaml : Decoder Segment :=
  Yaml.decodeAlternative "PathSegment" [key?, index?]

end Segment

namespace Address

def toYaml (addr : Address) : Yaml :=
  .map [(.str "filename", .str addr.filename), (.str "path", .str addr.path)]

/-- The fields of an address that were decoded so far. -/
structure Draft where
  filename : Option String := none
  path : Option String := none

/-- Take in one field; others than those of an address are ignored. -/
def Draft.field (draft : Draft) (name : String) (value : Yaml) : Except DecodeFault Draft :=
  match name with
  | "filename" => do
      let filename ← Yaml.decodeOnce name draft.filename Yaml.decodeText value
      .ok { draft with filename }
  | "path" => do
      let path ← Yaml.decodeOnce name draft.path Yaml.decodeText value
      .ok { draft with path }
  | _ => .ok draft

def ofYaml : Decoder Address := fun value => do
  let draft ← Yaml.decodeFields "StepAddress" {} Draft.field value
  match draft.filename with
  | some filename => .ok { filename, path := draft.path.getD "" }
  | none => .error (.missingField "filename")

end Address

end StepChain
