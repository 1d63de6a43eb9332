import StepChain.Decimal.Text
import StepChain.Text.Quoted
import StepChain.Yaml.Value

/-!
# Decoding values

Values become data of other types. A decoder looks through the tags of a value;
only a choice and an optional value tell a tagged value from a bare one. A
structure is a mapping whose keys name its fields, and null is one without any.
-/

namespace StepChain

/-- Why a value does not decode. -/
inductive DecodeFault where
  /-- A value of another kind. -/
  | wrongKind (found expected : String)
  /-- A whole number out of range. -/
  | outOfRange (value : Int) (expected : String)
  | missingField (name : String)
  | duplicateField (name : String)
  | unknownField (name : String) (known : List String)
  /-- A choice that there is not. -/
  | unknownVariant (name : String) (known : List String)
  /-- A value that is none of the alternatives of a type. -/
  | noAlternative (type : String)
  /-- A tag inside a value that is matched against alternatives. -/
  | taggedAlternative
  deriving DecidableEq, Repr

namespace DecodeFault

/-- A word between grave accents. -/
def marked (text : String) : String :=
  "\x60" ++ text ++ "\x60"

/-- Names to choose from. -/
def oneOf : List String → String
  | [] => ""
  | [name] => marked name
  | [first, second] => marked first ++ " or " ++ marked second
  | names => "one of " ++ String.intercalate ", " (names.map marked)

def message : DecodeFault → String
  | wrongKind found expected => "invalid type: " ++ found ++ ", expected " ++ expected
  | outOfRange value expected =>
      "invalid value: integer " ++ marked (toString value) ++ ", expected " ++ expected
  | missingField name => "missing field " ++ marked name
  | duplicateField name => "duplicate field " ++ marked name
  | unknownField name known =>
      "unknown field " ++ marked name ++ ", expected " ++ oneOf known
  | unknownVariant name known =>
      "unknown variant " ++ marked name ++ ", expected " ++ oneOf known
  | noAlternative type => "data did not match any variant of untagged enum " ++ type
  | taggedAlternative => "untagged and internally tagged enums do not support enum input"

end DecodeFault

/-- Turns a value into data. -/
abbrev Decoder (α : Type) := Yaml → Except DecodeFault α

namespace Yaml

/-- A value as it is shown where another kind was expected. -/
def found : Yaml → String
  | null => "unit value"
  | bool true => "boolean " ++ DecodeFault.marked "true"
  | bool false => "boolean " ++ DecodeFault.marked "false"
  | int value => "integer " ++ DecodeFault.marked (toString value)
  | float value => "floating point " ++ DecodeFault.marked (StepChain.floatText .message value)
  | str text => "string " ++ Text.quote text
  | seq _ => "sequence"
  | map _ => "map"
  | tagged _ _ => "enum"

/-- Refuse a value of a kind that was not expected. -/
def refuse {α : Type} (value : Yaml) (expected : String) : Except DecodeFault α :=
  .error (.wrongKind value.found expected)

def decodeText : Decoder String := fun value =>
  match value.untagged with
  | str text => .ok text
  | other => other.refuse "a string"

def decodeBool : Decoder Bool := fun value =>
  match value.untagged with
  | bool flag => .ok flag
  | other => other.refuse "a boolean"

/-- A whole number of some bits, without a sign. -/
def decodeWord (bits : Nat) : Decoder Nat := fun value =>
  let expected := "u" ++ bits.repr
  match value.untagged with
  | int number =>
      if 0 ≤ number ∧ number < Nat.pow 2 bits then .ok number.toNat
      else .error (.outOfRange number expected)
  | other => other.refuse expected

/-- Nothing at all, which only a bare null is. -/
def decodeUnit : Decoder Unit
  | null => .ok ()
  | other => other.refuse "unit"

/-- A value that may be missing. Only a bare null counts as missing. -/
def decodeOption {α : Type} (decode : Decoder α) : Decoder (Option α)
  | null => .ok none
  | value => (decode value).map some

/-- One of some named variants without content: the name as a text, or as the tag
of a null. -/
def decodeVariant {α : Type} (variants : List (String × α)) : Decoder α := fun value =>
  let choose (name : String) : Except DecodeFault α :=
    match variants.lookup name with
    | some choice => .ok choice
    | none => .error (.unknownVariant name (variants.map Prod.fst))
  match value with
  | str name => choose name
  | tagged tag content => do
      let choice ← choose (bareTag tag)
      decodeUnit content
      .ok choice
  | other => other.refuse "a Value::Tagged enum"

/-- The entries of a structure. -/
def decodeEntries (type : String) : Decoder YamlMapping := fun value =>
  match value.untagged with
  | null => .ok []
  | map entries => .ok entries
  | other => other.refuse ("struct " ++ type)

/-- The name of a field. -/
def decodeFieldName : Decoder String := fun key =>
  match key.untagged with
  | str name => .ok name
  | other => other.refuse "field identifier"

/-- A field that must not be there already. -/
def decodeOnce {α : Type} (name : String) (earlier : Option α) (decode : Decoder α) :
    Decoder (Option α) := fun value =>
  match earlier with
  | some _ => .error (.duplicateField name)
  | none => (decode value).map some

/-- Decode the fields of a structure one after the other into a draft of it. -/
def decodeFields {δ : Type} (type : String) (draft : δ)
    (field : δ → String → Yaml → Except DecodeFault δ) : Decoder δ := fun value => do
  let entries ← decodeEntries type value
  entries.foldlM
    (fun draft entry => do field draft (← decodeFieldName entry.1) entry.2) draft

mutual

/-- Whether there is a tag anywhere in a value. -/
def holdsTag (value : Yaml) : Bool :=
  match value with
  | tagged _ _ => true
  | seq items => anyHoldsTag items
  | map entries => anyEntryHoldsTag entries
  | null | bool _ | int _ | float _ | str _ => false
termination_by structural value

def anyHoldsTag (items : List Yaml) : Bool :=
  match items with
  | [] => false
  | item :: rest => holdsTag item || anyHoldsTag rest
termination_by structural items

def anyEntryHoldsTag (entries : List (Yaml × Yaml)) : Bool :=
  match entries with
  | [] => false
  | entry :: rest => entryHoldsTag entry || anyEntryHoldsTag rest
termination_by structural entries

def entryHoldsTag (entry : Yaml × Yaml) : Bool :=
  match entry with
  | (key, value) => holdsTag key || holdsTag value
termination_by structural entry

end

/-- The first alternative that takes a value; values with tags have none. -/
def decodeAlternative {α : Type} (type : String) (alternatives : List (Yaml → Option α)) :
    Decoder α := fun value =>
  if value.holdsTag then .error .taggedAlternative
  else
    match alternatives.findSome? (· value) with
    | some choice => .ok choice
    | none => .error (.noAlternative type)

end Yaml

end StepChain
