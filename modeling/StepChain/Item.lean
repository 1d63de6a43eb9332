import StepChain.Step.Basic
import StepChain.Yaml.Decode

/-!
# Items

Actions and modifiers are made from a name, a raw configuration and an address.
A type of items first validates the configuration and then assembles the item
from what validation made of it.
-/

namespace StepChain

/-- Makes an item from its name, its raw configuration and its address. -/
abbrev Factory (ι : Type) := String → Yaml → Address → Except StepError ι

/-- A configurable type of items. -/
structure ItemType (ι : Type) where
  /-- What validation makes of a raw configuration. -/
  Config : Type
  validate : Factory Config
  assemble : Header → Config → ι

/-- Validate a raw configuration and assemble the item. -/
def ItemType.construct {ι : Type} (type : ItemType ι) : Factory ι := fun name raw addr => do
  let config ← type.validate name raw addr
  .ok (type.assemble { name, address := addr } config)

/-- Decode a configuration. What does not decode is an invalid configuration of the
item, caused by the fault. -/
def decodeConfig {α : Type} (decode : Decoder α) : Factory α := fun name raw addr =>
  match decode raw with
  | .ok config => .ok config
  | .error fault =>
      .error (((Problem.invalidConfiguration name fault.message).foundAt addr).causedBy
        [fault.message])

end StepChain
