import StepChain.Compatibility
import StepChain.Order.Cycle
import StepChain.Registry
import StepChain.Step.Evaluate

/-!
# Descriptions

A step is described by the name of its action, or by a mapping whose keys are
metadata, exactly one action, and any number of modifiers. The entries are taken
in document order up to the first one at fault; then the parts are checked
against each other, and the modifiers are put into their order of application.
-/

namespace StepChain

/-- How the steps of a dialect are described: where its actions and modifiers are looked
up, and which keys are metadata. -/
structure Vocabulary (μ : Type) where
  actionSpace : String
  /-- Must differ from the namespace of actions. -/
  modifierSpace : String
  metadataKeys : NameSet := NameSet.empty
  /-- What the metadata of a step amounts to. -/
  validateMetadata : YamlMapping → Address → Except StepError μ

/-- What the entries of a description amount to. -/
structure Parts (σ α : Type) where
  action : Option (Action σ α) := none
  modifiers : NameMap (Modifier σ α) := .empty
  metadata : YamlMapping := []

namespace Vocabulary

variable {σ α μ : Type}

/-- Build a step from an action and modifiers in order of application. -/
def step (vocabulary : Vocabulary μ) (action : Action σ α) (addr : Address)
    (modifiers : List (Modifier σ α)) (metadata : YamlMapping) :
    Except StepError (Step σ α μ) := do
  let metadata ← vocabulary.validateMetadata metadata addr
  .ok { action, modifiers, metadata, address := addr }

/-- Take in one entry of a description. A key that is no metadata is an action if it
can be, and else a modifier. -/
def addEntry (vocabulary : Vocabulary μ) (resolver : Resolver σ α) (addr : Address)
    (parts : Parts σ α) (entry : Yaml × Yaml) : Except StepError (Parts σ α) :=
  match entry.1.text? with
  | none => .error ((Problem.malformedDescription "a mapping with a non-string key").foundAt addr)
  | some name =>
      if name ∈ vocabulary.metadataKeys then
        .ok { parts with metadata := parts.metadata.insert entry.1 entry.2 }
      else
        match resolver.action vocabulary.actionSpace name, parts.action with
        | .ok _, some existing =>
            .error ((Problem.secondAction name existing.name).foundAt addr)
        | .ok factory, none => do
            let action ← factory name entry.2 (addr.key name)
            .ok { parts with action := some action }
        | .error _, _ =>
            match resolver.modifier vocabulary.modifierSpace name with
            | .ok factory => do
                let modifier ← factory name entry.2 (addr.key name)
                .ok { parts with modifiers := parts.modifiers.insert name modifier }
            | .error _ => .error ((Problem.unknownKey name).foundAt addr)

/-- Check the parts of a step against each other, order its modifiers and build it. -/
def assemble (vocabulary : Vocabulary μ) (policy : CyclePolicy) (addr : Address)
    (action : Action σ α) (modifiers : NameMap (Modifier σ α)) (metadata : YamlMapping) :
    Except StepError (Step σ α μ) := do
  let hints := modifiers.mapValues fun _ modifier => modifier.hints
  checkCompatibility addr action.name action.actionClass hints
  match policy.order hints with
  | .error names => .error ((Problem.contradictoryOrder names).foundAt addr)
  | .ok order => vocabulary.step action addr (order.filterMap modifiers.get?) metadata

/-- The parts that the entries of a description amount to. -/
def parts (vocabulary : Vocabulary μ) (resolver : Resolver σ α) (addr : Address)
    (entries : YamlMapping) : Except StepError (Parts σ α) :=
  entries.foldlM (vocabulary.addEntry resolver addr) {}

/-- The step that a description at an address stands for. -/
def readStep (vocabulary : Vocabulary μ) (resolver : Resolver σ α) (policy : CyclePolicy)
    (raw : Yaml) (addr : Address) : Except StepError (Step σ α μ) :=
  match raw with
  | .str name =>
      match resolver.action vocabulary.actionSpace name with
      | .ok factory => do
          let action ← factory name .null (addr.key name)
          vocabulary.assemble policy addr action .empty []
      | .error _ => .error ((Problem.unknownKey name).foundAt addr)
  | .map entries => do
      let parts ← vocabulary.parts resolver addr entries
      match parts.action with
      | some action => vocabulary.assemble policy addr action parts.modifiers parts.metadata
      | none => .error (Problem.missingAction.foundAt addr)
  | other => .error ((Problem.malformedDescription other.describe).foundAt addr)

end Vocabulary

end StepChain
