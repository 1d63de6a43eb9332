import StepChain.Settings
import StepChain.Description

/-!
# Lists of steps

A dialect is a vocabulary together with a way to expand the value of an
eager step into further steps. A reader reads lists of descriptions: lazy steps
are kept, eager ones are called at once and replaced by their expansion. Entries
are taken in order, and the first failure is the failure of the whole list.
-/

namespace StepChain

/-- A dialect of step descriptions. -/
structure Dialect (σ α μ : Type) extends Vocabulary μ where
  /-- The steps that the value of an eager step at an address expands to. By default
  there are none to be had. -/
  expand : α → Address → Except Failure (List (Step σ α μ)) :=
    fun _ addr => .error (.ofStepError (Problem.notExpandable.foundAt addr))

/-- Reads the descriptions in a dialect. -/
structure StepReader (σ α μ : Type) where
  dialect : Dialect σ α μ
  resolver : Resolver σ α
  ordering : CyclePolicy
  distinct : dialect.actionSpace ≠ dialect.modifierSpace

namespace StepReader

variable {σ α μ : Type}

/-- A reader, provided that actions and modifiers have different namespaces. -/
def make (dialect : Dialect σ α μ) (resolver : Resolver σ α) (settings : Settings) :
    Except StepError (StepReader σ α μ) :=
  if same : dialect.actionSpace = dialect.modifierSpace then
    .error (Problem.sharedNamespace dialect.actionSpace).anywhere
  else .ok { dialect, resolver, ordering := settings.ordering, distinct := same }

/-- The step that a description at an address stands for. -/
def readStep (reader : StepReader σ α μ) (raw : Yaml) (addr : Address) :
    Except StepError (Step σ α μ) :=
  reader.dialect.toVocabulary.readStep reader.resolver reader.ordering raw addr

/-- The steps that one description in a list stands for. A skipped eager step stands
for none. -/
def readItem (reader : StepReader σ α μ) (raw : Yaml) (addr : Address) (ctx : σ) :
    Except Failure (List (Step σ α μ)) × σ :=
  match reader.readStep raw addr with
  | .error error => (.error (.ofStepError error), ctx)
  | .ok step =>
      if step.eager then
        match step.call ctx with
        | (.ok (some result), ctx) => (reader.dialect.expand result step.address, ctx)
        | (.ok none, ctx) => (.ok [], ctx)
        | (.error failure, ctx) => (.error failure, ctx)
      else (.ok [step], ctx)

/-- The steps that the descriptions from a position of a list on stand for. -/
def readItems (reader : StepReader σ α μ) (addr : Address) :
    (position : Nat) → List Yaml → σ → Except Failure (List (Step σ α μ)) × σ
  | _, [], ctx => (.ok [], ctx)
  | position, item :: rest, ctx =>
      match reader.readItem item (addr.idx position) ctx with
      | (.error failure, ctx) => (.error failure, ctx)
      | (.ok steps, ctx) =>
          match reader.readItems addr (position + 1) rest ctx with
          | (.ok more, ctx) => (.ok (steps ++ more), ctx)
          | (.error failure, ctx) => (.error failure, ctx)

/-- The steps that a list of descriptions stands for. -/
def readList (reader : StepReader σ α μ) (raw : Yaml) (addr : Address) (ctx : σ) :
    Except Failure (List (Step σ α μ)) × σ :=
  match raw.items? with
  | some items => reader.readItems addr 0 items ctx
  | none => (.error (.ofStepError ((Problem.malformedList raw.describe).foundAt addr)), ctx)

end StepReader

end StepChain
