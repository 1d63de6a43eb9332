import StepChain.Hints
import StepChain.Outcome

/-!
# Steps

A step is one action and the modifiers around it, in the order they are
applied. A modifier has a hook before the action and one after it. What actions
and hooks do is a `Routine`: a finished answer, or a request to have the step
evaluated from one of its modifiers on, after which the routine goes on with
the outcome. Loops are built from such requests.

`σ` is the host's context, `α` the type of values, `μ` that of metadata.
-/

namespace StepChain

/-- The name and place an action or modifier was made under. -/
structure Header where
  name : String
  address : Address
  deriving DecidableEq, Repr

/-- What an action or hook does when it is called. -/
inductive Routine (σ α β : Type) where
  /-- Finish with an answer and a context. -/
  | done (answer : β) (ctx : σ)
  /-- Have the step's modifiers from a position on evaluated around the action,
  those before it counting as applied, and go on with the outcome. -/
  | evaluate (start : Nat) (ctx : σ) (next : Outcome α → σ → Routine σ α β)

/-- What actions and hooks are told about their step. -/
structure StepView where
  address : Address
  /-- The names of the modifiers in the order they are applied. -/
  modifiers : List String
  deriving DecidableEq, Repr

namespace StepView

/-- The position of the first modifier of a name. -/
def position? (view : StepView) (name : String) : Option Nat :=
  view.modifiers.findIdx? (· == name)

end StepView

/-- What a pre-hook is told. -/
structure PreCall where
  step : StepView
  /-- The modifiers whose pre-hooks ran, in order. -/
  applied : List String
  /-- The modifiers whose pre-hooks are still to run, in order. -/
  pending : List String
  /-- The action's name. -/
  action : String
  deriving DecidableEq, Repr

/-- What a post-hook is told. -/
structure PostCall where
  step : StepView
  /-- The modifiers after this one. -/
  handled : List String
  /-- The modifiers before this one; the last of them comes next. -/
  remaining : List String
  /-- The action's name. -/
  action : String
  deriving DecidableEq, Repr

/-- What a step does. -/
structure Action (σ α : Type) where
  header : Header
  /-- Whether the action runs while steps are parsed. -/
  eager : Bool := false
  call : StepView → σ → Routine σ α (Except Failure α)

/-- A unit around the action of a step. -/
structure Modifier (σ α : Type) where
  header : Header
  hints : Hints := {}
  /-- Runs before the action, in the order of application. By default it does
  nothing. -/
  pre : PreCall → σ → Routine σ α (Except (Interrupt α) Unit) :=
    fun _ ctx => .done (.ok ()) ctx
  /-- Runs after the action, in reverse order, and hands an outcome on. By
  default it hands on what it is given. -/
  post : PostCall → Outcome α → σ → Routine σ α (Except Failure (Outcome α)) :=
    fun _ outcome ctx => .done (.ok outcome) ctx

namespace Action

variable {σ α : Type}

def name (action : Action σ α) : String := action.header.name

def actionClass (action : Action σ α) : ActionClass := .ofEager action.eager

end Action

namespace Modifier

variable {σ α : Type}

def name (modifier : Modifier σ α) : String := modifier.header.name

end Modifier

/-- The names of some modifiers. -/
def modifierNames {σ α : Type} (modifiers : List (Modifier σ α)) : List String :=
  modifiers.map Modifier.name

/-- A step, ready to be called. -/
structure Step (σ α μ : Type) where
  action : Action σ α
  /-- In the order of application. -/
  modifiers : List (Modifier σ α)
  metadata : μ
  address : Address

namespace Step

variable {σ α μ : Type}

def eager (step : Step σ α μ) : Bool := step.action.eager

def view (step : Step σ α μ) : StepView :=
  { address := step.address, modifiers := modifierNames step.modifiers }

/-- The position of the first modifier of a name. -/
def position? (step : Step σ α μ) (name : String) : Option Nat :=
  step.modifiers.findIdx? (·.name == name)

/-- The modifiers up to the one of a name, itself included, and those after it. -/
def splitAfter? (step : Step σ α μ) (name : String) :
    Option (List (Modifier σ α) × List (Modifier σ α)) :=
  (step.position? name).map fun index => step.modifiers.splitAt (index + 1)

end Step

namespace Routine

variable {σ α β : Type}

/-- A loop: have the step evaluated from a position on, at most `rounds` times,
and abort with the last outcome. After each round `again` decides whether to go
on, and with which context; it is told the number of the round. -/
def loopFrom (start : Nat) (again : Nat → Outcome α → σ → Option σ) :
    (rounds round : Nat) → Outcome α → σ → Routine σ α (Except (Interrupt α) β)
  | 0, _, last, ctx => done (.error (.abort last)) ctx
  | rounds + 1, round, _, ctx =>
      evaluate start ctx fun outcome ctx =>
        match again round outcome ctx with
        | some ctx => loopFrom start again rounds (round + 1) outcome ctx
        | none => done (.error (.abort outcome)) ctx

/-- A loop over what comes after the modifier of a name. Without any round the
step is skipped; there is no loop when the step has no such modifier. -/
def loopAfter? (call : PreCall) (name : String) (rounds : Nat)
    (again : Nat → Outcome α → σ → Option σ) (ctx : σ) :
    Option (Routine σ α (Except (Interrupt α) β)) :=
  (call.step.position? name).map fun index =>
    loopFrom (index + 1) again rounds 1 .skipped ctx

end Routine

end StepChain
