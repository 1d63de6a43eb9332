import StepChain.Step.Basic

/-!
# Evaluation

The pre-hooks of the pending modifiers run in order. If none of them interrupts
the step, the action is called. Then the post-hooks of the modifiers whose
pre-hook completed run in reverse order, each on the outcome of the one before
it. No hook runs past an interrupt, and no failure skips a post-hook.

A routine may have its step evaluated again. How deep such requests nest is
bounded; without a bound an evaluation need not end.
-/

namespace StepChain

variable {σ α β μ : Type}

/-- Answers the requests of routines: evaluates a step from a position on. -/
abbrev Reentry (σ α : Type) := Nat → σ → Option (Outcome α × σ)

/-- Run a routine to its answer. -/
def Routine.run (again : Reentry σ α) : Routine σ α β → Option (β × σ)
  | .done answer ctx => some (answer, ctx)
  | .evaluate start ctx next =>
      match again start ctx with
      | some (outcome, ctx) => (next outcome ctx).run again
      | none => none

/-- What stays the same while the modifiers of a step are evaluated. -/
structure Chain (σ α : Type) where
  step : StepView
  action : Action σ α
  /-- Modifiers that are reported as applied and not run. -/
  applied : List (Modifier σ α)
  again : Reentry σ α

/-- How far the pre-hooks came. -/
structure Advance (σ α : Type) where
  /-- The modifiers whose pre-hook completed, the last one first. -/
  completed : List (Modifier σ α)
  /-- The interrupting modifier and those after it. -/
  untouched : List (Modifier σ α)
  /-- The outcome that the interrupt goes on with, if there was one. -/
  stop : Option (Outcome α)
  ctx : σ

namespace Chain

def preCall (chain : Chain σ α) (completed pending : List (Modifier σ α)) : PreCall :=
  { step := chain.step
    applied := modifierNames (chain.applied ++ completed.reverse)
    pending := modifierNames pending
    action := chain.action.name }

def postCall (chain : Chain σ α) (completed handled : List (Modifier σ α)) : PostCall :=
  { step := chain.step
    handled := modifierNames handled
    remaining := modifierNames (chain.applied ++ completed.reverse)
    action := chain.action.name }

/-- Run the pre-hooks of the pending modifiers, up to the first interrupt. -/
def advance (chain : Chain σ α) (completed : List (Modifier σ α)) :
    List (Modifier σ α) → σ → Option (Advance σ α)
  | [], ctx => some { completed, untouched := [], stop := none, ctx }
  | modifier :: rest, ctx =>
      match (modifier.pre (chain.preCall completed rest) ctx).run chain.again with
      | none => none
      | some (.ok (), ctx) => chain.advance (modifier :: completed) rest ctx
      | some (.error interrupt, ctx) =>
          some
            { completed
              untouched := modifier :: rest
              stop := some interrupt.outcome
              ctx }

/-- Run the post-hooks of the completed modifiers, the last one first. -/
def unwind (chain : Chain σ α) :
    (completed handled : List (Modifier σ α)) → Outcome α → σ → Option (Outcome α × σ)
  | [], _, outcome, ctx => some (outcome, ctx)
  | modifier :: completed, handled, outcome, ctx =>
      match (modifier.post (chain.postCall completed handled) outcome ctx).run chain.again with
      | none => none
      | some (answer, ctx) =>
          chain.unwind completed (modifier :: handled) (Outcome.ofHook answer) ctx

/-- Evaluate the pending modifiers around the action. -/
def evaluate (chain : Chain σ α) (pending : List (Modifier σ α)) (ctx : σ) :
    Option (Outcome α × σ) :=
  match chain.advance [] pending ctx with
  | none => none
  | some reached =>
      match reached.stop with
      | some outcome => chain.unwind reached.completed reached.untouched outcome reached.ctx
      | none =>
          match (chain.action.call chain.step reached.ctx).run chain.again with
          | none => none
          | some (answer, ctx) =>
              chain.unwind reached.completed [] (Outcome.ofExcept answer) ctx

end Chain

namespace Step

/-- Evaluate some modifiers of a step around an action, with requests nesting to
a depth less than the given one. There is no result when they nest deeper. -/
def evaluateWithin (step : Step σ α μ) :
    (depth : Nat) → Action σ α → (applied pending : List (Modifier σ α)) → σ →
      Option (Outcome α × σ)
  | 0, _, _, _, _ => none
  | depth + 1, action, applied, pending, ctx =>
      Chain.evaluate
        { step := step.view
          action
          applied
          again := fun start ctx =>
            step.evaluateWithin depth action (step.modifiers.take start)
              (step.modifiers.drop start) ctx }
        pending ctx

/-- The depth that suffices when each modifier has only those after it evaluated. -/
def depth (step : Step σ α μ) : Nat :=
  step.modifiers.length + 1

/-- The failure of a step whose requests for evaluation have no end. -/
def endless (step : Step σ α μ) : Failure :=
  .ofMessage ("Step at " ++ step.address.render ++ " evaluates itself without end")

/-- Evaluate some modifiers of a step around an action. A failure is an outcome. -/
def evaluate (step : Step σ α μ) (action : Action σ α) (applied pending : List (Modifier σ α))
    (ctx : σ) : Outcome α × σ :=
  (step.evaluateWithin step.depth action applied pending ctx).getD (.failed step.endless, ctx)

/-- Call a step. A failure that is left at the end is an error; without a value
the step was skipped. -/
def call (step : Step σ α μ) (ctx : σ) : Except Failure (Option α) × σ :=
  let (outcome, ctx) := step.evaluate step.action [] step.modifiers ctx
  (outcome.toExcept, ctx)

end Step

end StepChain
