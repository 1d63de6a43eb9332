import StepChain.Failure

/-!
# Outcomes

What an evaluation hands on. A failure is an outcome like any other, so that
every hook on the way out gets to see it; it becomes an error only when the
step is done.
-/

namespace StepChain

/-- The result of evaluating a step, or part of it. -/
inductive Outcome (α : Type) where
  /-- A value that the action returned or a modifier put in its place. -/
  | value (result : α)
  /-- The step was aborted without a value. -/
  | skipped
  /-- The action or a hook failed. -/
  | failed (failure : Failure)
  deriving DecidableEq, Repr

namespace Outcome

variable {α β : Type}

/-- Take in what an action returned. -/
def ofExcept : Except Failure α → Outcome α
  | .ok result => value result
  | .error failure => failed failure

/-- Surface a failure as an error. Without a value the step was skipped. -/
def toExcept : Outcome α → Except Failure (Option α)
  | value result => .ok (some result)
  | skipped => .ok none
  | failed failure => .error failure

/-- Take in what a hook made of an outcome; an error takes the outcome's place. -/
def ofHook : Except Failure (Outcome α) → Outcome α
  | .ok outcome => outcome
  | .error failure => failed failure

def isValue : Outcome α → Bool
  | value _ => true
  | _ => false

def isSkipped : Outcome α → Bool
  | skipped => true
  | _ => false

def isFailed : Outcome α → Bool
  | failed _ => true
  | _ => false

def value? : Outcome α → Option α
  | value result => some result
  | _ => none

def failure? : Outcome α → Option Failure
  | failed failure => some failure
  | _ => none

/-- Change a value; a skip and a failure stay as they are. -/
def map (f : α → β) : Outcome α → Outcome β
  | value result => value (f result)
  | skipped => skipped
  | failed failure => failed failure

end Outcome

/-- How a pre-hook stops a step early. -/
inductive Interrupt (α : Type) where
  /-- End the step with an outcome; this is not a failure. -/
  | abort (outcome : Outcome α)
  | failure (cause : Failure)
  deriving DecidableEq, Repr

namespace Interrupt

variable {α : Type}

/-- End the step as skipped. -/
def skip : Interrupt α := abort .skipped

/-- End the step with a value. -/
def withValue (result : α) : Interrupt α := abort (.value result)

/-- The outcome that an interrupted step goes on with. -/
def outcome : Interrupt α → Outcome α
  | .abort outcome => outcome
  | .failure cause => .failed cause

end Interrupt

end StepChain
