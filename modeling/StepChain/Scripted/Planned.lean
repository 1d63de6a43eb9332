import StepChain.Scripted.Recorder

/-!
# Planned items

Actions that answer differently from call to call, and modifiers that loop over
what comes after them, abort with any outcome or replace it. They record their
calls with all the names they are told.
-/

namespace StepChain

/-- Where a planned item is, unless a factory puts it elsewhere. -/
def plannedAddress (name : String) : Address :=
  (Address.root "custom").key name

/-- An action with an answer for each of its calls; the last one is repeated. -/
structure PlannedAction where
  header : Header
  /-- Tells the action from others when its calls are counted. -/
  identity : String
  results : List (Except Failure String)
  eager : Bool := false

namespace PlannedAction

/-- The answer of a call, counted from zero. -/
def answer (action : PlannedAction) (turn : Nat) : Except Failure String :=
  match action.results[turn]?, action.results.getLast? with
  | some result, _ => result
  | none, some last => last
  | none, none => .ok ""

def toAction (action : PlannedAction) : Action Recorder String :=
  { header := action.header
    eager := action.eager
    call := fun _ log =>
      let (turn, log) := (log.record ("call:" ++ action.header.name)).takeTurn action.identity
      .done (action.answer turn) log }

end PlannedAction

/-- What a planned modifier does before the action. -/
inductive PrePlan where
  | proceed
  | abort (outcome : Outcome String)
  | fail (cause : Failure)
  /-- Evaluate what comes after the modifier a number of times, perhaps only until it
  does not fail, and abort with the last outcome. -/
  | loop (rounds : Nat) (untilOk : Bool)

/-- What a planned modifier does after the action. -/
inductive PostPlan where
  | pass
  | set (outcome : Outcome String)
  | raise (cause : Failure)
  /-- Raise a failure again, with context. -/
  | wrap (context : String)

/-- A modifier that follows a plan. -/
structure PlannedModifier where
  header : Header
  hints : Hints := {}
  pre : PrePlan := .proceed
  post : PostPlan := .pass

namespace PlannedModifier

/-- Whether a loop goes on after an outcome. -/
def again (untilOk : Bool) (outcome : Outcome String) : Bool :=
  outcome.isFailed || !untilOk

def preRoutine (modifier : PlannedModifier) (call : PreCall) (log : Recorder) :
    Routine Recorder String (Except (Interrupt String) Unit) :=
  match modifier.pre with
  | .proceed => .done (.ok ()) log
  | .abort outcome => .done (.error (.abort outcome)) log
  | .fail cause => .done (.error (.failure cause)) log
  | .loop rounds untilOk =>
      let goOn := fun _ outcome log => if again untilOk outcome then some log else none
      (Routine.loopAfter? call modifier.header.name rounds goOn log).getD (.done (.ok ()) log)

/-- What the post-hook makes of an outcome. -/
def postAnswer (modifier : PlannedModifier) (outcome : Outcome String) :
    Except Failure (Outcome String) :=
  match modifier.post, outcome with
  | .pass, outcome => .ok outcome
  | .set planned, _ => .ok planned
  | .raise cause, _ => .error cause
  | .wrap context, .failed failure => .error (failure.withContext context)
  | .wrap _, outcome => .ok outcome

/-- The entry of a call of the pre-hook. -/
def preEntry (modifier : PlannedModifier) (call : PreCall) : String :=
  "pre:" ++ modifier.header.name ++ "(" ++ commaList call.applied ++ "/" ++
    commaList call.pending ++ ")"

/-- The entry of a call of the post-hook. -/
def postEntry (modifier : PlannedModifier) (call : PostCall) : String :=
  "post:" ++ modifier.header.name ++ "(" ++ call.action ++ "/" ++ commaList call.handled ++ "/" ++
    commaList call.remaining ++ ")"

def toModifier (modifier : PlannedModifier) : Modifier Recorder String :=
  { header := modifier.header
    hints := modifier.hints
    pre := fun call log => modifier.preRoutine call (log.record (modifier.preEntry call))
    post := fun call outcome log =>
      .done (modifier.postAnswer outcome) (log.record (modifier.postEntry call)) }

end PlannedModifier

end StepChain
