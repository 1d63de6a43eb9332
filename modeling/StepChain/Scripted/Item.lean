import StepChain.Scripted.Recorder

/-!
# Scripted items

Actions and modifiers that record their calls and do what a script says. Their
values are texts. Where nothing else is said a scripted modifier goes on before
the action, and after it appends its name to the value.
-/

namespace StepChain

/-- Where a scripted item is, unless a factory puts it elsewhere. -/
def scriptedAddress (name : String) : Address :=
  (Address.root "scripted").key name

/-- What a scripted action does. -/
inductive ActionScript where
  | give (value : String)
  | fail (message : String)
  deriving DecidableEq, Repr

/-- An action that records its call and does what its script says. -/
structure ScriptedAction where
  header : Header
  script : ActionScript
  eager : Bool := false
  deriving DecidableEq, Repr

namespace ScriptedAction

/-- What a call of the action gives. -/
def answer (action : ScriptedAction) : Except Failure String :=
  match action.script with
  | .give value => .ok value
  | .fail message => .error (.ofMessage message)

def toAction (action : ScriptedAction) : Action Recorder String :=
  { header := action.header
    eager := action.eager
    call := fun _ log => .done action.answer (log.record ("call:" ++ action.header.name)) }

end ScriptedAction

/-- What a scripted modifier does before the action. -/
inductive PreScript where
  | proceed
  /-- Abort, with a value or without one. -/
  | abort (value : Option String)
  | fail (message : String)
  deriving DecidableEq, Repr

/-- What a scripted modifier does after the action. -/
inductive PostScript where
  /-- Append the modifier's name to a value. -/
  | append
  | pass
  | fail (message : String)
  /-- Put a value in the place of a failure. -/
  | recover (value : String)
  deriving DecidableEq, Repr

/-- A modifier that records its hooks and does what its scripts say. -/
structure ScriptedModifier where
  header : Header
  hints : Hints := {}
  pre : PreScript := .proceed
  post : PostScript := .append

namespace ScriptedModifier

/-- How the pre-hook ends. -/
def preAnswer (modifier : ScriptedModifier) : Except (Interrupt String) Unit :=
  match modifier.pre with
  | .proceed => .ok ()
  | .abort (some value) => .error (.withValue value)
  | .abort none => .error .skip
  | .fail message => .error (.failure (.ofMessage message))

/-- What the post-hook makes of an outcome. -/
def postAnswer (modifier : ScriptedModifier) (outcome : Outcome String) :
    Except Failure (Outcome String) :=
  match modifier.post with
  | .append => .ok (outcome.map fun value => value ++ "|" ++ modifier.header.name)
  | .pass => .ok outcome
  | .fail message => .error (.ofMessage message)
  | .recover value => .ok (if outcome.isFailed then .value value else outcome)

/-- The record of a call of the pre-hook. -/
def recordPre (modifier : ScriptedModifier) (call : PreCall) (log : Recorder) : Recorder :=
  (log.record ("pre:" ++ modifier.header.name)).recordPre modifier.header.name call.applied
    call.pending

/-- The record of a call of the post-hook. -/
def recordPost (modifier : ScriptedModifier) (call : PostCall) (outcome : Outcome String)
    (log : Recorder) : Recorder :=
  ((log.record ("post:" ++ modifier.header.name)).recordSeen modifier.header.name
    outcome.recorded).recordPost modifier.header.name call.handled call.remaining

def toModifier (modifier : ScriptedModifier) : Modifier Recorder String :=
  { header := modifier.header
    hints := modifier.hints
    pre := fun call log => .done modifier.preAnswer (modifier.recordPre call log)
    post := fun call outcome log =>
      .done (modifier.postAnswer outcome) (modifier.recordPost call outcome log) }

end ScriptedModifier

end StepChain
