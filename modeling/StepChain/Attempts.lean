import StepChain.Reader

/-!
# Attempts

Steps that may fail and be tried again. `flaky` fails until it was
called often enough, `retry` evaluates what comes after it until it does not
fail, and `trace` notes how a step is entered and left.
-/

namespace StepChain

/-- What the steps of a run share. -/
structure Attempts.Run where
  attempts : Nat := 0
  /-- In the order in which they happened. -/
  events : List String := []
  deriving DecidableEq, Repr

def Attempts.Run.note (run : Attempts.Run) (event : String) : Attempts.Run :=
  { run with events := run.events ++ [event] }

/-- The metadata of a step. -/
structure Attempts.Metadata where
  name : Option String := none
  description : Option String := none
  deriving DecidableEq, Repr

namespace Attempts.Metadata

/-- Metadata being decoded: which fields were there, and what they hold. -/
structure Draft where
  name : Option (Option String) := none
  description : Option (Option String) := none

/-- Take in one field; there are no others than a name and a description. -/
def Draft.field (draft : Draft) (name : String) (value : Yaml) : Except DecodeFault Draft :=
  let decode := Yaml.decodeOption Yaml.decodeText
  match name with
  | "name" => do
      let name ← Yaml.decodeOnce name draft.name decode value
      .ok { draft with name }
  | "description" => do
      let description ← Yaml.decodeOnce name draft.description decode value
      .ok { draft with description }
  | _ => .error (.unknownField name ["name", "description"])

def ofYaml : Decoder Attempts.Metadata := fun value => do
  let draft ← Yaml.decodeFields "HostMetadata" {} Draft.field value
  .ok { name := draft.name.join, description := draft.description.join }

end Attempts.Metadata

namespace Attempts

/-- Keys that all dialects of this family share. -/
def baseKeys : NameSet :=
  inheritedNames ["name"] []

def vocabulary : Vocabulary Attempts.Metadata :=
  { actionSpace := "host.actions"
    modifierSpace := "host.modifiers"
    metadataKeys := inheritedNames ["description"] [baseKeys]
    validateMetadata := fun metadata addr =>
      decodeConfig Attempts.Metadata.ofYaml "metadata" (.map metadata) addr }

def dialect : Dialect Attempts.Run Nat Attempts.Metadata :=
  { vocabulary with }

/-- One more attempt: a failure, or the number of attempts once there were enough. -/
def attempt (succeedOn : Nat) (run : Attempts.Run) : Except Failure Nat × Attempts.Run :=
  let attempts := run.attempts + 1
  let run := { run with attempts }.note ("attempt " ++ attempts.repr)
  if attempts < succeedOn then
    (.error (.ofMessage ("attempt " ++ attempts.repr ++ " failed")), run)
  else (.ok attempts, run)

def flaky (header : Header) (succeedOn : Nat) : Action Attempts.Run Nat :=
  { header
    call := fun _ run =>
      let (answer, run) := attempt succeedOn run
      .done answer run }

/-- The hints of `retry`: it is for lazy actions, and applied after `trace`. -/
def retryHints : Hints :=
  .declare [.restriction .lazyOnly, .after ["trace"]]

/-- Whether to try again after an outcome: only after a failure, which is noted. -/
def tryAgain (round : Nat) (outcome : Outcome Nat) (run : Attempts.Run) : Option Attempts.Run :=
  if outcome.isFailed then some (run.note ("retry " ++ round.repr ++ " failed")) else none

def retry (header : Header) (attempts : Nat) : Modifier Attempts.Run Nat :=
  { header
    hints := retryHints
    pre := fun call run =>
      match Routine.loopAfter? call header.name attempts tryAgain run with
      | some routine => routine
      | none =>
          .done (.error (.failure (.ofMessage "retry modifier is not part of its step"))) run }

/-- How an outcome is noted when a step is left. -/
def exitEvent : Outcome Nat → String
  | .value result => "exit with " ++ result.repr
  | .skipped => "exit skipped"
  | .failed failure => "exit failed: " ++ failure.message

def trace (header : Header) : Modifier Attempts.Run Nat :=
  { header
    pre := fun _ run => .done (.ok ()) (run.note "enter")
    post := fun _ outcome run => .done (.ok outcome) (run.note (exitEvent outcome)) }

def flakyType : ItemType (Action Attempts.Run Nat) where
  Config := Nat
  validate := fun name raw addr => do
    let succeedOn ← decodeConfig (Yaml.decodeOption (Yaml.decodeWord 32)) name raw addr
    .ok (succeedOn.getD 1)
  assemble := flaky

def retryType : ItemType (Modifier Attempts.Run Nat) where
  Config := Nat
  validate := decodeConfig (Yaml.decodeWord 32)
  assemble := retry

def traceType : ItemType (Modifier Attempts.Run Nat) where
  Config := Unit
  validate := fun _ _ _ => .ok ()
  assemble := fun header _ => trace header

/-- The items of this dialect under their names. -/
def registry : Registry Attempts.Run Nat :=
  (((Registry.empty
    |>.addAction vocabulary.actionSpace "flaky" flakyType.construct)
    |>.addModifier vocabulary.modifierSpace "retry" retryType.construct)
    |>.addModifier vocabulary.modifierSpace "trace" traceType.construct)

end Attempts

end StepChain
