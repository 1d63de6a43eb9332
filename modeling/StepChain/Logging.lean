import StepChain.Settings

/-!
# Logging

What the settings say about the log, and the rule that a logger is installed
only once.
-/

namespace StepChain

/-- How messages are logged. -/
structure LogFormat where
  level : String
  /-- Whether a message shows the module it comes from. -/
  targets : Bool
  /-- Whether a message shows the line it comes from. -/
  lines : Bool
  deriving DecidableEq, Repr

/-- The format that the settings ask for. -/
def Settings.logFormat (settings : Settings) : LogFormat :=
  { level := settings.level
    targets := 2 ≤ settings.verbose
    lines := 3 ≤ settings.verbose }

/-- Install a logger, given the one that is installed already. -/
def installLogger (installed : Option LogFormat) (settings : Settings) :
    Except Failure LogFormat :=
  match installed with
  | none => .ok settings.logFormat
  | some _ =>
      .error (.ofMessage
        "Failed to initialize logging: a global default trace dispatcher has already been set")

end StepChain
