import StepChain.Outcome
import StepChain.Step.Basic

/-!
# Records of calls

The context of scripted steps: what was called in which order, and what hooks
were told.
-/

namespace StepChain

/-- The two lists of names that a hook was told. -/
structure ToldNames where
  modifier : String
  first : List String
  second : List String
  deriving DecidableEq, Repr

/-- What was recorded. Each list is in the order of the calls. -/
structure Recorder where
  entries : List String := []
  /-- The outcomes that post-hooks received, by the name of the modifier. -/
  seen : List (String × String) := []
  /-- The applied and pending modifiers that pre-hooks were told. -/
  preLists : List ToldNames := []
  /-- The handled and remaining modifiers that post-hooks were told. -/
  postLists : List ToldNames := []
  /-- How often each planned action was called. -/
  turns : List (String × Nat) := []
  deriving DecidableEq, Repr

namespace Recorder

def record (log : Recorder) (entry : String) : Recorder :=
  { log with entries := log.entries ++ [entry] }

def recordSeen (log : Recorder) (name description : String) : Recorder :=
  { log with seen := log.seen ++ [(name, description)] }

def recordPre (log : Recorder) (name : String) (applied pending : List String) : Recorder :=
  { log with preLists := log.preLists ++ [⟨name, applied, pending⟩] }

def recordPost (log : Recorder) (name : String) (handled remaining : List String) : Recorder :=
  { log with postLists := log.postLists ++ [⟨name, handled, remaining⟩] }

/-- Forget what was recorded. The turns of actions go on. -/
def clear (log : Recorder) : Recorder :=
  { turns := log.turns }

/-- The number of calls of a planned action so far, and the record with one more. -/
def takeTurn (log : Recorder) (identity : String) : Nat × Recorder :=
  let turn := (log.turns.lookup identity).getD 0
  (turn, { log with turns := (identity, turn + 1) :: log.turns })

/-- The outcomes that the post-hooks of a modifier received. -/
def outcomesOf (log : Recorder) (name : String) : List String :=
  (log.seen.filter fun seen => seen.1 == name).map Prod.snd

/-- The names that the pre-hooks of a modifier were told as applied. -/
def appliedOf (log : Recorder) (name : String) : List (List String) :=
  (log.preLists.filter fun told => told.modifier == name).map ToldNames.first

/-- The names that the pre-hooks of a modifier were told as pending. -/
def pendingOf (log : Recorder) (name : String) : List (List String) :=
  (log.preLists.filter fun told => told.modifier == name).map ToldNames.second

/-- The names that the post-hooks of a modifier were told as handled and remaining. -/
def postNamesOf (log : Recorder) (name : String) : List (List String × List String) :=
  (log.postLists.filter fun told => told.modifier == name).map fun told =>
    (told.first, told.second)

end Recorder

/-- An outcome as it is recorded. -/
def Outcome.recorded : Outcome String → String
  | .value result => "value:" ++ result
  | .skipped => "skipped"
  | .failed failure => "failed:" ++ failure.message

/-- Names separated by commas. -/
def commaList (names : List String) : String :=
  String.intercalate "," names

end StepChain
