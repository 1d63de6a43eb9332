import StepChain.Address

/-!
# Problems in a step's configuration

Everything that can be wrong with a description is a `Problem`, with a code and
a wording. A `StepError` is a problem as it is reported: with the place it was
found at and the messages of what caused it. Hosts may report problems of their
own under any code.
-/

namespace StepChain

/-- Identifies a kind of problem: 1000 to 1999 descriptions, 2000 to 2999
modifiers, 3000 to 3999 registries. -/
abbrev ErrorCode := Nat

namespace ErrorCode

def genericStep : ErrorCode := 1000
def malformedDescription : ErrorCode := 1001
def unknownKey : ErrorCode := 1002
def secondAction : ErrorCode := 1003
def missingAction : ErrorCode := 1004
def invalidValue : ErrorCode := 1005
def invalidMetadata : ErrorCode := 1006
def genericModifier : ErrorCode := 2000
def unsuitableModifier : ErrorCode := 2001
def clashingModifier : ErrorCode := 2002
def missingModifier : ErrorCode := 2003
def contradictoryOrder : ErrorCode := 2004
def genericRegistry : ErrorCode := 3000
def sharedNamespace : ErrorCode := 3001

/-- What a code stands for, in one line. -/
def summary : ErrorCode → String
  | 1000 => "Generic step configuration error"
  | 1001 => "Step description is neither a name nor a mapping"
  | 1002 => "Unknown action or modifier"
  | 1003 => "More than one action specified in a step"
  | 1004 => "No action specified in a step"
  | 1005 => "Invalid action or modifier configuration"
  | 1006 => "Invalid step metadata"
  | 2000 => "Generic modifier error"
  | 2001 => "Modifier cannot be used with the action"
  | 2002 => "Modifier used together with a prohibited modifier"
  | 2003 => "Modifier used without a required modifier"
  | 2004 => "Modifier ordering hints form a cycle"
  | 3000 => "Generic registry error"
  | 3001 => "Action and modifier namespaces must be distinct"
  | _ => "Unknown error code"

end ErrorCode

/-- A name between double quotes, as messages show it. -/
def quoteName (name : String) : String :=
  "\"" ++ name ++ "\""

/-- Names between double quotes, separated by commas. -/
def quoteNames (names : List String) : String :=
  String.intercalate ", " (names.map quoteName)

/-- What can be wrong with a step or with the tables it is looked up in. -/
inductive Problem where
  /-- A description that is neither a name nor a mapping. -/
  | malformedDescription (found : String)
  /-- A list of descriptions that is no sequence. -/
  | malformedList (found : String)
  /-- A key that is neither metadata nor a known action or modifier. -/
  | unknownKey (key : String)
  /-- A second action, after `existing`. -/
  | secondAction (name existing : String)
  | missingAction
  /-- A modifier that does not work with the action's class. -/
  | unsuitableModifier (modifier action : String)
  | clashingModifiers (modifier : String) (names : List String)
  | missingModifiers (modifier : String) (names : List String)
  /-- Modifiers whose ordering hints contradict each other. -/
  | contradictoryOrder (names : List String)
  /-- One namespace used for both actions and modifiers. -/
  | sharedNamespace (shared : String)
  /-- A configuration that does not decode. -/
  | invalidConfiguration (item reason : String)
  /-- An eager action whose value cannot be expanded into steps. -/
  | notExpandable
  deriving DecidableEq, Repr

namespace Problem

def code : Problem → ErrorCode
  | malformedDescription _ => ErrorCode.malformedDescription
  | malformedList _ => ErrorCode.malformedDescription
  | unknownKey _ => ErrorCode.unknownKey
  | secondAction _ _ => ErrorCode.secondAction
  | missingAction => ErrorCode.missingAction
  | unsuitableModifier _ _ => ErrorCode.unsuitableModifier
  | clashingModifiers _ _ => ErrorCode.clashingModifier
  | missingModifiers _ _ => ErrorCode.missingModifier
  | contradictoryOrder _ => ErrorCode.contradictoryOrder
  | sharedNamespace _ => ErrorCode.sharedNamespace
  | invalidConfiguration _ _ => ErrorCode.invalidValue
  | notExpandable => ErrorCode.invalidValue

def message : Problem → String
  | malformedDescription found => "Step must be an action name or a mapping, found " ++ found
  | malformedList found => "Step list must be a sequence, found " ++ found
  | unknownKey key => "Unknown action or modifier " ++ quoteName key
  | secondAction name existing =>
      "Multiple actions " ++ quoteName name ++ " and " ++ quoteName existing ++
        " specified in step"
  | missingAction => "No action specified"
  | unsuitableModifier modifier action =>
      "Modifier " ++ quoteName modifier ++ " is incompatible with action " ++ quoteName action
  | clashingModifiers modifier names =>
      "Modifier " ++ quoteName modifier ++ " cannot be used with modifier(s): " ++ quoteNames names
  | missingModifiers modifier names =>
      "Modifier " ++ quoteName modifier ++ " requires the use of modifier(s): " ++ quoteNames names
  | contradictoryOrder names => "Modifier ordering cycle among: " ++ quoteNames names
  | sharedNamespace shared =>
      "Action and modifier namespaces must be distinct, both are " ++ quoteName shared
  | invalidConfiguration item reason =>
      "Invalid configuration for " ++ quoteName item ++ ": " ++ reason
  | notExpandable => "Eager action did not produce a list of steps"

end Problem

/-- A reported problem. -/
structure StepError where
  code : ErrorCode
  message : String
  address : Option Address
  /-- Messages of the cause, of its cause and so on. -/
  causes : List String
  deriving DecidableEq, Repr

namespace StepError

/-- An error under a given code; without further knowledge the generic one. -/
def report (message : String) (address : Option Address)
    (code : ErrorCode := ErrorCode.genericStep) : StepError :=
  { code, message, address, causes := [] }

/-- An error found at an address. -/
def reportAt (addr : Address) (code : ErrorCode) (message : String) : StepError :=
  report message (some addr) code

/-- Name what caused the error, in place of any earlier cause. -/
def causedBy (error : StepError) (causes : List String) : StepError :=
  { error with causes }

/-- Add context after the message. -/
def annotate (error : StepError) (context : String) : StepError :=
  { error with message := error.message ++ ": " ++ context }

/-- A number with at least four digits. -/
def padCode (code : ErrorCode) : String :=
  let digits := code.repr
  String.ofList (List.replicate (4 - digits.length) '0') ++ digits

/-- Code, message and, where known, the address. -/
def render (error : StepError) : String :=
  "[E" ++ padCode error.code ++ "] " ++ error.message ++
    match error.address with
    | some addr => " (" ++ addr.render ++ ")"
    | none => ""

/-- The message for users: without the code, the address first. -/
def forUsers (error : StepError) : String :=
  match error.address with
  | some addr => "Step configuration problem at " ++ addr.render ++ ": " ++ error.message
  | none => "Step configuration problem: " ++ error.message

/-- The message for developers: the rendered error, a line for every cause below it. -/
def forDevelopers (error : StepError) : String :=
  error.render ++ String.join (error.causes.map fun cause => "\n  caused by: " ++ cause)

/-- Report any failure as an invalid value at an address. -/
def invalidAt (addr : Address) (message : String) (causes : List String) : StepError :=
  (reportAt addr ErrorCode.invalidValue message).causedBy causes

end StepError

/-- A problem reported at an address. -/
def Problem.foundAt (problem : Problem) (addr : Address) : StepError :=
  StepError.reportAt addr problem.code problem.message

/-- A problem that has no place. -/
def Problem.anywhere (problem : Problem) : StepError :=
  StepError.report problem.message none problem.code

end StepChain
