import StepChain.Item
import StepChain.Scripted.Recorder
import StepChain.Text.Uppercase
import StepChain.Yaml.Printer

/-!
# Built-in items

Two actions and two modifiers over texts. `echo` returns its configuration,
`include` is eager and returns the descriptions it is configured with as a
document, `upper` makes the value upper-case, and `skip` skips the step.
-/

namespace StepChain.Builtin

/-- Report a configuration that an item does not take. -/
def invalidValue {α : Type} (addr : Address) (message : String) : Except StepError α :=
  .error (StepError.reportAt addr ErrorCode.invalidValue message)

def echoType : ItemType (Action Recorder String) where
  Config := String
  validate := fun name raw addr => do
    let text ← decodeConfig (Yaml.decodeOption Yaml.decodeText) name raw addr
    .ok (text.getD "")
  assemble := fun header text => { header, call := fun _ log => .done (.ok text) log }

/-- The document that an `include` step returns. -/
def includedText (steps : Yaml) : Except Failure String :=
  match steps.toText with
  | .ok text => .ok text
  | .error _ =>
      .error ((Failure.ofRoot .external).withContext "Failed to serialize included steps")

def includeType : ItemType (Action Recorder String) where
  Config := Yaml
  validate := fun _ raw addr =>
    if raw.items?.isSome then .ok raw else invalidValue addr "Included steps must be a list"
  assemble := fun header steps =>
    { header, eager := true, call := fun _ log => .done (includedText steps) log }

def upperType : ItemType (Modifier Recorder String) where
  Config := Unit
  validate := fun name raw addr =>
    if raw.isNull || raw.bool? == some true then .ok ()
    else invalidValue addr (quoteName name ++ " takes no configuration")
  assemble := fun header _ =>
    { header
      hints := .declare [.restriction .lazyOnly]
      post := fun _ outcome log => .done (.ok (outcome.map Text.uppercase)) log }

def skipType : ItemType (Modifier Recorder String) where
  Config := Bool
  validate := decodeConfig Yaml.decodeBool
  assemble := fun header skips =>
    { header
      pre := fun _ log => .done (if skips then .error .skip else .ok ()) log }

end StepChain.Builtin
