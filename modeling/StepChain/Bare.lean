import StepChain.Reader

/-!
# The bare dialect

A dialect that leaves everything to the defaults: it has no metadata, its eager
steps cannot be expanded, and its modifier does nothing. The context is the list
of the actions that were called.
-/

namespace StepChain.Bare

/-- The number of metadata entries, which is all there is to them. -/
def vocabulary : Vocabulary Nat :=
  { actionSpace := "bare.actions"
    modifierSpace := "bare.modifiers"
    validateMetadata := fun metadata _ => .ok metadata.length }

def dialect : Dialect (List String) String Nat :=
  { vocabulary with }

/-- What a call gives: a fixed value, or a failure with the configured message. -/
def answer (addr : Address) (message : Option String) : Except Failure String :=
  match message with
  | none => .ok "x"
  | some message =>
      .error (.ofStepError (StepError.reportAt addr ErrorCode.genericStep message))

/-- The message that a configuration holds: a string without a tag. -/
def message? : Yaml → Option String
  | .str message => some message
  | _ => none

/-- An action that notes its call. -/
def actionType (eager : Bool) : ItemType (Action (List String) String) where
  Config := Option String
  validate := fun _ raw _ => .ok (message? raw)
  assemble := fun header message =>
    { header
      eager
      call := fun _ calls =>
        .done (answer header.address message) (calls ++ [header.name]) }

def noopType : ItemType (Modifier (List String) String) where
  Config := Unit
  validate := fun _ _ _ => .ok ()
  assemble := fun header _ => { header }

/-- The items of this dialect under their names. -/
def registry : Registry (List String) String :=
  (((Registry.empty
    |>.addAction vocabulary.actionSpace "lazy" (actionType false).construct)
    |>.addAction vocabulary.actionSpace "eager" (actionType true).construct)
    |>.addModifier vocabulary.modifierSpace "noop" noopType.construct)

end StepChain.Bare
