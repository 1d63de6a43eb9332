import StepChain.Step.Basic
import StepChain.Text.Quoted

/-!
# Steps in logs

The one-line text that logs show for a step: the names of its action and
modifiers and its address, all quoted.
-/

namespace StepChain

/-- Quoted texts between brackets. -/
def quoteList (texts : List String) : String :=
  "[" ++ String.intercalate ", " (texts.map Text.quote) ++ "]"

/-- The text of a step in a log. -/
def Step.describe {σ α μ : Type} (step : Step σ α μ) : String :=
  "Step \x7b action: " ++ Text.quote step.action.name ++ ", modifiers: " ++
    quoteList (modifierNames step.modifiers) ++ ", address: " ++
    Text.quote step.address.render ++ " \x7d"

/-- The text of a failure in a log. -/
def Failure.describe (failure : Failure) : String :=
  "ExceptionalResult \x7b error: " ++ failure.render ++ " \x7d"

end StepChain
