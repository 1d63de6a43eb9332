import StepChain.Hints
import StepChain.Problem

/-!
# Compatibility

Whether the modifiers of a step may be used with its action and with each
other. The modifiers are checked in ascending order and the first one at fault
is reported, for its restriction first, then for what it prohibits, then for
what it requires. A modifier counts as present for itself.
-/

namespace StepChain

/-- What is wrong with one modifier among the present ones. -/
def Hints.problem? (hints : Hints) (name action : String) (actionClass : ActionClass)
    (present : NameSet) : Option Problem :=
  if !hints.restriction.allows actionClass then
    some (.unsuitableModifier name action)
  else
    let prohibited := hints.prohibited.toList.filter (· ∈ present)
    let missing := hints.required.toList.filter (· ∉ present)
    if !prohibited.isEmpty then some (.clashingModifiers name prohibited)
    else if !missing.isEmpty then some (.missingModifiers name missing)
    else none

/-- The first problem with the modifiers of a step. -/
def compatibilityProblem? (action : String) (actionClass : ActionClass)
    (modifiers : NameMap Hints) : Option Problem :=
  modifiers.entries.findSome? fun entry =>
    entry.2.problem? entry.1 action actionClass modifiers.nameSet

/-- Accept the modifiers of a step, or report the first problem at its address. -/
def checkCompatibility (addr : Address) (action : String) (actionClass : ActionClass)
    (modifiers : NameMap Hints) : Except StepError Unit :=
  match compatibilityProblem? action actionClass modifiers with
  | some problem => .error (problem.foundAt addr)
  | none => .ok ()

end StepChain
