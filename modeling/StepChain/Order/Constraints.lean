import StepChain.Hints

/-!
# Ordering constraints

What the hints of the present modifiers say about their order: for every
present modifier the present modifiers it must precede. Hints that name absent
modifiers, or the modifier itself, say nothing.
-/

namespace StepChain

/-- The modifiers of a step with their hints. -/
abbrev HintMap := NameMap Hints

/-- For every present modifier, the modifiers it must precede. -/
abbrev Constraints := NameMap NameSet

namespace Constraints

/-- No constraints between the given modifiers. -/
def free (modifiers : HintMap) : Constraints :=
  modifiers.mapValues fun _ _ => NameSet.empty

/-- Add the constraint that `first` precedes `second`, if both are present and
are two modifiers. -/
def link (constraints : Constraints) (first second : String) : Constraints :=
  if constraints.contains first && constraints.contains second && first != second then
    constraints.adjust first (·.insert second)
  else constraints

/-- Add what one modifier's hints say, first about those after it, then about
those before it. -/
def addHints (constraints : Constraints) (name : String) (hints : Hints) : Constraints :=
  let forward := hints.before.toList.foldl (fun acc other => acc.link name other) constraints
  hints.after.toList.foldl (fun acc other => acc.link other name) forward

/-- The constraints that the hints of all present modifiers amount to. -/
def ofHints (modifiers : HintMap) : Constraints :=
  modifiers.entries.foldl (fun acc entry => acc.addHints entry.1 entry.2) (free modifiers)

/-- The modifiers that one must precede; none for an absent name. -/
def successors (constraints : Constraints) (name : String) : List String :=
  match constraints.get? name with
  | some names => names.toList
  | none => []

end Constraints

end StepChain
