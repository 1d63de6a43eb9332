import StepChain.Order.Traversal

/-!
# Contradictory constraints

Constraints contradict each other when a chain of them leads from a modifier
back to itself. The modifiers that lead to each other form a component, and a
component of several modifiers is a cycle. Of all cycles the least is reported.
-/

namespace StepChain

/-- The nodes reached from a frontier through a pool, added to those found. -/
def Pool.collect (frontier : List String) (pool : Pool) (found : List String) : List String :=
  match frontier with
  | [] => found
  | node :: later =>
      match _hextract : pool.extract? node with
      | none => collect later pool found
      | some (successors, rest) => collect (successors ++ later) rest (node :: found)
termination_by pool.weight + frontier.length
decreasing_by
  · simp
  · have := Traversal.weight_extract? _hextract
    simp only [List.length_append, List.length_cons]
    omega

/-- The names that a name is not related to. -/
def unrelated (related : String → String → Bool) (name : String) (names : List String) :
    List String :=
  names.filter fun other => !related name other

/-- Group names with the names after them that they are related to. -/
def classes (related : String → String → Bool) : List String → List (List String)
  | [] => []
  | name :: later =>
      (name :: later.filter (related name)) :: classes related (unrelated related name later)
termination_by names => names.length
decreasing_by
  exact Nat.lt_succ_of_le (List.length_filter_le ..)

namespace Constraints

/-- The names that at least one constraint leads to from a name. -/
def reach (constraints : Constraints) (name : String) : List String :=
  Pool.collect (constraints.successors name) (Pool.ofConstraints constraints) []

/-- What is reached from each name. -/
def reachTable (constraints : Constraints) : NameMap (List String) :=
  constraints.mapValues fun name _ => constraints.reach name

/-- The strongly connected components. -/
def components (constraints : Constraints) : List (List String) :=
  let table := constraints.reachTable
  let leads := fun first second => ((table.get? first).getD []).contains second
  classes (fun first second => leads first second && leads second first) constraints.names

end Constraints

/-- A way to list the strongly connected components of constraints. -/
abbrev ComponentLister := Constraints → List (List String)

/-- The cycles among some components, each ascending. No modifier constrains
itself, so these are the components of more than one. -/
def cyclesAmong (components : List (List String)) : List (List String) :=
  (components.filter fun names => 1 < names.length).map fun names => names.mergeSort (· ≤ ·)

/-- The least of several lists of names. -/
def leastNames? : List (List String) → Option (List String)
  | [] => none
  | first :: rest =>
      some (rest.foldl (fun least names => if names < least then names else least) first)

/-- The modifiers whose hints contradict each other, the first such group. The
components may be listed in any order. -/
def contradictionBy? (list : ComponentLister) (modifiers : HintMap) : Option (List String) :=
  leastNames? (cyclesAmong (list (Constraints.ofHints modifiers)))

def contradiction? (modifiers : HintMap) : Option (List String) :=
  contradictionBy? Constraints.components modifiers

/-- What becomes of contradictory constraints. -/
inductive CyclePolicy where
  /-- They are resolved by the order of the traversal. -/
  | lenient
  /-- They are reported. -/
  | strict
  deriving DecidableEq, Repr

namespace CyclePolicy

def render : CyclePolicy → String
  | lenient => "lenient"
  | strict => "strict"

/-- The policies by name. -/
def named : List (String × CyclePolicy) :=
  [(lenient.render, lenient), (strict.render, strict)]

/-- Order modifiers under a policy; the error is a cycle. -/
def orderBy (list : ComponentLister) (policy : CyclePolicy) (modifiers : HintMap) :
    Except (List String) (List String) :=
  match policy with
  | lenient => .ok (applicationOrder modifiers)
  | strict =>
      match contradictionBy? list modifiers with
      | some names => .error names
      | none => .ok (applicationOrder modifiers)

def order (policy : CyclePolicy) (modifiers : HintMap) : Except (List String) (List String) :=
  policy.orderBy Constraints.components modifiers

end CyclePolicy

end StepChain
