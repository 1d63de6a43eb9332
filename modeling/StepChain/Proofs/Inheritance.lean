import StepChain.Hints
import Mathlib.Data.Fin.Tuple.Basic
import Mathlib.Logic.Relation
import Mathlib.Order.WellFounded

/-!
# Inherited hints

Types of modifiers are declared one after the other, and each may extend any types before
it. Whatever the order of the calls that declare them, a type has the names that it or one
of its ancestors declares and no others. Its restriction is its own last one; without any
it is that of the first type it extends.
-/

namespace StepChain

open Relation

/-! ## One declaration -/

/-- What a hint says about the modifiers it names. -/
inductive HintKind where
  | before
  | after
  | required
  | prohibited
  deriving DecidableEq

def Hints.namesOf (hints : Hints) : HintKind → NameSet
  | .before => hints.before
  | .after => hints.after
  | .required => hints.required
  | .prohibited => hints.prohibited

namespace HintClause

/-- The names that a clause adds to the hints of one kind. -/
def given : HintClause → HintKind → List String
  | .before added, .before => added
  | .after added, .after => added
  | .required added, .required => added
  | .prohibited added, .prohibited => added
  | .extending parent, kind => (parent.namesOf kind).toList
  | _, _ => []

end HintClause

namespace HintDraft

variable {draft : HintDraft} {clause : HintClause} {clauses : List HintClause} {kind : HintKind}
  {name : String}

end HintDraft

/-- One call in the declaration of a type that may extend some earlier ones. -/
inductive TypeCall (earlier : Nat) where
  | restriction (classes : Restriction)
  | names (kind : HintKind) (added : List String)
  | extending (parent : Fin earlier)

namespace TypeCall

variable {earlier : Nat}

/-- The clause that a call amounts to when the earlier types have been built. -/
def clause (built : Fin earlier → Hints) : TypeCall earlier → HintClause
  | .restriction classes => .restriction classes
  | .names .before added => .before added
  | .names .after added => .after added
  | .names .required added => .required added
  | .names .prohibited added => .prohibited added
  | .extending parent => .extending (built parent)

def parent? : TypeCall earlier → Option (Fin earlier)
  | .extending parent => some parent
  | _ => none

end TypeCall

/-- Types in the order they are declared, each by the calls that build it. -/
abbrev TypeFamily (count : Nat) : Type :=
  (place : Fin count) → List (TypeCall place)

namespace TypeFamily

variable {count : Nat}

def earlier (family : TypeFamily (count + 1)) : TypeFamily count :=
  fun place => family place.castSucc

/-- The types with one more that is declared after them. -/
def add (family : TypeFamily count) (calls : List (TypeCall count)) : TypeFamily (count + 1) :=
  Fin.snoc family calls

/-- Build the types one after the other. -/
def build : {count : Nat} → TypeFamily count → Vector Hints count
  | 0, _ => #v[]
  | count + 1, family =>
      let built := build family.earlier
      let clauses := (family (Fin.last count)).map (TypeCall.clause fun parent => built[parent])
      built.push (.declare clauses)

def parents (family : TypeFamily count) (place : Fin count) : List (Fin count) :=
  ((family place).filterMap TypeCall.parent?).map (Fin.castLE place.isLt.le)

def Extends (family : TypeFamily count) (child parent : Fin count) : Prop :=
  parent ∈ family.parents child

end TypeFamily

end StepChain
