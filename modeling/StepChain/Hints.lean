import StepChain.Name.Map

/-!
# Hints

A type of modifier declares which classes of actions it works with, which
modifiers it must be applied before or after, and which it requires or
prohibits. Types can extend others: name sets are joined, the restriction of
the type itself wins over what it inherits.
-/

namespace StepChain

/-- Whether an action runs later against a context, or while steps are parsed. -/
inductive ActionClass where
  | lazy
  | eager
  deriving DecidableEq, Repr

namespace ActionClass

def ofEager (eager : Bool) : ActionClass :=
  if eager then .eager else .lazy

def render : ActionClass → String
  | lazy => "lazy"
  | eager => "eager"

end ActionClass

/-- The classes of actions a modifier may be combined with. -/
structure Restriction where
  lazy : Bool
  eager : Bool
  deriving DecidableEq, Repr

namespace Restriction

def lazyOnly : Restriction := { lazy := true, eager := false }

def eagerOnly : Restriction := { lazy := false, eager := true }

def all : Restriction := { lazy := true, eager := true }

def allows (restriction : Restriction) : ActionClass → Bool
  | .lazy => restriction.lazy
  | .eager => restriction.eager

end Restriction

/-- The hints of a type of modifier. -/
structure Hints where
  restriction : Restriction := Restriction.all
  /-- Modifiers this one must be applied before. -/
  before : NameSet := NameSet.empty
  /-- Modifiers this one must be applied after. -/
  after : NameSet := NameSet.empty
  /-- Modifiers that must be present alongside this one. -/
  required : NameSet := NameSet.empty
  /-- Modifiers that must not be present alongside this one. -/
  prohibited : NameSet := NameSet.empty
  deriving DecidableEq

/-- One clause of the declaration of a type's hints. -/
inductive HintClause where
  | restriction (classes : Restriction)
  | before (names : List String)
  | after (names : List String)
  | required (names : List String)
  | prohibited (names : List String)
  /-- Inherit the hints of another type. -/
  | extending (parent : Hints)

/-- Hints being declared: what is inherited is kept apart from the restriction
the type declares itself. -/
structure HintDraft where
  own : Option Restriction := none
  inherited : Option Restriction := none
  names : Hints := {}

namespace HintDraft

/-- Take in one clause. The last restriction declared wins, as does the first
one inherited; names are only ever added. -/
def add (draft : HintDraft) : HintClause → HintDraft
  | .restriction classes => { draft with own := some classes }
  | .before added =>
      { draft with names := { draft.names with before := draft.names.before.insertMany added } }
  | .after added =>
      { draft with names := { draft.names with after := draft.names.after.insertMany added } }
  | .required added =>
      { draft with
        names := { draft.names with required := draft.names.required.insertMany added } }
  | .prohibited added =>
      { draft with
        names := { draft.names with prohibited := draft.names.prohibited.insertMany added } }
  | .extending parent =>
      { draft with
        inherited := draft.inherited <|> some parent.restriction
        names :=
          { draft.names with
            before := draft.names.before.union parent.before
            after := draft.names.after.union parent.after
            required := draft.names.required.union parent.required
            prohibited := draft.names.prohibited.union parent.prohibited } }

/-- The finished hints; without any restriction, all classes are allowed. -/
def finish (draft : HintDraft) : Hints :=
  { draft.names with restriction := (draft.own <|> draft.inherited).getD Restriction.all }

end HintDraft

/-- The hints that a declaration amounts to. -/
def Hints.declare (clauses : List HintClause) : Hints :=
  (clauses.foldl HintDraft.add {}).finish

end StepChain
