import StepChain.Item
import StepChain.Name.Map

/-!
# Registries

Descriptions name actions and modifiers; a resolver knows the factories behind
the names. A registry is a resolver that is filled entry by entry. Actions and
modifiers are kept apart, as are the names of different namespaces.
-/

namespace StepChain

/-- What a name is looked up as. -/
inductive ItemKind where
  | action
  | modifier
  deriving DecidableEq, Repr

def ItemKind.render : ItemKind → String
  | action => "action"
  | modifier => "modifier"

/-- A name that nothing is registered under. -/
structure NotFound where
  kind : ItemKind
  space : String
  name : String
  deriving DecidableEq, Repr

def NotFound.message (missing : NotFound) : String :=
  "No " ++ missing.kind.render ++ " named " ++ quoteName missing.name ++ " in namespace " ++
    quoteName missing.space

/-- Looks up factories by namespace and name. -/
structure Resolver (σ α : Type) where
  action : (space name : String) → Except NotFound (Factory (Action σ α))
  modifier : (space name : String) → Except NotFound (Factory (Modifier σ α))

/-- Factories by namespace, then by name. -/
abbrev FactoryTable (ι : Type) := NameMap (NameMap (Factory ι))

namespace FactoryTable

variable {ι : Type}

/-- The factories of a namespace. -/
def space (table : FactoryTable ι) (space : String) : NameMap (Factory ι) :=
  (table.get? space).getD .empty

/-- Register a factory; an earlier one under the same name is replaced. -/
def register (table : FactoryTable ι) (space name : String) (factory : Factory ι) :
    FactoryTable ι :=
  table.insert space ((FactoryTable.space table space).insert name factory)

/-- The factory that is registered under a name. -/
def resolve (table : FactoryTable ι) (kind : ItemKind) (space name : String) :
    Except NotFound (Factory ι) :=
  match (FactoryTable.space table space).get? name with
  | some factory => .ok factory
  | none => .error { kind, space, name }

theorem space_register (table : FactoryTable ι) (registered other name : String)
    (factory : Factory ι) :
    FactoryTable.space (table.register registered name factory) other =
      if other = registered then (FactoryTable.space table other).insert name factory
      else FactoryTable.space table other := by
  unfold FactoryTable.space register
  rw [NameMap.get?_insert]
  by_cases heq : other = registered
  · rw [if_pos heq, if_pos heq, heq]
    rfl
  · rw [if_neg heq, if_neg heq]

/-- A factory is found under just the namespace and the name it is registered under. -/
theorem resolve_register (table : FactoryTable ι) (kind : ItemKind)
    (registered other name wanted : String) (factory : Factory ι) :
    (table.register registered name factory).resolve kind other wanted =
      if other = registered ∧ wanted = name then .ok factory
      else table.resolve kind other wanted := by
  unfold resolve
  rw [space_register]
  by_cases hspace : other = registered
  · rw [if_pos hspace, NameMap.get?_insert]
    by_cases hname : wanted = name <;> simp [hspace, hname]
  · simp [hspace]

end FactoryTable

/-- The factories of actions and of modifiers. -/
structure Registry (σ α : Type) where
  actions : FactoryTable (Action σ α) := .empty
  modifiers : FactoryTable (Modifier σ α) := .empty

namespace Registry

variable {σ α : Type}

def empty : Registry σ α := {}

def addAction (registry : Registry σ α) (space name : String)
    (factory : Factory (Action σ α)) : Registry σ α :=
  { registry with actions := registry.actions.register space name factory }

def addModifier (registry : Registry σ α) (space name : String)
    (factory : Factory (Modifier σ α)) : Registry σ α :=
  { registry with modifiers := registry.modifiers.register space name factory }

def findAction (registry : Registry σ α) (space name : String) :
    Except NotFound (Factory (Action σ α)) :=
  registry.actions.resolve .action space name

def findModifier (registry : Registry σ α) (space name : String) :
    Except NotFound (Factory (Modifier σ α)) :=
  registry.modifiers.resolve .modifier space name

/-- The names of the actions in a namespace, ascending. -/
def actionNames (registry : Registry σ α) (space : String) : List String :=
  (FactoryTable.space registry.actions space).names

/-- The names of the modifiers in a namespace, ascending. -/
def modifierNames (registry : Registry σ α) (space : String) : List String :=
  (FactoryTable.space registry.modifiers space).names

def resolver (registry : Registry σ α) : Resolver σ α :=
  { action := registry.findAction, modifier := registry.findModifier }

@[simp] theorem findAction_addAction (registry : Registry σ α) (registered key space name : String)
    (factory : Factory (Action σ α)) :
    (registry.addAction registered key factory).findAction space name =
      if space = registered ∧ name = key then .ok factory else registry.findAction space name :=
  FactoryTable.resolve_register ..

@[simp] theorem findAction_addModifier (registry : Registry σ α)
    (registered key space name : String) (factory : Factory (Modifier σ α)) :
    (registry.addModifier registered key factory).findAction space name =
      registry.findAction space name := rfl

@[simp] theorem findModifier_addModifier (registry : Registry σ α)
    (registered key space name : String) (factory : Factory (Modifier σ α)) :
    (registry.addModifier registered key factory).findModifier space name =
      if space = registered ∧ name = key then .ok factory else registry.findModifier space name :=
  FactoryTable.resolve_register ..

@[simp] theorem findModifier_addAction (registry : Registry σ α)
    (registered key space name : String) (factory : Factory (Action σ α)) :
    (registry.addAction registered key factory).findModifier space name =
      registry.findModifier space name := rfl

end Registry

end StepChain
