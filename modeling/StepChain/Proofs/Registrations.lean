import StepChain.Registry
import Mathlib.Data.List.Induction

/-!
# Registries filled entry by entry

A registry is filled by registrations of actions and of modifiers, in any order and under any
namespaces. What it then finds under a namespace and a name is what was registered last under
just these, as the kind of item that is looked up.
-/

namespace StepChain

variable {ι σ α : Type}

/-! ## One table -/

/-- A factory and what it is registered under. -/
structure Registered (ι : Type) where
  space : String
  name : String
  factory : Factory ι

def Registered.Under (entry : Registered ι) (space name : String) : Prop :=
  entry.space = space ∧ entry.name = name

instance (entry : Registered ι) (space name : String) : Decidable (entry.Under space name) :=
  inferInstanceAs (Decidable (_ ∧ _))

/-- A factory is registered under a namespace and a name, and no later one is. -/
def RegisteredLast (entries : List (Registered ι)) (space name : String) (factory : Factory ι) :
    Prop :=
  ∃ earlier later, entries = earlier ++ ⟨space, name, factory⟩ :: later ∧
    ∀ entry ∈ later, ¬ entry.Under space name

def Unregistered (entries : List (Registered ι)) (space name : String) : Prop :=
  ∀ entry ∈ entries, ¬ entry.Under space name

theorem registeredLast_concat_iff {front : List (Registered ι)} {last : Registered ι}
    {space name : String} {factory : Factory ι} :
    RegisteredLast (front ++ [last]) space name factory ↔
      last = ⟨space, name, factory⟩ ∨
        ¬ last.Under space name ∧ RegisteredLast front space name factory := by
  constructor
  · rintro ⟨earlier, later, hsplit, hlater⟩
    cases later using List.reverseRecOn with
    | nil => exact .inl (List.singleton_inj.mp (List.append_inj_right' hsplit rfl))
    | append_singleton middle final =>
        rw [← List.cons_append, ← List.append_assoc] at hsplit
        obtain rfl : last = final := List.singleton_inj.mp (List.append_inj_right' hsplit rfl)
        have hfront : front = earlier ++ ⟨space, name, factory⟩ :: middle :=
          List.append_inj_left' hsplit rfl
        exact .inr ⟨hlater last (by simp), earlier, middle, hfront,
          fun entry hentry => hlater entry (List.mem_append_left _ hentry)⟩
  · rintro (rfl | ⟨hother, earlier, later, rfl, hlater⟩)
    · exact ⟨front, [], rfl, by simp⟩
    · refine ⟨earlier, later ++ [last], by simp, ?_⟩
      intro entry hentry
      rcases List.mem_append.mp hentry with hentry | hentry
      · exact hlater entry hentry
      · rwa [List.mem_singleton.mp hentry]

namespace FactoryTable

def ofEntries (entries : List (Registered ι)) : FactoryTable ι :=
  entries.foldl (fun table entry => table.register entry.space entry.name entry.factory) .empty

variable {entries : List (Registered ι)} {kind : ItemKind} {space name : String}

theorem ofEntries_concat (front : List (Registered ι)) (last : Registered ι) :
    ofEntries (front ++ [last]) =
      (ofEntries front).register last.space last.name last.factory := by
  simp [ofEntries]

theorem resolve_ofEntries_concat (front : List (Registered ι)) (last : Registered ι) :
    (ofEntries (front ++ [last])).resolve kind space name =
      if last.Under space name then .ok last.factory
      else (ofEntries front).resolve kind space name := by
  rw [ofEntries_concat, resolve_register]
  unfold Registered.Under
  simp only [eq_comm]

theorem resolve_ofEntries_eq_ok_iff {factory : Factory ι} :
    (ofEntries entries).resolve kind space name = .ok factory ↔
      RegisteredLast entries space name factory := by
  induction entries using List.reverseRecOn with
  | nil => simp [ofEntries, resolve, FactoryTable.space, RegisteredLast]
  | append_singleton front last ih =>
      rw [resolve_ofEntries_concat, registeredLast_concat_iff, ← ih]
      by_cases hunder : last.Under space name
      · obtain ⟨rfl, rfl⟩ := hunder
        cases last
        simp [Registered.Under]
      · have hother : last ≠ ⟨space, name, factory⟩ := by
          rintro rfl
          exact hunder ⟨rfl, rfl⟩
        simp [hunder, hother]

theorem resolve_ofEntries_eq_error_iff {missing : NotFound} :
    (ofEntries entries).resolve kind space name = .error missing ↔
      Unregistered entries space name ∧ missing = { kind, space, name } := by
  induction entries using List.reverseRecOn with
  | nil => simp [ofEntries, resolve, FactoryTable.space, Unregistered, eq_comm]
  | append_singleton front last ih =>
      rw [resolve_ofEntries_concat]
      by_cases hunder : last.Under space name
      · have hregistered : ¬ Unregistered (front ++ [last]) space name :=
          fun hnone => hnone last (by simp) hunder
        simp [hunder, hregistered]
      · rw [if_neg hunder, ih]
        simp [Unregistered, or_imp, forall_and, hunder]

theorem mem_names_iff_resolve {table : FactoryTable ι} :
    name ∈ (FactoryTable.space table space).names ↔
      ∃ factory, table.resolve kind space name = .ok factory := by
  rw [NameMap.mem_names_iff_get?]
  unfold resolve
  cases (FactoryTable.space table space).get? name <;> simp

end FactoryTable

/-! ## Both tables -/

inductive Registration (σ α : Type) where
  | action (entry : Registered (Action σ α))
  | modifier (entry : Registered (Modifier σ α))

namespace Registration

def action? : Registration σ α → Option (Registered (Action σ α))
  | action entry => some entry
  | modifier _ => none

def modifier? : Registration σ α → Option (Registered (Modifier σ α))
  | action _ => none
  | modifier entry => some entry

end Registration

namespace Registry

def add (registry : Registry σ α) : Registration σ α → Registry σ α
  | .action entry => registry.addAction entry.space entry.name entry.factory
  | .modifier entry => registry.addModifier entry.space entry.name entry.factory

def ofRegistrations (registrations : List (Registration σ α)) : Registry σ α :=
  registrations.foldl add empty

theorem ofRegistrations_concat (front : List (Registration σ α)) (last : Registration σ α) :
    ofRegistrations (front ++ [last]) = (ofRegistrations front).add last := by
  simp [ofRegistrations]

theorem tables_ofRegistrations (registrations : List (Registration σ α)) :
    (ofRegistrations registrations).actions =
        .ofEntries (registrations.filterMap Registration.action?) ∧
      (ofRegistrations registrations).modifiers =
        .ofEntries (registrations.filterMap Registration.modifier?) := by
  induction registrations using List.reverseRecOn with
  | nil => exact ⟨rfl, rfl⟩
  | append_singleton front last ih =>
      obtain ⟨hactions, hmodifiers⟩ := ih
      rw [ofRegistrations_concat, List.filterMap_append, List.filterMap_append]
      cases last with
      | action entry =>
          constructor
          · show (ofRegistrations front).actions.register _ _ _ = .ofEntries (_ ++ [entry])
            rw [hactions, FactoryTable.ofEntries_concat]
          · show (ofRegistrations front).modifiers = .ofEntries (_ ++ [])
            rw [hmodifiers, List.append_nil]
      | modifier entry =>
          constructor
          · show (ofRegistrations front).actions = .ofEntries (_ ++ [])
            rw [hactions, List.append_nil]
          · show (ofRegistrations front).modifiers.register _ _ _ = .ofEntries (_ ++ [entry])
            rw [hmodifiers, FactoryTable.ofEntries_concat]

/-- A lookup finds what was registered last under its namespace and name, among the
registrations of its own kind, and else tells what it looked for. The names of a namespace
ascend and are those that are found there. -/
theorem ofRegistrations_finds_last (registrations : List (Registration σ α)) (space : String) :
    let registry := ofRegistrations registrations
    let actions := registrations.filterMap Registration.action?
    let modifiers := registrations.filterMap Registration.modifier?
    (∀ name,
        (∀ factory, registry.findAction space name = .ok factory ↔
            RegisteredLast actions space name factory) ∧
          (∀ missing, registry.findAction space name = .error missing ↔
            Unregistered actions space name ∧ missing = { kind := .action, space, name }) ∧
          (∀ factory, registry.findModifier space name = .ok factory ↔
            RegisteredLast modifiers space name factory) ∧
          ∀ missing, registry.findModifier space name = .error missing ↔
            Unregistered modifiers space name ∧ missing = { kind := .modifier, space, name }) ∧
      (registry.actionNames space).Pairwise (· < ·) ∧
      (∀ name, name ∈ registry.actionNames space ↔
        ∃ factory, registry.findAction space name = .ok factory) ∧
      (registry.modifierNames space).Pairwise (· < ·) ∧
      ∀ name, name ∈ registry.modifierNames space ↔
        ∃ factory, registry.findModifier space name = .ok factory := by
  intro registry actions modifiers
  obtain ⟨hactions, hmodifiers⟩ := tables_ofRegistrations registrations
  refine ⟨fun name => ?_, NameMap.names_ascending _, fun name => ?_,
    NameMap.names_ascending _, fun name => ?_⟩
  · unfold findAction findModifier
    rw [show registry.actions = .ofEntries actions from hactions,
      show registry.modifiers = .ofEntries modifiers from hmodifiers]
    exact ⟨fun _ => FactoryTable.resolve_ofEntries_eq_ok_iff,
      fun _ => FactoryTable.resolve_ofEntries_eq_error_iff,
      fun _ => FactoryTable.resolve_ofEntries_eq_ok_iff,
      fun _ => FactoryTable.resolve_ofEntries_eq_error_iff⟩
  · exact FactoryTable.mem_names_iff_resolve
  · exact FactoryTable.mem_names_iff_resolve

end Registry

end StepChain
