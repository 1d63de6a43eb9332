import StepChain.Description
import StepChain.Proofs.Compatibility
import StepChain.Proofs.Order.Acyclic

/-!
# Putting a step together

The checks that follow the entries come one after the other: compatibility, then the
order under the strict policy, then the metadata. A step is put together exactly when
all of them pass.
-/

namespace StepChain

open Relation

variable {σ α μ : Type}

def hintsOf (modifiers : NameMap (Modifier σ α)) : HintMap :=
  modifiers.mapValues fun _ modifier => modifier.hints

theorem hintsOf_mapValues {τ : Type} {change : Modifier σ α → Modifier τ α}
    (hhints : ∀ modifier, (change modifier).hints = modifier.hints)
    (modifiers : NameMap (Modifier σ α)) :
    hintsOf (modifiers.mapValues fun _ modifier => change modifier) = hintsOf modifiers := by
  simp [hintsOf, NameMap.mapValues, Function.comp_def, hhints]

theorem filterMap_get?_mapValues {ι κ : Type} (order : List String) (map : NameMap ι)
    (change : ι → κ) :
    order.filterMap (map.mapValues fun _ value => change value).get? =
      (order.filterMap map.get?).map change := by
  rw [List.map_filterMap]
  exact List.filterMap_congr fun name _ => NameMap.get?_mapValues map _ name

/-- A policy finds an order for hints: the strict one, when they do not lead in a circle. -/
def CyclePolicy.Accepts (policy : CyclePolicy) (modifiers : HintMap) : Prop :=
  policy = .strict → ∀ name, ¬ TransGen (Precedes modifiers) name name

theorem CyclePolicy.accepts_empty (policy : CyclePolicy) : policy.Accepts .empty := by
  intro _ name hcycle
  obtain ⟨other, hfirst, -⟩ := TransGen.head'_iff.mp hcycle
  exact absurd hfirst.first_mem List.not_mem_nil

namespace Vocabulary

variable {vocabulary : Vocabulary μ} {policy : CyclePolicy} {addr : Address}
  {action : Action σ α} {modifiers : NameMap (Modifier σ α)} {metadata : YamlMapping}
  {step : Step σ α μ} {error : StepError}

theorem step_eq_ok_iff {ordered : List (Modifier σ α)} :
    vocabulary.step action addr ordered metadata = .ok step ↔
      ∃ accepted, vocabulary.validateMetadata metadata addr = .ok accepted ∧
        step = { action, modifiers := ordered, metadata := accepted, address := addr } := by
  unfold Vocabulary.step
  cases vocabulary.validateMetadata metadata addr <;> simp [bind, Except.bind, eq_comm]

theorem step_eq_error_iff {ordered : List (Modifier σ α)} :
    vocabulary.step action addr ordered metadata = .error error ↔
      vocabulary.validateMetadata metadata addr = .error error := by
  unfold Vocabulary.step
  cases vocabulary.validateMetadata metadata addr <;> simp [bind, Except.bind]

theorem assemble_of_incompatible
    (hfails : checkCompatibility addr action.name action.actionClass (hintsOf modifiers) =
      .error error) :
    vocabulary.assemble policy addr action modifiers metadata = .error error := by
  unfold hintsOf at hfails
  simp only [assemble, hfails, bind, Except.bind]

theorem assemble_of_contradiction {names : List String}
    (hcompatible : Compatible action.actionClass (hintsOf modifiers))
    (hcycle : policy.order (hintsOf modifiers) = .error names) :
    vocabulary.assemble policy addr action modifiers metadata =
      .error ((Problem.contradictoryOrder names).foundAt addr) := by
  have hok : checkCompatibility addr action.name action.actionClass (hintsOf modifiers) = .ok () :=
    checkCompatibility_eq_ok_iff.mpr hcompatible
  unfold hintsOf at hok hcycle
  simp only [assemble, hok, hcycle, bind, Except.bind]

theorem assemble_of_accepted
    (hcompatible : Compatible action.actionClass (hintsOf modifiers))
    (haccepts : policy.Accepts (hintsOf modifiers)) :
    vocabulary.assemble policy addr action modifiers metadata =
      vocabulary.step action addr
        ((applicationOrder (hintsOf modifiers)).filterMap modifiers.get?) metadata := by
  have hok : checkCompatibility addr action.name action.actionClass (hintsOf modifiers) = .ok () :=
    checkCompatibility_eq_ok_iff.mpr hcompatible
  have horder : policy.order (hintsOf modifiers) = .ok (applicationOrder (hintsOf modifiers)) :=
    CyclePolicy.order_eq_ok_iff.mpr ⟨haccepts, rfl⟩
  unfold hintsOf at hok horder ⊢
  simp only [assemble, hok, horder, bind, Except.bind]

/-- What keeps the parts of a step from being put together: the first check that fails. -/
inductive AssemblyFault (vocabulary : Vocabulary μ) (policy : CyclePolicy) (addr : Address)
    (action : Action σ α) (modifiers : NameMap (Modifier σ α)) (metadata : YamlMapping) :
    StepError → Prop where
  | incompatible {error : StepError}
      (hfails : checkCompatibility addr action.name action.actionClass (hintsOf modifiers) =
        .error error) :
      AssemblyFault vocabulary policy addr action modifiers metadata error
  | contradiction {names : List String}
      (hcompatible : Compatible action.actionClass (hintsOf modifiers))
      (hstrict : policy = .strict)
      (hcycle : contradiction? (hintsOf modifiers) = some names) :
      AssemblyFault vocabulary policy addr action modifiers metadata
        { code := 2004
          message := "Modifier ordering cycle among: " ++
            String.intercalate ", " (names.map fun name => "\"" ++ name ++ "\"")
          address := some addr
          causes := [] }
  | metadata {error : StepError}
      (hcompatible : Compatible action.actionClass (hintsOf modifiers))
      (haccepts : policy.Accepts (hintsOf modifiers))
      (hfails : vocabulary.validateMetadata metadata addr = .error error) :
      AssemblyFault vocabulary policy addr action modifiers metadata error

theorem AssemblyFault.assemble_eq
    (hfault : vocabulary.AssemblyFault policy addr action modifiers metadata error) :
    vocabulary.assemble policy addr action modifiers metadata = .error error := by
  cases hfault with
  | incompatible hfails => exact assemble_of_incompatible hfails
  | contradiction hcompatible hstrict hcycle =>
      exact assemble_of_contradiction hcompatible
        (CyclePolicy.order_eq_error_iff.mpr ⟨hstrict, hcycle⟩)
  | metadata hcompatible haccepts hfails =>
      rw [assemble_of_accepted hcompatible haccepts, step_eq_error_iff]
      exact hfails

theorem assembles_or_fault (vocabulary : Vocabulary μ) (policy : CyclePolicy) (addr : Address)
    (action : Action σ α) (modifiers : NameMap (Modifier σ α)) (metadata : YamlMapping) :
    (∃ error, vocabulary.AssemblyFault policy addr action modifiers metadata error) ∨
      Compatible action.actionClass (hintsOf modifiers) ∧ policy.Accepts (hintsOf modifiers) ∧
        ∃ accepted, vocabulary.validateMetadata metadata addr = .ok accepted := by
  cases hcheck : checkCompatibility addr action.name action.actionClass (hintsOf modifiers) with
  | error error => exact .inl ⟨error, .incompatible hcheck⟩
  | ok _ =>
      have hcompatible : Compatible action.actionClass (hintsOf modifiers) :=
        checkCompatibility_eq_ok_iff.mp hcheck
      cases horder : policy.order (hintsOf modifiers) with
      | error names =>
          obtain ⟨hstrict, hcycle⟩ := CyclePolicy.order_eq_error_iff.mp horder
          exact .inl ⟨_, .contradiction hcompatible hstrict hcycle⟩
      | ok order =>
          have haccepts : policy.Accepts (hintsOf modifiers) :=
            (CyclePolicy.order_eq_ok_iff.mp horder).1
          cases hmetadata : vocabulary.validateMetadata metadata addr with
          | error error => exact .inl ⟨error, .metadata hcompatible haccepts hmetadata⟩
          | ok accepted => exact .inr ⟨hcompatible, haccepts, accepted, rfl⟩

theorem assemble_eq_error_iff :
    vocabulary.assemble policy addr action modifiers metadata = .error error ↔
      vocabulary.AssemblyFault policy addr action modifiers metadata error := by
  refine ⟨fun herror => ?_, AssemblyFault.assemble_eq⟩
  obtain ⟨other, hfault⟩ | ⟨hcompatible, haccepts, accepted, haccepted⟩ :=
    vocabulary.assembles_or_fault policy addr action modifiers metadata
  · obtain rfl : other = error := Except.error.inj (hfault.assemble_eq.symm.trans herror)
    exact hfault
  · rw [assemble_of_accepted hcompatible haccepts, step_eq_error_iff] at herror
    exact .metadata hcompatible haccepts herror

theorem assemble_eq_ok_iff :
    vocabulary.assemble policy addr action modifiers metadata = .ok step ↔
      Compatible action.actionClass (hintsOf modifiers) ∧ policy.Accepts (hintsOf modifiers) ∧
        ∃ accepted, vocabulary.validateMetadata metadata addr = .ok accepted ∧
          step =
            { action
              modifiers := (applicationOrder (hintsOf modifiers)).filterMap modifiers.get?
              metadata := accepted
              address := addr } := by
  constructor
  · intro hok
    obtain ⟨error, hfault⟩ | ⟨hcompatible, haccepts, -⟩ :=
      vocabulary.assembles_or_fault policy addr action modifiers metadata
    · cases hfault.assemble_eq.symm.trans hok
    · rw [assemble_of_accepted hcompatible haccepts, step_eq_ok_iff] at hok
      exact ⟨hcompatible, haccepts, hok⟩
  · rintro ⟨hcompatible, haccepts, hstep⟩
    rw [assemble_of_accepted hcompatible haccepts, step_eq_ok_iff]
    exact hstep

/-- An action without modifiers meets no check but that of the metadata. -/
theorem assemble_bare {accepted : μ}
    (haccepted : vocabulary.validateMetadata metadata addr = .ok accepted) :
    vocabulary.assemble policy addr action .empty metadata =
      .ok { action, modifiers := [], metadata := accepted, address := addr } := by
  refine assemble_eq_ok_iff.mpr ⟨?_, policy.accepts_empty, accepted, haccepted, ?_⟩
  · intro name hints hget
    cases hget
  · simp

end Vocabulary

end StepChain
