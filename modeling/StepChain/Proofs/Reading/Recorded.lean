import StepChain.Proofs.Description.Assembly
import StepChain.Proofs.Evaluation.Ending
import StepChain.Reader

/-!
# Recorded readers

A reader whose items note their calls reads the same steps, recorded. A call of a recorded
step appends the events of the call to the log, so that the log of a recorded reader tells
all that is called while a list is read.
-/

namespace StepChain

variable {σ α μ : Type}

/-! ## Calls of recorded steps -/

/-- The events of a call of a step. -/
def Step.callEvents (step : Step σ α μ) (ctx : σ) : List (Event σ α) :=
  (step.recorded.call (ctx, [])).2.2

theorem Step.recorded_call_cases (step : Step σ α μ) (ctx : σ) :
    ∃ events, ∀ log, step.recorded.call (ctx, log) =
      ((step.call ctx).1, ((step.call ctx).2, log ++ events)) := by
  cases hnest : step.nestWithin step.depth step.action [] step.modifiers ctx with
  | some report =>
      refine ⟨report.events, fun log => ?_⟩
      obtain ⟨hcall, hrecorded⟩ := Step.call_of_nestWithin hnest log
      rw [hcall, hrecorded]
  | none =>
      -- Neither call comes to an end, so that both give up where they began.
      refine ⟨[], fun log => ?_⟩
      have hdepth : step.recorded.depth = step.depth := by simp [Step.depth, Step.recorded]
      have hplain := step.evaluateWithin_eq_nestWithin step.depth step.action []
        step.modifiers ctx
      have hwithin : step.recorded.evaluateWithin step.depth step.recorded.action []
          step.recorded.modifiers (ctx, log) = none := by
        have hrecorded := step.recorded_evaluateWithin_eq_nestWithin step.depth step.action []
          step.modifiers ctx log
        rw [hnest] at hrecorded
        exact hrecorded
      rw [hnest] at hplain
      simp only [Step.call, Step.evaluate, hdepth, hwithin, hplain, Option.map_none,
        Option.getD_none, List.append_nil]
      rfl

theorem Step.recorded_call (step : Step σ α μ) (ctx : σ) (log : List (Event σ α)) :
    step.recorded.call (ctx, log) =
      ((step.call ctx).1, ((step.call ctx).2, log ++ step.callEvents ctx)) := by
  obtain ⟨events, hevents⟩ := step.recorded_call_cases ctx
  rw [Step.callEvents, hevents log, hevents []]
  rfl

theorem Step.recorded_call_of_call {step : Step σ α μ} {ctx left : σ}
    {answer : Except Failure (Option α)} (hcall : step.call ctx = (answer, left))
    (log : List (Event σ α)) :
    step.recorded.call (ctx, log) = (answer, (left, log ++ step.callEvents ctx)) := by
  rw [Step.recorded_call, hcall]

/-! ## Recorded items -/

/-- A resolver that hands out items that note their calls. -/
def Resolver.recorded (resolver : Resolver σ α) : Resolver (Recorded σ α) α :=
  { action := fun space name =>
      (resolver.action space name).map fun factory name raw addr =>
        (factory name raw addr).map Action.recorded
    modifier := fun space name =>
      (resolver.modifier space name).map fun factory name raw addr =>
        (factory name raw addr).map Modifier.recorded }

def Parts.recorded (parts : Parts σ α) : Parts (Recorded σ α) α :=
  { action := parts.action.map Action.recorded
    modifiers := parts.modifiers.mapValues fun _ modifier => modifier.recorded
    metadata := parts.metadata }

namespace Vocabulary

variable (vocabulary : Vocabulary μ) (resolver : Resolver σ α) (policy : CyclePolicy)
  (addr : Address)

theorem addEntry_recorded (parts : Parts σ α) (entry : Yaml × Yaml) :
    vocabulary.addEntry resolver.recorded addr parts.recorded entry =
      (vocabulary.addEntry resolver addr parts entry).map Parts.recorded := by
  unfold addEntry
  cases entry.1.text? with
  | none => rfl
  | some name =>
      by_cases hmetadata : name ∈ vocabulary.metadataKeys
      · simp only [hmetadata, if_true]
        rfl
      · simp only [hmetadata, if_false]
        cases haction : resolver.action vocabulary.actionSpace name with
        | ok factory =>
            cases hparts : parts.action with
            | some existing => simp [Resolver.recorded, Parts.recorded, haction, hparts,
                Except.map, Action.recorded, Action.name]
            | none =>
                cases hmade : factory name entry.2 (addr.key name) <;>
                  simp [Resolver.recorded, Parts.recorded, haction, hparts, hmade, Except.map,
                    bind, Except.bind]
        | error missing =>
            cases hmodifier : resolver.modifier vocabulary.modifierSpace name with
            | error absent => simp [Resolver.recorded, haction, hmodifier, Except.map]
            | ok factory =>
                cases hmade : factory name entry.2 (addr.key name) <;>
                  simp [Resolver.recorded, Parts.recorded, haction, hmodifier, hmade, Except.map,
                    bind, Except.bind, NameMap.mapValues_insert]

theorem parts_recorded (entries : YamlMapping) :
    vocabulary.parts resolver.recorded addr entries =
      (vocabulary.parts resolver addr entries).map Parts.recorded := by
  -- The parts that are there vary.
  have hfold : ∀ parts : Parts σ α,
      entries.foldlM (vocabulary.addEntry resolver.recorded addr) parts.recorded =
        (entries.foldlM (vocabulary.addEntry resolver addr) parts).map Parts.recorded := by
    induction entries with
    | nil => exact fun parts => rfl
    | cons entry rest ih =>
        intro parts
        rw [List.foldlM_cons, List.foldlM_cons, addEntry_recorded]
        cases vocabulary.addEntry resolver addr parts entry with
        | error error => rfl
        | ok next => exact ih next
  exact hfold {}

theorem assemble_recorded (action : Action σ α) (modifiers : NameMap (Modifier σ α))
    (metadata : YamlMapping) :
    vocabulary.assemble policy addr action.recorded
        (modifiers.mapValues fun _ modifier => modifier.recorded) metadata =
      (vocabulary.assemble policy addr action modifiers metadata).map Step.recorded := by
  have hhints : (modifiers.mapValues fun _ modifier => modifier.recorded).mapValues
      (fun _ modifier => modifier.hints) = modifiers.mapValues fun _ modifier => modifier.hints := by
    have hkept : ∀ modifier : Modifier σ α, modifier.recorded.hints = modifier.hints :=
      fun _ => rfl
    exact hintsOf_mapValues hkept modifiers
  have hname : action.recorded.name = action.name := rfl
  have hclass : action.recorded.actionClass = action.actionClass := rfl
  simp only [assemble, hhints, filterMap_get?_mapValues, hname, hclass]
  cases checkCompatibility addr action.name action.actionClass
      (modifiers.mapValues fun _ modifier => modifier.hints) with
  | error error => rfl
  | ok _ =>
      cases policy.order (modifiers.mapValues fun _ modifier => modifier.hints) with
      | error names => rfl
      | ok order =>
          unfold step
          cases vocabulary.validateMetadata metadata addr <;> rfl

theorem readStep_recorded (raw : Yaml) :
    vocabulary.readStep resolver.recorded policy raw addr =
      (vocabulary.readStep resolver policy raw addr).map Step.recorded := by
  cases raw with
  | str name =>
      simp only [readStep]
      cases haction : resolver.action vocabulary.actionSpace name with
      | error missing => simp [Resolver.recorded, haction, Except.map]
      | ok factory =>
          simp only [Resolver.recorded, haction, Except.map]
          cases factory name .null (addr.key name) with
          | error error => rfl
          | ok action => exact vocabulary.assemble_recorded policy addr action .empty []
  | map entries =>
      simp only [readStep, parts_recorded]
      cases vocabulary.parts resolver addr entries with
      | error error => rfl
      | ok parts =>
          obtain ⟨action, modifiers, metadata⟩ := parts
          cases action with
          | none => rfl
          | some action =>
              exact vocabulary.assemble_recorded policy addr action modifiers metadata
  | _ => rfl

end Vocabulary

/-! ## Recorded readers -/

/-- A dialect whose expansions note their calls. -/
def Dialect.recorded (dialect : Dialect σ α μ) : Dialect (Recorded σ α) α μ :=
  { dialect.toVocabulary with
    expand := fun value addr => (dialect.expand value addr).map (List.map Step.recorded) }

/-- A reader of the same steps, all of which note their calls. -/
def StepReader.recorded (reader : StepReader σ α μ) : StepReader (Recorded σ α) α μ :=
  { dialect := reader.dialect.recorded
    resolver := reader.resolver.recorded
    ordering := reader.ordering
    distinct := reader.distinct }

theorem StepReader.recorded_expand (reader : StepReader σ α μ) (value : α) (addr : Address) :
    reader.recorded.dialect.expand value addr =
      (reader.dialect.expand value addr).map (List.map Step.recorded) :=
  rfl

theorem StepReader.recorded_readStep (reader : StepReader σ α μ) (raw : Yaml) (addr : Address) :
    reader.recorded.readStep raw addr = (reader.readStep raw addr).map Step.recorded :=
  reader.dialect.readStep_recorded reader.resolver reader.ordering addr raw

theorem StepReader.recorded_readStep_of_ok (reader : StepReader σ α μ) {raw : Yaml}
    {addr : Address} {step : Step σ α μ} (hread : reader.readStep raw addr = .ok step) :
    reader.recorded.readStep raw addr = .ok step.recorded := by
  rw [recorded_readStep, hread]
  rfl

end StepChain
