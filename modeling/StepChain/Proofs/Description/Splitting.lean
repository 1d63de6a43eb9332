import StepChain.Attempts
import StepChain.Proofs.Description.Origins
import StepChain.Proofs.Description.Rejection
import StepChain.Proofs.Evaluation.Ending

/-!
# Modifiers by their names

The modifiers of a step that was read stand under different names when the factories name
them as they are told. A name then tells the position of its modifier, and the step is split
after it: what comes later holds neither the modifier nor one before it, so that a loop over
it comes closer to the action.
-/

namespace StepChain

variable {σ α μ : Type}

/-! ## Positions -/

section

variable {step : Step σ α μ} {name : String}

/-- Hooks find the modifiers of their step where the step itself does. -/
theorem Step.position?_view (step : Step σ α μ) (name : String) :
    step.view.position? name = step.position? name := by
  unfold Step.view StepView.position? modifierNames Step.position?
  rw [List.findIdx?_map]
  rfl

theorem Step.position?_eq_none (habsent : name ∉ modifierNames step.modifiers) :
    step.position? name = none := by
  refine List.findIdx?_eq_none_iff.mpr fun modifier hmodifier => ?_
  rw [beq_eq_false_iff_ne]
  intro heq
  exact habsent (heq ▸ List.mem_map_of_mem hmodifier)

theorem Step.splitAfter?_of_position? {index : Nat} (hposition : step.position? name = some index) :
    step.splitAfter? name =
      some (step.modifiers.take (index + 1), step.modifiers.drop (index + 1)) := by
  rw [splitAfter?, hposition, Option.map_some, List.splitAt_eq]

theorem Step.name_not_mem_take {index : Nat} (hnames : (modifierNames step.modifiers).Nodup)
    {later : Modifier σ α} (hlater : later ∈ step.modifiers.drop index) :
    later.name ∉ modifierNames (step.modifiers.take index) := by
  have hsplit : modifierNames step.modifiers =
      modifierNames (step.modifiers.take index) ++ modifierNames (step.modifiers.drop index) := by
    rw [modifierNames, modifierNames, modifierNames, ← List.map_append, List.take_append_drop]
  rw [hsplit] at hnames
  intro hearlier
  exact (List.nodup_append.mp hnames).2.2 _ hearlier _ (List.mem_map_of_mem hlater) rfl

end

/-! ## Names of the modifiers that were read -/

/-- The factories name each modifier as they are told. -/
def Resolver.NamesModifiers (resolver : Resolver σ α) : Prop :=
  ∀ space name factory value addr modifier, resolver.modifier space name = .ok factory →
    factory name value addr = .ok modifier → modifier.name = name

/-- Modifiers in their order of application have the names in this order, provided that
each has the name it is kept under. -/
theorem modifierNames_ordered {modifiers : NameMap (Modifier σ α)}
    (hnamed : ∀ name modifier, modifiers.get? name = some modifier → modifier.name = name) :
    modifierNames ((applicationOrder (hintsOf modifiers)).filterMap modifiers.get?) =
      applicationOrder (hintsOf modifiers) := by
  have hpresent : ∀ name ∈ applicationOrder (hintsOf modifiers), name ∈ modifiers.names := by
    intro name hname
    have hkeys := (applicationOrder_perm (hintsOf modifiers)).mem_iff.mp hname
    simpa [hintsOf] using hkeys
  have hfound := forall₂_filterMap_get? hpresent
  have hequal : List.Forall₂ (fun name named => name = named)
      (applicationOrder (hintsOf modifiers))
      (modifierNames ((applicationOrder (hintsOf modifiers)).filterMap modifiers.get?)) := by
    refine List.forall₂_map_right_iff.mpr (hfound.imp fun name modifier hentry => ?_)
    exact (hnamed name modifier (NameMap.mem_entries_iff_get?.mp hentry)).symm
  exact (List.forall₂_eq_eq_eq ▸ hequal).symm

theorem Vocabulary.names_of_assemble {vocabulary : Vocabulary μ} {policy : CyclePolicy}
    {addr : Address} {action : Action σ α} {modifiers : NameMap (Modifier σ α)}
    {metadata : YamlMapping} {step : Step σ α μ}
    (hok : vocabulary.assemble policy addr action modifiers metadata = .ok step)
    (hnamed : ∀ name modifier, modifiers.get? name = some modifier → modifier.name = name) :
    (modifierNames step.modifiers).Nodup := by
  obtain ⟨-, -, accepted, -, rfl⟩ := assemble_eq_ok_iff.mp hok
  rw [modifierNames_ordered hnamed]
  exact applicationOrder_nodup (hintsOf modifiers)

theorem Vocabulary.Describes.named {vocabulary : Vocabulary μ} {resolver : Resolver σ α}
    {addr : Address} {entries : YamlMapping} {action : Action σ α}
    {made : List (String × Modifier σ α)} (hnames : resolver.NamesModifiers)
    (hdescribes : vocabulary.Describes resolver addr entries action made) (name : String)
    (modifier : Modifier σ α) (hget : (NameMap.ofList made).get? name = some modifier) :
    modifier.name = name := by
  obtain ⟨entry, -, factory, hentry, hmade⟩ :=
    exists_of_mem_right hdescribes.modifiers (NameMap.mem_of_get?_ofList hget)
  exact hnames _ name factory entry.2 _ modifier hentry.found hmade

namespace StepReader

variable {reader : StepReader σ α μ} {raw : Yaml} {addr : Address} {step : Step σ α μ}

theorem names_of_readStep (hnames : reader.resolver.NamesModifiers)
    (hread : reader.readStep raw addr = .ok step) : (modifierNames step.modifiers).Nodup := by
  cases raw with
  | str name =>
      obtain ⟨factory, action, -, -, hassemble⟩ := (reader.readStep_str_eq_ok_iff ..).mp hread
      refine Vocabulary.names_of_assemble hassemble fun other modifier hget => ?_
      cases hget
  | map entries =>
      obtain ⟨action, made, hdescribes, hassemble⟩ := (reader.readStep_map_eq_ok_iff ..).mp hread
      exact Vocabulary.names_of_assemble hassemble (hdescribes.named hnames)
  | _ => cases hread

/-- The modifiers of a step that was read have different names. Each is found at its own
position, by the step and by its hooks, and the step is split after it, with nothing from
before the split after it. No other name is found. -/
theorem readStep_splits (reader : StepReader σ α μ) (hnames : reader.resolver.NamesModifiers)
    (raw : Yaml) (addr : Address) (step : Step σ α μ)
    (hread : reader.readStep raw addr = .ok step) :
    (modifierNames step.modifiers).Nodup ∧
      (∀ (index : Nat) (modifier : Modifier σ α), step.modifiers[index]? = some modifier →
        step.position? modifier.name = some index ∧
          step.view.position? modifier.name = some index ∧
          step.splitAfter? modifier.name =
            some (step.modifiers.take (index + 1), step.modifiers.drop (index + 1)) ∧
          ∀ later ∈ step.modifiers.drop (index + 1),
            later.name ∉ modifierNames (step.modifiers.take (index + 1))) ∧
      ∀ name, name ∉ modifierNames step.modifiers →
        step.position? name = none ∧ step.splitAfter? name = none := by
  have hdistinct : (modifierNames step.modifiers).Nodup := names_of_readStep hnames hread
  refine ⟨hdistinct, fun index modifier hmodifier => ?_, fun name habsent => ?_⟩
  · have hview : step.view.position? modifier.name = some index :=
      Step.position?_of_getElem? hdistinct hmodifier
    have hposition : step.position? modifier.name = some index := by
      rw [← step.position?_view, hview]
    exact ⟨hposition, hview, Step.splitAfter?_of_position? hposition,
      fun later hlater => Step.name_not_mem_take hdistinct hlater⟩
  · have hposition : step.position? name = none := Step.position?_eq_none habsent
    exact ⟨hposition, by rw [Step.splitAfter?, hposition, Option.map_none]⟩

end StepReader

/-! ## A retry among other modifiers -/

namespace Attempts

theorem registry_namesModifiers : registry.resolver.NamesModifiers := by
  intro space name factory value addr modifier hfound hmade
  have hfind : registry.findModifier space name =
      if space = vocabulary.modifierSpace ∧ name = "trace" then .ok traceType.construct
      else if space = vocabulary.modifierSpace ∧ name = "retry" then .ok retryType.construct
      else .error { kind := .modifier, space, name } := by
    simp only [registry, Registry.findModifier_addModifier, Registry.findModifier_addAction]
    rfl
  have hcases : factory = traceType.construct ∨ factory = retryType.construct := by
    have hfactory := hfind.symm.trans hfound
    split at hfactory
    · exact .inl (Except.ok.inj hfactory).symm
    · split at hfactory
      · exact .inr (Except.ok.inj hfactory).symm
      · cases hfactory
  rcases hcases with rfl | rfl
  · obtain ⟨config, rfl⟩ := ItemType.construct_eq_ok hmade
    rfl
  · obtain ⟨attempts, rfl⟩ := ItemType.construct_eq_ok hmade
    rfl

def reader : StepReader Run Nat Attempts.Metadata :=
  { dialect, resolver := registry.resolver, ordering := .lenient, distinct := by decide }

def tracedFlaky : YamlMapping :=
  [(.str "retry", .int 5), (.str "flaky", .int 3), (.str "trace", .null)]

/-- The retry is applied after the trace, and nothing after the retry. -/
theorem tracedFlaky_splits :
    registry.resolver.NamesModifiers ∧
      ∃ step, reader.readStep (.map tracedFlaky) (Address.root "steps.yaml") = .ok step ∧
        modifierNames step.modifiers = ["trace", "retry"] ∧
        step.position? "retry" = some 1 ∧
        step.splitAfter? "trace" = some (step.modifiers.take 1, step.modifiers.drop 1) ∧
        step.splitAfter? "upper" = none := by
  have hread : (reader.readStep (.map tracedFlaky) (Address.root "steps.yaml")).map
      (fun step => modifierNames step.modifiers) = .ok ["trace", "retry"] := by
    decide +kernel
  cases hok : reader.readStep (.map tracedFlaky) (Address.root "steps.yaml") with
  | error error => simp [hok, Except.map] at hread
  | ok step =>
      have hmodifiers : modifierNames step.modifiers = ["trace", "retry"] := by
        simpa [hok, Except.map] using hread
      obtain ⟨-, hsplits, habsent⟩ :=
        reader.readStep_splits registry_namesModifiers _ _ step hok
      have hnamed : ∀ (index : Nat) (name : String),
          (modifierNames step.modifiers)[index]? = some name →
            step.position? name = some index ∧
              step.splitAfter? name =
                some (step.modifiers.take (index + 1), step.modifiers.drop (index + 1)) := by
        intro index name hname
        rw [modifierNames, List.getElem?_map] at hname
        obtain ⟨modifier, hmodifier, rfl⟩ := Option.map_eq_some_iff.mp hname
        obtain ⟨hposition, -, hsplit, -⟩ := hsplits index modifier hmodifier
        exact ⟨hposition, hsplit⟩
      have htrace := hnamed 0 "trace" (by rw [hmodifiers]; rfl)
      have hretry := hnamed 1 "retry" (by rw [hmodifiers]; rfl)
      have hupper := habsent "upper" (by rw [hmodifiers]; decide)
      exact ⟨registry_namesModifiers, step, rfl, hmodifiers, hretry.1, htrace.2, hupper.2⟩

end Attempts

end StepChain
