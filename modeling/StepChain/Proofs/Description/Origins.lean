import StepChain.Proofs.Description.Acceptance

/-!
# What steps and problems come from

The items of a step are made at addresses inside its description, of values that the
description gives them. When factories and the check of metadata report inside the address
they are given, every problem with a description is reported inside its address.
-/

namespace StepChain

/-! ## Reports inside an address -/

/-- An error names an address at or below another one. -/
def StepError.Within (error : StepError) (addr : Address) : Prop :=
  ∃ segments, error.address = some (addr.extend segments)

theorem StepError.Within.of_address {error : StepError} {addr : Address}
    (haddress : error.address = some addr) : error.Within addr :=
  ⟨[], by rw [haddress, Address.extend_nil]⟩

theorem StepError.Within.of_extend {error : StepError} {addr : Address} {segments : List Segment}
    (hwithin : error.Within (addr.extend segments)) : error.Within addr := by
  obtain ⟨more, haddress⟩ := hwithin
  exact ⟨segments ++ more, by rw [haddress, Address.extend_append]⟩

theorem StepError.Within.of_key {error : StepError} {addr : Address} {name : String}
    (hwithin : error.Within (addr.key name)) : error.Within addr :=
  hwithin.of_extend

theorem Problem.foundAt_within (problem : Problem) (addr : Address) :
    (problem.foundAt addr).Within addr :=
  .of_address rfl

/-- What a factory reports is inside the address it is given. -/
def Factory.ReportsWithin {ι : Type} (factory : Factory ι) : Prop :=
  ∀ {name : String} {value : Yaml} {addr : Address} {error : StepError},
    factory name value addr = .error error → error.Within addr

theorem checkCompatibility_within {addr : Address} {action : String} {actionClass : ActionClass}
    {modifiers : NameMap Hints} {error : StepError}
    (herror : checkCompatibility addr action actionClass modifiers = .error error) :
    error.Within addr := by
  unfold checkCompatibility at herror
  cases hproblem : compatibilityProblem? action actionClass modifiers with
  | none => simp [hproblem] at herror
  | some problem =>
      obtain rfl : problem.foundAt addr = error := by simpa [hproblem] using herror
      exact problem.foundAt_within addr

variable {σ α μ : Type}

/-- All factories and the check of metadata report inside the address they are given. -/
structure Vocabulary.ReportsWithin (vocabulary : Vocabulary μ) (resolver : Resolver σ α) :
    Prop where
  action : ∀ {name factory}, resolver.action vocabulary.actionSpace name = .ok factory →
    factory.ReportsWithin
  modifier : ∀ {name factory}, resolver.modifier vocabulary.modifierSpace name = .ok factory →
    factory.ReportsWithin
  metadata : ∀ {metadata addr error}, vocabulary.validateMetadata metadata addr = .error error →
    error.Within addr

namespace Vocabulary

variable {vocabulary : Vocabulary μ} {resolver : Resolver σ α} {policy : CyclePolicy}
  {addr : Address} {error : StepError}

theorem AssemblyFault.within {action : Action σ α} {modifiers : NameMap (Modifier σ α)}
    {metadata : YamlMapping} (hreports : vocabulary.ReportsWithin resolver)
    (hfault : vocabulary.AssemblyFault policy addr action modifiers metadata error) :
    error.Within addr := by
  cases hfault with
  | incompatible hfails => exact checkCompatibility_within hfails
  | contradiction _ _ _ => exact .of_address rfl
  | metadata _ _ hfails => exact hreports.metadata hfails

theorem Rejects.within {parts : Parts σ α} {entry : Yaml × Yaml}
    (hreports : vocabulary.ReportsWithin resolver)
    (hrejects : vocabulary.Rejects resolver addr parts entry error) : error.Within addr := by
  cases hrejects with
  | nameless _ => exact Problem.foundAt_within ..
  | secondAction _ _ => exact Problem.foundAt_within ..
  | actionFails _ hnames hfails => exact (hreports.action hnames.found hfails).of_key
  | modifierFails hnames hfails => exact (hreports.modifier hnames.found hfails).of_key
  | unknown _ => exact Problem.foundAt_within ..

theorem readStep_within {raw : Yaml} (hreports : vocabulary.ReportsWithin resolver)
    (hread : vocabulary.readStep resolver policy raw addr = .error error) : error.Within addr := by
  cases raw with
  | str name =>
      simp only [readStep] at hread
      cases haction : resolver.action vocabulary.actionSpace name with
      | error missing =>
          obtain rfl : (Problem.unknownKey name).foundAt addr = error := by
            simpa [haction] using hread
          exact Problem.foundAt_within ..
      | ok factory =>
          cases hmade : factory name .null (addr.key name) with
          | error found =>
              obtain rfl : found = error := by
                simpa [haction, hmade, bind, Except.bind] using hread
              exact (hreports.action haction hmade).of_key
          | ok action =>
              simp only [haction, hmade, bind, Except.bind] at hread
              exact (assemble_eq_error_iff.mp hread).within hreports
  | map entries =>
      obtain ⟨found, hparts⟩ | ⟨parts, hparts, hnone⟩ | ⟨action, made, hdescribes⟩ :=
        vocabulary.describes_cases resolver addr entries
      · obtain rfl : found = error :=
          Except.error.inj ((readStep_of_parts_error policy hparts).symm.trans hread)
        obtain ⟨_, _, _, _, -, -, hrejects⟩ := parts_eq_error_iff.mp hparts
        exact hrejects.within hreports
      · obtain rfl : Problem.missingAction.foundAt addr = error :=
          Except.error.inj ((readStep_of_no_action policy hparts hnone).symm.trans hread)
        exact Problem.foundAt_within ..
      · rw [hdescribes.readStep_eq] at hread
        exact (assemble_eq_error_iff.mp hread).within hreports
  | _ =>
      cases hread
      exact Problem.foundAt_within ..

end Vocabulary

/-! ## Items and their values -/

/-- A description gives a name a value: a bare name has none, a mapping gives those of its
entries. -/
inductive Yaml.Gives : Yaml → String → Yaml → Prop where
  | bare {name : String} : Gives (.str name) name .null
  | entry {entries : YamlMapping} {key value : Yaml} {name : String}
      (hentry : (key, value) ∈ entries) (htext : key.text? = some name) :
      Gives (.map entries) name value

theorem exists_of_mem_right {ι κ : Type} {Rel : ι → κ → Prop} {items : List ι} {made : List κ}
    (hrelated : List.Forall₂ Rel items made) {added : κ} (hadded : added ∈ made) :
    ∃ item ∈ items, Rel item added := by
  induction hrelated with
  | nil => cases hadded
  | @cons item first _ _ hfirst _ ih =>
      rcases List.mem_cons.mp hadded with rfl | hadded
      · exact ⟨item, List.mem_cons_self, hfirst⟩
      · obtain ⟨other, hother, hlater⟩ := ih hadded
        exact ⟨other, List.mem_cons_of_mem _ hother, hlater⟩

theorem NameMap.mem_of_get?_ofList {β : Type} {entries : List (String × β)} {name : String}
    {value : β} (hget : (NameMap.ofList entries).get? name = some value) :
    (name, value) ∈ entries := by
  induction entries using List.reverseRecOn with
  | nil => simp [ofList] at hget
  | append_singleton front last ih =>
      rw [ofList_concat, get?_insert] at hget
      split at hget
      · rename_i heq
        obtain rfl := Option.some.inj hget
        simp [heq]
      · exact List.mem_append_left _ (ih hget)

/-- A step that is put together has the given action, and its modifiers are among the given
ones and allow the action. -/
theorem Vocabulary.items_of_assemble {vocabulary : Vocabulary μ} {policy : CyclePolicy}
    {addr : Address} {action : Action σ α} {modifiers : NameMap (Modifier σ α)}
    {metadata : YamlMapping} {step : Step σ α μ}
    (hok : vocabulary.assemble policy addr action modifiers metadata = .ok step) :
    step.action = action ∧ ∀ modifier ∈ step.modifiers,
      (∃ name, modifiers.get? name = some modifier) ∧
        modifier.hints.restriction.allows action.actionClass = true := by
  obtain ⟨hcompatible, -, accepted, -, rfl⟩ := assemble_eq_ok_iff.mp hok
  refine ⟨rfl, fun modifier hmodifier => ?_⟩
  obtain ⟨name, -, hget⟩ := List.mem_filterMap.mp hmodifier
  have hhints : (hintsOf modifiers).get? name = some modifier.hints := by
    simp [hintsOf, hget]
  exact ⟨⟨name, hget⟩,
    Restriction.allows_iff_includes.mpr (hcompatible name modifier.hints hhints).allowed⟩

namespace StepReader

variable {reader : StepReader σ α μ} {raw : Yaml} {addr : Address} {step : Step σ α μ}

/-- The items of a step are made of what its description gives their names, and the
modifiers allow the action. -/
theorem items_of_readStep (hread : reader.readStep raw addr = .ok step) :
    (∃ name value factory, raw.Gives name value ∧
        reader.resolver.action reader.dialect.actionSpace name = .ok factory ∧
        factory name value (addr.key name) = .ok step.action) ∧
      ∀ modifier ∈ step.modifiers,
        (∃ name value factory, raw.Gives name value ∧
            reader.resolver.modifier reader.dialect.modifierSpace name = .ok factory ∧
            factory name value (addr.key name) = .ok modifier) ∧
          modifier.hints.restriction.allows step.action.actionClass = true := by
  cases raw with
  | str name =>
      obtain ⟨factory, action, hfound, hmade, hassemble⟩ :=
        (reader.readStep_str_eq_ok_iff ..).mp hread
      obtain ⟨rfl, hmodifiers⟩ := Vocabulary.items_of_assemble hassemble
      refine ⟨⟨name, .null, factory, .bare, hfound, hmade⟩, fun modifier hmodifier => ?_⟩
      obtain ⟨⟨other, hget⟩, -⟩ := hmodifiers modifier hmodifier
      cases hget
  | map entries =>
      obtain ⟨action, made, hdescribes, hassemble⟩ := (reader.readStep_map_eq_ok_iff ..).mp hread
      obtain ⟨rfl, hmodifiers⟩ := Vocabulary.items_of_assemble hassemble
      constructor
      · obtain ⟨entry, hentries, name, factory, hnames, hmade⟩ := hdescribes.action
        have hentry : entry ∈ entries :=
          (List.mem_filter.mp (hentries.symm ▸ List.mem_singleton_self entry)).1
        exact ⟨name, entry.2, factory, .entry hentry hnames.text, hnames.found, hmade⟩
      · intro modifier hmodifier
        obtain ⟨⟨name, hget⟩, hallows⟩ := hmodifiers modifier hmodifier
        obtain ⟨entry, hentry, factory, hnames, hmade⟩ :=
          exists_of_mem_right hdescribes.modifiers (NameMap.mem_of_get?_ofList hget)
        exact ⟨⟨name, entry.2, factory, .entry (List.mem_filter.mp hentry).1 hnames.text,
          hnames.found, hmade⟩, hallows⟩
  | _ => cases hread

end StepReader

end StepChain
