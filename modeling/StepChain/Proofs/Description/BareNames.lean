import StepChain.Proofs.Description.Acceptance
import StepChain.Proofs.Description.Rejection

/-!
# Bare names

A bare name describes what a mapping with this name as its only key and nothing under it
describes. The two are read differently: a bare name is looked up as an action only, a key as
metadata first, then as an action, then as a modifier. They agree on names of actions and on
names of nothing, whatever the factory or the check of metadata makes of them.
-/

namespace StepChain

variable {σ α μ : Type}

namespace Vocabulary

variable {vocabulary : Vocabulary μ} {resolver : Resolver σ α} {policy : CyclePolicy}
  {addr : Address} {name : String} {value : Yaml}

theorem parts_single (vocabulary : Vocabulary μ) (resolver : Resolver σ α) (addr : Address)
    (entry : Yaml × Yaml) :
    vocabulary.parts resolver addr [entry] = vocabulary.addEntry resolver addr {} entry := by
  have hnone : vocabulary.parts resolver addr [] = .ok {} := rfl
  exact parts_concat_of_ok entry hnone

theorem readStep_bare_of_action {factory : Factory (Action σ α)}
    (hfound : resolver.action vocabulary.actionSpace name = .ok factory) :
    vocabulary.readStep resolver policy (.str name) addr =
      (factory name .null (addr.key name)).bind fun action =>
        vocabulary.assemble policy addr action .empty [] := by
  simp only [readStep, hfound]
  rfl

theorem readStep_single_of_action {factory : Factory (Action σ α)}
    (hnames : vocabulary.NamesAction resolver (.str name) name factory) :
    vocabulary.readStep resolver policy (.map [(.str name, value)]) addr =
      (factory name value (addr.key name)).bind fun action =>
        vocabulary.assemble policy addr action .empty [] := by
  cases hmade : factory name value (addr.key name) with
  | ok action =>
      have hadds : vocabulary.Adds resolver addr {} (.str name, value)
          { action := some action } :=
        .action rfl ⟨name, factory, hnames, hmade⟩
      simp only [readStep, parts_single, hadds.addEntry_eq]
      rfl
  | error error =>
      have hrejects : vocabulary.Rejects resolver addr {} (.str name, value) error :=
        .actionFails rfl hnames hmade
      apply readStep_of_parts_error
      rw [parts_single, hrejects.addEntry_eq]

theorem readStep_single_of_nothing (hnames : vocabulary.NamesNothing resolver (.str name) name) :
    vocabulary.readStep resolver policy (.map [(.str name, value)]) addr =
      .error ((Problem.unknownKey name).foundAt addr) := by
  have hrejects : vocabulary.Rejects resolver addr {} (.str name, value)
      ((Problem.unknownKey name).foundAt addr) :=
    .unknown hnames
  apply readStep_of_parts_error
  rw [parts_single, hrejects.addEntry_eq]

end Vocabulary

namespace StepReader

/-- A name that is no metadata, and that a modifier does not have alone, is read as the mapping
that gives it nothing: both are the same step, of the action only, or the same error. -/
theorem readStep_bare_eq_single (reader : StepReader σ α μ) (name : String) (addr : Address)
    (hfree : name ∉ reader.dialect.metadataKeys)
    (hnamed : (∃ factory, reader.resolver.action reader.dialect.actionSpace name = .ok factory) ∨
      (∃ missing, reader.resolver.action reader.dialect.actionSpace name = .error missing) ∧
        ∃ missing, reader.resolver.modifier reader.dialect.modifierSpace name = .error missing) :
    reader.readStep (.str name) addr = reader.readStep (.map [(.str name, .null)]) addr ∧
      ∀ step, reader.readStep (.str name) addr = .ok step →
        (∃ factory, reader.resolver.action reader.dialect.actionSpace name = .ok factory ∧
            factory name .null (addr.key name) = .ok step.action) ∧
          step.modifiers = [] ∧
          reader.dialect.validateMetadata [] addr = .ok step.metadata ∧
          step.address = addr := by
  constructor
  · unfold readStep
    rcases hnamed with ⟨factory, hfound⟩ | ⟨⟨missing, hmissing⟩, habsent⟩
    · rw [Vocabulary.readStep_bare_of_action hfound,
        Vocabulary.readStep_single_of_action ⟨rfl, hfree, hfound⟩]
    · rw [Vocabulary.readStep_single_of_nothing ⟨rfl, hfree, ⟨missing, hmissing⟩, habsent⟩]
      simp only [Vocabulary.readStep, hmissing]
  · intro step hread
    obtain ⟨factory, action, hfound, hmade, hassemble⟩ :=
      (reader.readStep_str_eq_ok_iff name addr step).mp hread
    obtain ⟨-, -, accepted, haccepted, rfl⟩ := Vocabulary.assemble_eq_ok_iff.mp hassemble
    exact ⟨⟨factory, hfound, hmade⟩, by simp, haccepted, rfl⟩

end StepReader

namespace Scripted

/-- `echo` needs no configuration, `include` does, and nothing is called `nope`. -/
theorem builtinNames_bare_eq_single :
    (∀ name ∈ ["echo", "include", "nope"], name ∉ vocabulary.metadataKeys) ∧
      (∃ step, builtinReader.readStep (.str "echo") (Address.root "steps.yaml") = .ok step ∧
        builtinReader.readStep (.map [(.str "echo", .null)]) (Address.root "steps.yaml") =
          .ok step ∧
        step.modifiers = []) ∧
      builtinReader.readStep (.map [(.str "include", .null)]) (Address.root "steps.yaml") =
        .error
          { code := 1005
            message := "Included steps must be a list"
            address := some ((Address.root "steps.yaml").key "include")
            causes := [] } ∧
      builtinReader.readStep (.map [(.str "nope", .null)]) (Address.root "steps.yaml") =
        .error
          { code := 1002
            message := "Unknown action or modifier \"nope\""
            address := some (Address.root "steps.yaml")
            causes := [] } := by
  have hfree : ∀ name ∈ ["echo", "include", "nope"], name ∉ vocabulary.metadataKeys := by
    decide
  have hecho := builtinReader.readStep_bare_eq_single "echo" (Address.root "steps.yaml")
    (hfree "echo" (by simp)) (.inl ⟨_, rfl⟩)
  have hinclude := builtinReader.readStep_bare_eq_single "include" (Address.root "steps.yaml")
    (hfree "include" (by simp)) (.inl ⟨_, rfl⟩)
  have hnope := builtinReader.readStep_bare_eq_single "nope" (Address.root "steps.yaml")
    (hfree "nope" (by simp)) (.inr ⟨⟨_, rfl⟩, ⟨_, rfl⟩⟩)
  refine ⟨hfree, ?_, ?_, ?_⟩
  · have hread : ∃ step, builtinReader.readStep (.str "echo") (Address.root "steps.yaml") =
        .ok step :=
      ⟨_, Vocabulary.assemble_bare rfl⟩
    obtain ⟨step, hread⟩ := hread
    exact ⟨step, hread, hecho.1.symm.trans hread, (hecho.2 step hread).2.1⟩
  · rw [← hinclude.1]
    rfl
  · rw [← hnope.1]
    rfl

end Scripted

end StepChain
