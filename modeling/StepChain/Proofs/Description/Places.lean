import StepChain.Proofs.Description.Acceptance
import StepChain.Proofs.Evaluation.Places

/-!
# Descriptions wherever they are

The place of a description shows in addresses only. As long as factories and the check of
metadata make the same of their input at every address, a description is read at one address
exactly when it is at another, as the same step but for addresses. Nor does the policy matter
when no modifier of the step has a say in the order.
-/

namespace StepChain

open Relation

variable {ι σ α μ : Type}

/-! ## Factories -/

/-- What a factory makes at one address it makes at every other, up to the address. -/
def Factory.MakesAnywhere (factory : Factory ι) (unplaced : ι → ι) : Prop :=
  ∀ {name : String} {value : Yaml} {addr : Address} {item : ι},
    factory name value addr = .ok item →
      ∀ other, ∃ moved, factory name value other = .ok moved ∧ unplaced moved = unplaced item

theorem ItemType.construct_anywhere {type : ItemType ι} {unplaced : ι → ι}
    (hvalidate : ∀ {name raw addr config}, type.validate name raw addr = .ok config →
      ∀ other, type.validate name raw other = .ok config)
    (hassemble : ∀ header addr config,
      unplaced (type.assemble { header with address := addr } config) =
        unplaced (type.assemble header config)) :
    type.construct.MakesAnywhere unplaced := by
  intro name value addr item hmade other
  unfold construct at hmade ⊢
  cases hvalid : type.validate name value addr with
  | error error => simp [hvalid, bind, Except.bind] at hmade
  | ok config =>
      obtain rfl : type.assemble { name, address := addr } config = item := by
        simpa [hvalid, bind, Except.bind] using hmade
      refine ⟨type.assemble { name, address := other } config, ?_, ?_⟩
      · simp [hvalidate hvalid other, bind, Except.bind]
      · exact hassemble { name, address := addr } other config

/-- Factories and the check of metadata make the same of their input at every address. -/
structure Vocabulary.ReadsAnywhere (vocabulary : Vocabulary μ) (resolver : Resolver σ α) :
    Prop where
  action : ∀ {name factory}, resolver.action vocabulary.actionSpace name = .ok factory →
    factory.MakesAnywhere Action.unplaced
  modifier : ∀ {name factory}, resolver.modifier vocabulary.modifierSpace name = .ok factory →
    factory.MakesAnywhere Modifier.unplaced
  metadata : ∀ {metadata addr accepted},
    vocabulary.validateMetadata metadata addr = .ok accepted →
      ∀ other, vocabulary.validateMetadata metadata other = .ok accepted

/-! ## Parts of a description -/

theorem NameMap.mapValues_ofList {κ : Type} (entries : List (String × ι)) (change : ι → κ) :
    (NameMap.ofList entries).mapValues (fun _ value => change value) =
      NameMap.ofList (entries.map fun entry => (entry.1, change entry.2)) := by
  induction entries using List.reverseRecOn with
  | nil => rfl
  | append_singleton front last ih =>
      rw [List.map_append, List.map_singleton, ofList_concat, ofList_concat, mapValues_insert, ih]

def unplacedEntries (made : List (String × Modifier σ α)) : List (String × Modifier σ α) :=
  made.map fun entry => (entry.1, entry.2.unplaced)

namespace Vocabulary

variable {vocabulary : Vocabulary μ} {resolver : Resolver σ α} {policy : CyclePolicy}
  {addr : Address} {entries : YamlMapping} {action : Action σ α}
  {made : List (String × Modifier σ α)} {metadata : YamlMapping} {step : Step σ α μ}

theorem MakesAction.moved (hanywhere : vocabulary.ReadsAnywhere resolver) {entry : Yaml × Yaml}
    (hmakes : vocabulary.MakesAction resolver addr entry action) (other : Address) :
    ∃ moved, vocabulary.MakesAction resolver other entry moved ∧
      moved.unplaced = action.unplaced := by
  obtain ⟨name, factory, hnames, hmade⟩ := hmakes
  obtain ⟨moved, hmoved, hsame⟩ := hanywhere.action hnames.found hmade (other.key name)
  exact ⟨moved, ⟨name, factory, hnames, hmoved⟩, hsame⟩

theorem makesModifiers_moved (hanywhere : vocabulary.ReadsAnywhere resolver)
    (hmade : List.Forall₂ (vocabulary.MakesModifier resolver addr) entries made)
    (other : Address) :
    ∃ moved, List.Forall₂ (vocabulary.MakesModifier resolver other) entries moved ∧
      unplacedEntries moved = unplacedEntries made := by
  induction hmade with
  | nil => exact ⟨[], .nil, rfl⟩
  | @cons entry added _ later hmakes _ ih =>
      obtain ⟨factory, hnames, hadded⟩ := hmakes
      obtain ⟨item, hitem, hsame⟩ := hanywhere.modifier hnames.found hadded (other.key added.1)
      obtain ⟨rest, hrest, hlater⟩ := ih
      have hmakes : vocabulary.MakesModifier resolver other entry (added.1, item) :=
        ⟨factory, hnames, hitem⟩
      refine ⟨(added.1, item) :: rest, .cons hmakes hrest, ?_⟩
      show (added.1, item.unplaced) :: unplacedEntries rest =
        (added.1, added.2.unplaced) :: unplacedEntries later
      rw [hsame, hlater]

theorem Describes.moved (hanywhere : vocabulary.ReadsAnywhere resolver)
    (hdescribes : vocabulary.Describes resolver addr entries action made) (other : Address) :
    ∃ action' made', vocabulary.Describes resolver other entries action' made' ∧
      action'.unplaced = action.unplaced ∧ unplacedEntries made' = unplacedEntries made := by
  obtain ⟨hresolved, ⟨entry, hentry, hmakes⟩, hmade⟩ := hdescribes
  obtain ⟨action', haction, hsameAction⟩ := hmakes.moved hanywhere other
  obtain ⟨made', hmodifiers, hsameModifiers⟩ := makesModifiers_moved hanywhere hmade other
  exact ⟨action', made', ⟨hresolved, ⟨entry, hentry, haction⟩, hmodifiers⟩, hsameAction,
    hsameModifiers⟩

theorem assemble_moved (hanywhere : vocabulary.ReadsAnywhere resolver)
    (hok : vocabulary.assemble policy addr action (NameMap.ofList made) metadata = .ok step)
    {action' : Action σ α} {made' : List (String × Modifier σ α)}
    (haction : action'.unplaced = action.unplaced)
    (hmade : unplacedEntries made' = unplacedEntries made) (other : Address) :
    ∃ moved,
      vocabulary.assemble policy other action' (NameMap.ofList made') metadata = .ok moved ∧
        moved.unplaced = step.unplaced := by
  have hvalues : (NameMap.ofList made').mapValues (fun _ modifier => modifier.unplaced) =
      (NameMap.ofList made).mapValues fun _ modifier => modifier.unplaced := by
    rw [NameMap.mapValues_ofList, NameMap.mapValues_ofList]
    exact congrArg NameMap.ofList hmade
  have hhints : hintsOf (NameMap.ofList made') = hintsOf (NameMap.ofList made) := by
    rw [← hintsOf_mapValues Modifier.hints_unplaced, hvalues,
      hintsOf_mapValues Modifier.hints_unplaced]
  have hclass : action'.actionClass = action.actionClass := by
    rw [← Action.actionClass_unplaced, haction, Action.actionClass_unplaced]
  obtain ⟨hcompatible, haccepts, accepted, haccepted, rfl⟩ := assemble_eq_ok_iff.mp hok
  refine ⟨_, assemble_eq_ok_iff.mpr ⟨?_, ?_, accepted, hanywhere.metadata haccepted other, rfl⟩, ?_⟩
  · rwa [hclass, hhints]
  · rwa [hhints]
  · unfold Step.unplaced
    rw [haction, hhints, ← filterMap_get?_mapValues, hvalues, filterMap_get?_mapValues]

end Vocabulary

/-! ## Descriptions -/

namespace StepReader

variable {reader : StepReader σ α μ} {raw : Yaml} {addr : Address} {step : Step σ α μ}

theorem readStep_moved (hanywhere : reader.dialect.ReadsAnywhere reader.resolver)
    (hread : reader.readStep raw addr = .ok step) (other : Address) :
    ∃ moved, reader.readStep raw other = .ok moved ∧ moved.unplaced = step.unplaced := by
  cases raw with
  | str name =>
      obtain ⟨factory, action, hfound, hmade, hassemble⟩ :=
        (reader.readStep_str_eq_ok_iff ..).mp hread
      obtain ⟨action', haction, hsame⟩ := hanywhere.action hfound hmade (other.key name)
      have hnone : (NameMap.empty : NameMap (Modifier σ α)) = NameMap.ofList [] := rfl
      rw [hnone] at hassemble
      obtain ⟨moved, hmoved, hstep⟩ :=
        Vocabulary.assemble_moved hanywhere hassemble hsame rfl other
      exact ⟨moved, (reader.readStep_str_eq_ok_iff ..).mpr
        ⟨factory, action', hfound, haction, hmoved⟩, hstep⟩
  | map entries =>
      obtain ⟨action, made, hdescribes, hassemble⟩ := (reader.readStep_map_eq_ok_iff ..).mp hread
      obtain ⟨action', made', hdescribes', haction, hmade⟩ := hdescribes.moved hanywhere other
      obtain ⟨moved, hmoved, hstep⟩ :=
        Vocabulary.assemble_moved hanywhere hassemble haction hmade other
      exact ⟨moved, (reader.readStep_map_eq_ok_iff ..).mpr
        ⟨action', made', hdescribes', hmoved⟩, hstep⟩
  | _ => cases hread

end StepReader

/-! ## Policies -/

/-- The hints of a modifier that may stand anywhere among others. -/
def Hints.Unordered (hints : Hints) : Prop :=
  hints.before = NameSet.empty ∧ hints.after = NameSet.empty

theorem CyclePolicy.accepts_of_unordered {modifiers : HintMap}
    (hunordered : ∀ name hints, modifiers.get? name = some hints → hints.Unordered)
    (policy : CyclePolicy) : policy.Accepts modifiers := by
  intro _ name hcycle
  obtain ⟨other, hfirst, -⟩ := TransGen.head'_iff.mp hcycle
  rcases hfirst.hinted with ⟨hints, hget, hbefore⟩ | ⟨hints, hget, hafter⟩
  · rw [(hunordered _ hints hget).1] at hbefore
    exact NameSet.not_mem_empty _ hbefore
  · rw [(hunordered _ hints hget).2] at hafter
    exact NameSet.not_mem_empty _ hafter

theorem Vocabulary.assemble_under {vocabulary : Vocabulary μ} {policy : CyclePolicy}
    {addr : Address} {action : Action σ α} {modifiers : NameMap (Modifier σ α)}
    {metadata : YamlMapping} {step : Step σ α μ}
    (hok : vocabulary.assemble policy addr action modifiers metadata = .ok step)
    (hunordered : ∀ modifier ∈ step.modifiers, modifier.hints.Unordered) (other : CyclePolicy) :
    vocabulary.assemble other addr action modifiers metadata = .ok step := by
  obtain ⟨hcompatible, -, haccepted⟩ := assemble_eq_ok_iff.mp hok
  refine assemble_eq_ok_iff.mpr ⟨hcompatible, ?_, haccepted⟩
  apply CyclePolicy.accepts_of_unordered
  intro name hints hget
  obtain ⟨modifier, hmodifier, rfl⟩ : ∃ modifier, modifiers.get? name = some modifier ∧
      modifier.hints = hints := by
    simpa [hintsOf] using hget
  apply hunordered
  obtain ⟨accepted, -, rfl⟩ := haccepted
  have hentry := List.mem_map_of_mem (f := Prod.snd) (NameMap.mem_entries_iff_get?.mpr hmodifier)
  exact (ordered_perm modifiers).mem_iff.mpr hentry

theorem StepReader.readStep_under {reader : StepReader σ α μ} {raw : Yaml} {addr : Address}
    {step : Step σ α μ} (hread : reader.readStep raw addr = .ok step)
    (hunordered : ∀ modifier ∈ step.modifiers, modifier.hints.Unordered) (policy : CyclePolicy) :
    { reader with ordering := policy }.readStep raw addr = .ok step := by
  cases raw with
  | str name =>
      obtain ⟨factory, action, hfound, hmade, hassemble⟩ :=
        (reader.readStep_str_eq_ok_iff ..).mp hread
      exact ({ reader with ordering := policy }.readStep_str_eq_ok_iff ..).mpr
        ⟨factory, action, hfound, hmade, Vocabulary.assemble_under hassemble hunordered policy⟩
  | map entries =>
      obtain ⟨action, made, hdescribes, hassemble⟩ := (reader.readStep_map_eq_ok_iff ..).mp hread
      exact ({ reader with ordering := policy }.readStep_map_eq_ok_iff ..).mpr
        ⟨action, made, hdescribes, Vocabulary.assemble_under hassemble hunordered policy⟩
  | _ => cases hread

end StepChain
