import StepChain.Proofs.Description.Acceptance
import Mathlib.Data.List.Perm.Basic

/-!
# The order of keys

Which error is reported for a mapping depends on the order of its entries, but not
whether there is one, and neither do the action and the modifiers of the step. Metadata
is taken up in document order, so that as much of it depends on the order as its
validation makes of that.
-/

namespace StepChain

variable {σ α μ : Type}

/-! ## Maps and mappings -/

namespace NameMap

variable {ι : Type}

theorem ofList_eq_of_perm {left right : List (String × ι)} (hnames : (left.map Prod.fst).Nodup)
    (hperm : left.Perm right) : ofList left = ofList right := by
  have hother : (right.map Prod.fst).Nodup := (hperm.map Prod.fst).nodup_iff.mp hnames
  have hleft := entries_ofList_perm hnames
  have hright := entries_ofList_perm hother
  exact ext_of_perm (hleft.trans (hperm.trans hright.symm))

end NameMap

namespace YamlMapping

theorem DistinctTexts.perm {left right : YamlMapping} (hdistinct : left.DistinctTexts)
    (hperm : left.Perm right) : right.DistinctTexts :=
  (hperm.filterMap _).nodup_iff.mp hdistinct

/-- At most one key is the same as a text. -/
theorem DistinctTexts.exists_filter_eq {entries : YamlMapping} (hdistinct : entries.DistinctTexts)
    (name : String) :
    ∃ found : Option (Yaml × Yaml),
      (entries.filter fun entry => (Yaml.str name).same entry.1) = found.toList := by
  have hnever : (entries.filter fun entry => (Yaml.str name).same entry.1).Pairwise
      fun _ _ => False := by
    refine List.Pairwise.imp_of_mem ?_ ((List.pairwise_filterMap.mp hdistinct).filter _)
    intro earlier later hearlier hlater hne
    have htext : ∀ entry : Yaml × Yaml, (Yaml.str name).same entry.1 = true →
        entry.1.text? = some name := fun entry hsame => (Yaml.text?_eq_of_same hsame).symm
    exact hne name (htext earlier (List.mem_filter.mp hearlier).2) name
      (htext later (List.mem_filter.mp hlater).2) rfl
  cases hfilter : entries.filter fun entry => (Yaml.str name).same entry.1 with
  | nil => exact ⟨none, rfl⟩
  | cons first rest =>
      cases rest with
      | nil => exact ⟨some first, rfl⟩
      | cons second rest =>
          rw [hfilter] at hnever
          exact (List.rel_of_pairwise_cons hnever List.mem_cons_self).elim

theorem field?_eq_of_perm {left right : YamlMapping} (hdistinct : left.DistinctTexts)
    (hperm : left.Perm right) (name : String) : left.field? name = right.field? name := by
  have hfilter := hperm.filter fun entry => (Yaml.str name).same entry.1
  obtain ⟨found, hfound⟩ := hdistinct.exists_filter_eq name
  have hsame : (left.filter fun entry => (Yaml.str name).same entry.1) =
      right.filter fun entry => (Yaml.str name).same entry.1 := by
    rw [hfound] at hfilter ⊢
    cases found with
    | none => exact hfilter.nil_eq
    | some entry => exact hfilter.singleton_eq
  unfold field? get?
  rw [← List.head?_filter, hsame, List.head?_filter]

end YamlMapping

/-! ## Descriptions -/

namespace Vocabulary

/-- Entries of metadata are accepted in any order or in none, and amount to much the same. -/
def OrderFree (vocabulary : Vocabulary μ) (alike : μ → μ → Prop) : Prop :=
  ∀ (left right : YamlMapping) (addr : Address) (accepted : μ), left.DistinctTexts →
    left.Perm right → vocabulary.validateMetadata left addr = .ok accepted →
      ∃ other, vocabulary.validateMetadata right addr = .ok other ∧ alike accepted other

variable {vocabulary : Vocabulary μ} {resolver : Resolver σ α} {addr : Address}
  {left right : YamlMapping} {action : Action σ α} {made : List (String × Modifier σ α)}

theorem entriesOf_perm (role : Role) (hperm : left.Perm right) :
    (vocabulary.entriesOf resolver role left).Perm (vocabulary.entriesOf resolver role right) :=
  hperm.filter _

/-- The entries of a mapping describe the same action with the same modifiers in any
order; only the modifiers are listed in another one. -/
theorem Describes.perm (hdescribes : vocabulary.Describes resolver addr left action made)
    (hperm : left.Perm right) :
    ∃ other, vocabulary.Describes resolver addr right action other ∧ made.Perm other := by
  obtain ⟨hresolved, ⟨entry, hentry, hmakes⟩, hmade⟩ := hdescribes
  have hentries : (vocabulary.entriesOf resolver .modifier left).Perm
      (vocabulary.entriesOf resolver .modifier right) := entriesOf_perm .modifier hperm
  obtain ⟨other, hother, hlisted⟩ := List.perm_comp_forall₂ hentries.symm hmade
  refine ⟨other, ⟨?_, ⟨entry, ?_, hmakes⟩, hother⟩, hlisted.symm⟩
  · intro entry hmem
    exact hresolved entry (hperm.mem_iff.mpr hmem)
  · have haction : (vocabulary.entriesOf resolver .action left).Perm
        (vocabulary.entriesOf resolver .action right) := entriesOf_perm .action hperm
    rw [hentry] at haction
    exact haction.singleton_eq.symm

end Vocabulary

/-! ## Steps -/

/-- Two steps are the same but for metadata, and that is alike. -/
structure Step.Matches (alike : μ → μ → Prop) (first second : Step σ α μ) : Prop where
  action : first.action = second.action
  modifiers : first.modifiers = second.modifiers
  address : first.address = second.address
  metadata : alike first.metadata second.metadata

namespace StepReader

theorem readStep_of_perm {reader : StepReader σ α μ} {alike : μ → μ → Prop}
    (hmetadata : reader.dialect.OrderFree alike) {left right : YamlMapping}
    (hdistinct : left.DistinctTexts) (hperm : left.Perm right) {addr : Address}
    {first : Step σ α μ} (hread : reader.readStep (.map left) addr = .ok first) :
    ∃ second, reader.readStep (.map right) addr = .ok second ∧ first.Matches alike second := by
  obtain ⟨action, made, hdescribes, hassemble⟩ := (reader.readStep_map_eq_ok_iff ..).mp hread
  obtain ⟨hcompatible, haccepts, accepted, haccepted, rfl⟩ :=
    Vocabulary.assemble_eq_ok_iff.mp hassemble
  obtain ⟨others, hother, hlisted⟩ := hdescribes.perm hperm
  have hmodifiers : NameMap.ofList made = NameMap.ofList others :=
    NameMap.ofList_eq_of_perm (Vocabulary.names_of_describes hdistinct hdescribes) hlisted
  rw [Vocabulary.metadata_verbatim hdistinct] at haccepted
  obtain ⟨other, hvalid, halike⟩ := hmetadata _ _ addr accepted
    (Vocabulary.distinctTexts_entriesOf hdistinct .metadata)
    (Vocabulary.entriesOf_perm .metadata hperm) haccepted
  rw [← Vocabulary.metadata_verbatim (hdistinct.perm hperm)] at hvalid
  rw [hmodifiers] at hcompatible haccepts
  have hstep := Vocabulary.assemble_eq_ok_iff.mpr ⟨hcompatible, haccepts, other, hvalid, rfl⟩
  refine ⟨_, (reader.readStep_map_eq_ok_iff ..).mpr ⟨action, others, hother, hstep⟩, ?_⟩
  exact ⟨rfl, by rw [hmodifiers], rfl, halike⟩

/-- The entries of a mapping whose keys have different texts may stand in any order: it
is rejected in all of them, or stands in all of them for the same step. -/
theorem readStep_map_perm (reader : StepReader σ α μ) (alike : μ → μ → Prop)
    (hmetadata : reader.dialect.OrderFree alike) (left right : YamlMapping)
    (hdistinct : left.DistinctTexts) (hperm : left.Perm right) (addr : Address) :
    (∃ first second, reader.readStep (.map left) addr = .ok first ∧
        reader.readStep (.map right) addr = .ok second ∧ first.Matches alike second) ∨
      ∃ error other, reader.readStep (.map left) addr = .error error ∧
        reader.readStep (.map right) addr = .error other := by
  cases hleft : reader.readStep (.map left) addr with
  | ok first =>
      obtain ⟨second, hright, hmatches⟩ := readStep_of_perm hmetadata hdistinct hperm hleft
      exact .inl ⟨first, second, rfl, hright, hmatches⟩
  | error error =>
      refine .inr ⟨error, ?_⟩
      cases hright : reader.readStep (.map right) addr with
      | error other => exact ⟨other, rfl, rfl⟩
      | ok second =>
          -- Then the mapping in its first order would have been accepted as well.
          obtain ⟨first, hfirst, -⟩ :=
            readStep_of_perm hmetadata (hdistinct.perm hperm) hperm.symm hright
          cases hleft.symm.trans hfirst

end StepReader

namespace Scripted

theorem vocabulary_orderFree : vocabulary.OrderFree List.Perm := by
  intro left right addr accepted hdistinct hperm haccepted
  obtain ⟨rfl, hname⟩ := validateMetadata_eq_ok_iff.mp haccepted
  rw [YamlMapping.field?_eq_of_perm hdistinct hperm] at hname
  exact ⟨right, validateMetadata_eq_ok_iff.mpr ⟨rfl, hname⟩, hperm⟩

def describedRetry : YamlMapping :=
  (.str "description", .str "tried again") :: tracedRetry

theorem describedRetry_reversed :
    tracedReader.dialect.OrderFree List.Perm ∧ describedRetry.DistinctTexts ∧
      describedRetry.Perm describedRetry.reverse ∧
      ∃ first second,
        tracedReader.readStep (.map describedRetry) (Address.root "steps.yaml") = .ok first ∧
          tracedReader.readStep (.map describedRetry.reverse) (Address.root "steps.yaml") =
            .ok second ∧
          first.Matches List.Perm second := by
  have hdistinct : describedRetry.DistinctTexts := by
    unfold YamlMapping.DistinctTexts
    decide +kernel
  have hperm : describedRetry.Perm describedRetry.reverse := (List.reverse_perm _).symm
  refine ⟨vocabulary_orderFree, hdistinct, hperm, ?_⟩
  rcases tracedReader.readStep_map_perm List.Perm vocabulary_orderFree describedRetry
    describedRetry.reverse hdistinct hperm (Address.root "steps.yaml") with
      haccepted | ⟨error, other, herror, -⟩
  · exact haccepted
  · have hread : (tracedReader.readStep (.map describedRetry) (Address.root "steps.yaml")).isOk =
        true := by
      cbv
    rw [herror] at hread
    cases hread

end Scripted

end StepChain
