import StepChain.Proofs.Description.Acceptance
import Mathlib.Data.List.Dedup

/-!
# Entries counted

Every entry of an accepted mapping is metadata, the action or a modifier. Metadata is
kept under its keys, tags included, and modifiers under the texts of their keys, so that
of two modifiers whose keys differ only in their tags one is dropped. Nothing else is.
-/

namespace StepChain

variable {σ α μ : Type}

namespace YamlMapping

/-- No two keys are the same value. They may still have the same text, under tags. -/
def DistinctKeys (entries : YamlMapping) : Prop :=
  entries.Pairwise fun earlier later => later.1.same earlier.1 = false

theorem DistinctKeys.filter {entries : YamlMapping} (hkeys : entries.DistinctKeys)
    (keep : Yaml × Yaml → Bool) : DistinctKeys (entries.filter keep) :=
  hkeys.sublist List.filter_sublist

end YamlMapping

namespace NameMap

variable {ι : Type}

theorem mem_names_ofList {made : List (String × ι)} {name : String} :
    name ∈ (ofList made).names ↔ name ∈ made.map Prod.fst := by
  induction made using List.reverseRecOn with
  | nil => simp [ofList]
  | append_singleton front last ih =>
      rw [ofList_concat, mem_names_insert, ih, List.map_append, List.mem_append]
      simp [or_comm]

theorem length_names_ofList (made : List (String × ι)) :
    (ofList made).names.length = (made.map Prod.fst).dedup.length := by
  have hperm : (ofList made).names.Perm (made.map Prod.fst).dedup := by
    rw [List.perm_ext_iff_of_nodup (names_nodup _) (List.nodup_dedup _)]
    intro name
    rw [mem_names_ofList, List.mem_dedup]
  exact hperm.length_eq

end NameMap

namespace Vocabulary

variable {vocabulary : Vocabulary μ} {resolver : Resolver σ α} {entries : YamlMapping}

theorem length_eq_of_resolved
    (hresolved : ∀ entry ∈ entries, ∃ role, vocabulary.role? resolver entry.1 = some role) :
    entries.length =
      (vocabulary.entriesOf resolver .action entries).length +
        (vocabulary.entriesOf resolver .modifier entries).length +
        (vocabulary.entriesOf resolver .metadata entries).length := by
  induction entries with
  | nil => rfl
  | cons entry rest ih =>
      have hrest := ih fun other hother => hresolved other (List.mem_cons_of_mem entry hother)
      obtain ⟨role, hrole⟩ := hresolved entry List.mem_cons_self
      have hcons : ∀ other, vocabulary.entriesOf resolver other (entry :: rest) =
          (if role = other then [entry] else []) ++ vocabulary.entriesOf resolver other rest := by
        intro other
        rw [← entriesOf_single_of_role hrole, ← entriesOf_append]
        rfl
      rw [hcons, hcons, hcons, List.length_cons, hrest]
      cases role <;> simp <;> omega

/-- The texts of the keys that name modifiers, in document order. -/
def modifierTexts (vocabulary : Vocabulary μ) (resolver : Resolver σ α) (entries : YamlMapping) :
    List String :=
  (vocabulary.entriesOf resolver .modifier entries).filterMap fun entry => entry.1.text?

theorem length_modifierTexts :
    (vocabulary.modifierTexts resolver entries).length =
      (vocabulary.entriesOf resolver .modifier entries).length := by
  unfold modifierTexts
  rw [List.length_filterMap_eq_countP, List.countP_eq_length]
  intro entry hentry
  obtain ⟨-, hrole⟩ := List.mem_filter.mp hentry
  obtain ⟨name, hname⟩ := text?_of_role (of_decide_eq_true hrole)
  simp [hname]

end Vocabulary

/-! ## Accepted mappings -/

theorem length_ordered (modifiers : NameMap (Modifier σ α)) :
    ((applicationOrder (hintsOf modifiers)).filterMap modifiers.get?).length =
      modifiers.names.length := by
  have hperm := (ordered_perm modifiers).length_eq
  rwa [List.length_map, ← List.length_map (f := Prod.fst)] at hperm

theorem StepReader.entries_of_accepted (reader : StepReader σ α μ) {entries : YamlMapping}
    {addr : Address} {step : Step σ α μ}
    (hread : reader.readStep (.map entries) addr = .ok step) :
    entries.length =
        1 + (reader.dialect.modifierTexts reader.resolver entries).length +
          (reader.dialect.entriesOf reader.resolver .metadata entries).length ∧
      step.modifiers.length =
        (reader.dialect.modifierTexts reader.resolver entries).dedup.length ∧
      reader.dialect.validateMetadata
          (YamlMapping.ofEntries
            (reader.dialect.entriesOf reader.resolver .metadata entries)) addr =
        .ok step.metadata := by
  obtain ⟨action, made, hdescribes, hassemble⟩ := (reader.readStep_map_eq_ok_iff ..).mp hread
  obtain ⟨-, -, accepted, haccepted, rfl⟩ := Vocabulary.assemble_eq_ok_iff.mp hassemble
  obtain ⟨entry, haction, -⟩ := hdescribes.action
  refine ⟨?_, ?_, haccepted⟩
  · rw [Vocabulary.length_eq_of_resolved hdescribes.resolved, haction,
      Vocabulary.length_modifierTexts, List.length_singleton]
  · rw [length_ordered, NameMap.length_names_ofList, Vocabulary.modifierTexts,
      Vocabulary.texts_of_makes hdescribes.modifiers]

namespace Scripted

/-- A reader of the scripted dialect. -/
def readerOver (registry : Registry Recorder String) (ordering : CyclePolicy) :
    StepReader Recorder String YamlMapping :=
  { dialect, resolver := registry.resolver, ordering, distinct := dialect_distinct }

/-- In an accepted mapping one entry is the action and all metadata is kept. There is one
modifier for each text of a key that names one, so that no entry is dropped exactly when
these texts differ. -/
theorem accepted_entries_counted (registry : Registry Recorder String) (ordering : CyclePolicy)
    (entries : YamlMapping) (addr : Address) (step : TextStep) (hkeys : entries.DistinctKeys)
    (hread : (readerOver registry ordering).readStep (.map entries) addr = .ok step) :
    entries.length =
        1 + (vocabulary.modifierTexts registry.resolver entries).length +
          step.metadata.length ∧
      step.modifiers.length =
        (vocabulary.modifierTexts registry.resolver entries).dedup.length ∧
      (entries.length = 1 + step.modifiers.length + step.metadata.length ↔
        (vocabulary.modifierTexts registry.resolver entries).Nodup) := by
  obtain ⟨hlength, hmodifiers, haccepted⟩ :
      entries.length =
          1 + (vocabulary.modifierTexts registry.resolver entries).length +
            (vocabulary.entriesOf registry.resolver .metadata entries).length ∧
        step.modifiers.length =
          (vocabulary.modifierTexts registry.resolver entries).dedup.length ∧
        validateMetadata (YamlMapping.ofEntries
            (vocabulary.entriesOf registry.resolver .metadata entries)) addr =
          .ok step.metadata :=
    (readerOver registry ordering).entries_of_accepted hread
  have hkept : step.metadata = vocabulary.entriesOf registry.resolver .metadata entries := by
    rw [(validateMetadata_eq_ok_iff.mp haccepted).1]
    exact YamlMapping.ofEntries_of_distinct (hkeys.filter _)
  rw [← hkept] at hlength
  refine ⟨hlength, hmodifiers, ?_⟩
  rw [← List.dedup_eq_self, ← (List.dedup_sublist _).length_eq]
  omega

/-- Two keys with the text of one modifier. -/
def taggedTwin : YamlMapping :=
  [(.str "name", .str "shout"), (.str "echo", .str "hi"), (.str "upper", .null),
    (.tagged "!x" (.str "upper"), .bool true)]

theorem taggedTwin_read :
    ∃ step, (readerOver builtins .lenient).readStep (.map taggedTwin) (Address.root "steps.yaml") =
        .ok step ∧
      step.modifiers.length = 1 ∧ step.metadata.length = 1 := by
  have hread : ((readerOver builtins .lenient).readStep (.map taggedTwin)
      (Address.root "steps.yaml")).map (fun step => (step.modifiers.length, step.metadata.length)) =
        .ok (1, 1) := by
    cbv
  obtain ⟨step, hok, hseen⟩ := exists_ok_of_map hread
  exact ⟨step, hok, Prod.mk.inj hseen⟩

theorem taggedTwin_distinctKeys : taggedTwin.DistinctKeys := by
  unfold YamlMapping.DistinctKeys
  decide +kernel

theorem taggedTwin_counted :
    taggedTwin.DistinctKeys ∧
      ∃ step, (readerOver builtins .lenient).readStep (.map taggedTwin)
            (Address.root "steps.yaml") = .ok step ∧
        taggedTwin.length =
          1 + (vocabulary.modifierTexts builtins.resolver taggedTwin).length +
            step.metadata.length ∧
        step.modifiers.length =
          (vocabulary.modifierTexts builtins.resolver taggedTwin).dedup.length := by
  obtain ⟨step, hok, -⟩ := taggedTwin_read
  obtain ⟨hall, hmodifiers, -⟩ :=
    accepted_entries_counted builtins .lenient taggedTwin _ step taggedTwin_distinctKeys hok
  exact ⟨taggedTwin_distinctKeys, step, hok, hall, hmodifiers⟩

/-- One of the entries is gone, though no two keys are the same. -/
theorem taggedTwin_not_counted :
    taggedTwin.DistinctKeys ∧
      ∃ step, (readerOver builtins .lenient).readStep (.map taggedTwin)
            (Address.root "steps.yaml") = .ok step ∧
        taggedTwin.length ≠ 1 + step.modifiers.length + step.metadata.length := by
  obtain ⟨step, hok, hmodifiers, hmetadata⟩ := taggedTwin_read
  refine ⟨taggedTwin_distinctKeys, step, hok, ?_⟩
  rw [hmodifiers, hmetadata]
  decide

end Scripted

end StepChain
