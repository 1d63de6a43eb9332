import StepChain.Proofs.Description.Assembly
import StepChain.Proofs.Description.Entries
import StepChain.Scripted.Dialect

/-!
# Accepted descriptions

A mapping is accepted exactly when its entries describe one action with modifiers that
fit it and each other. The step has this action, one modifier for each entry that names
one, and the metadata as it stands in the mapping.
-/

namespace StepChain

open Relation

variable {σ α μ : Type}

/-- Where part of a result is seen, there is a result. -/
theorem exists_ok_of_map {ε ι κ : Type} {result : Except ε ι} {view : ι → κ} {seen : κ}
    (hseen : result.map view = .ok seen) : ∃ value, result = .ok value ∧ view value = seen := by
  cases result with
  | error error => cases hseen
  | ok value => exact ⟨value, rfl, Except.ok.inj hseen⟩

/-! ## Entries with different texts -/

namespace YamlMapping

def DistinctTexts (entries : YamlMapping) : Prop :=
  (entries.filterMap fun entry => entry.1.text?).Nodup

theorem DistinctTexts.ofEntries_eq {entries : YamlMapping} (hdistinct : DistinctTexts entries)
    (htexts : ∀ entry ∈ entries, ∃ name, entry.1.text? = some name) :
    ofEntries entries = entries := by
  refine ofEntries_of_distinct ((List.pairwise_filterMap.mp hdistinct).imp_of_mem ?_)
  intro earlier later hearlier _ hne
  obtain ⟨name, hname⟩ := htexts earlier hearlier
  by_contra hsame
  have htext : later.1.text? = earlier.1.text? := Yaml.text?_eq_of_same (by simpa using hsame)
  exact hne name hname name (htext.trans hname) rfl

end YamlMapping

namespace Vocabulary

variable {vocabulary : Vocabulary μ} {resolver : Resolver σ α} {addr : Address}
  {entries : YamlMapping} {made : List (String × Modifier σ α)}

theorem text?_of_role {key : Yaml} {role : Role}
    (hrole : vocabulary.role? resolver key = some role) : ∃ name, key.text? = some name := by
  cases htext : key.text? with
  | none => simp [role?_of_nameless htext] at hrole
  | some name => exact ⟨name, rfl⟩

theorem texts_of_makes {named : YamlMapping}
    (hmade : List.Forall₂ (vocabulary.MakesModifier resolver addr) named made) :
    named.filterMap (fun entry => entry.1.text?) = made.map Prod.fst := by
  induction hmade with
  | nil => rfl
  | cons hmakes _ ih =>
      obtain ⟨factory, hnames, -⟩ := hmakes
      simp [hnames.text, ih]

theorem distinctTexts_entriesOf (hdistinct : entries.DistinctTexts) (role : Role) :
    (vocabulary.entriesOf resolver role entries).DistinctTexts :=
  List.Nodup.sublist (List.filter_sublist.filterMap _) hdistinct

theorem names_of_describes {action : Action σ α} (hdistinct : entries.DistinctTexts)
    (hdescribes : vocabulary.Describes resolver addr entries action made) :
    (made.map Prod.fst).Nodup := by
  rw [← texts_of_makes hdescribes.modifiers]
  exact distinctTexts_entriesOf hdistinct .modifier

theorem metadata_verbatim (hdistinct : entries.DistinctTexts) :
    YamlMapping.ofEntries (vocabulary.entriesOf resolver .metadata entries) =
      vocabulary.entriesOf resolver .metadata entries := by
  refine (distinctTexts_entriesOf hdistinct .metadata).ofEntries_eq fun entry hentry => ?_
  obtain ⟨-, hrole⟩ := List.mem_filter.mp hentry
  exact text?_of_role (of_decide_eq_true hrole)

end Vocabulary

/-! ## Modifiers in order -/

theorem NameMap.filterMap_get?_names {ι : Type} (map : NameMap ι) :
    map.names.filterMap map.get? = map.entries.map Prod.snd := by
  have hfound : ∀ entry ∈ map.entries, map.get? entry.1 = some entry.2 :=
    fun entry hentry => mem_entries_iff_get?.mp hentry
  rw [names, List.filterMap_map, ← List.filterMap_eq_map]
  exact List.filterMap_congr hfound

theorem forall₂_filterMap_get? {ι : Type} {map : NameMap ι} {order : List String}
    (hpresent : ∀ name ∈ order, name ∈ map.names) :
    List.Forall₂ (fun name item => (name, item) ∈ map.entries) order
      (order.filterMap map.get?) := by
  induction order with
  | nil => exact .nil
  | cons name rest ih =>
      obtain ⟨item, hitem⟩ := NameMap.mem_names_iff_get?.mp (hpresent name List.mem_cons_self)
      rw [List.filterMap_cons_some hitem]
      exact .cons (NameMap.mem_entries_iff_get?.mpr hitem)
        (ih fun other hother => hpresent other (List.mem_cons_of_mem name hother))

theorem ordered_perm (modifiers : NameMap (Modifier σ α)) :
    ((applicationOrder (hintsOf modifiers)).filterMap modifiers.get?).Perm
      (modifiers.entries.map Prod.snd) := by
  have horder : (applicationOrder (hintsOf modifiers)).Perm modifiers.names := by
    simpa [hintsOf] using applicationOrder_perm (hintsOf modifiers)
  rw [← NameMap.filterMap_get?_names]
  exact horder.filterMap modifiers.get?

/-- Modifiers under different names, put in order of application, are the same modifiers. -/
theorem ordered_modifiers {made : List (String × Modifier σ α)}
    (hnames : (made.map Prod.fst).Nodup) :
    let modifiers := NameMap.ofList made
    let ordered := (applicationOrder (hintsOf modifiers)).filterMap modifiers.get?
    List.Forall₂ (fun name modifier => (name, modifier) ∈ made)
        (applicationOrder (hintsOf modifiers)) ordered ∧
      ordered.Perm (made.map Prod.snd) := by
  intro modifiers ordered
  have hentries : modifiers.entries.Perm made := NameMap.entries_ofList_perm hnames
  have horder : (applicationOrder (hintsOf modifiers)).Perm modifiers.names := by
    simpa [hintsOf] using applicationOrder_perm (hintsOf modifiers)
  constructor
  · have hfound : List.Forall₂ (fun name modifier => (name, modifier) ∈ modifiers.entries)
        (applicationOrder (hintsOf modifiers)) ordered :=
      forall₂_filterMap_get? fun name hname => horder.mem_iff.mp hname
    exact hfound.imp fun name modifier hmem => hentries.mem_iff.mp hmem
  · exact (ordered_perm modifiers).trans (hentries.map Prod.snd)

/-! ## Acceptance -/

namespace StepReader

theorem readStep_str_eq_ok_iff (reader : StepReader σ α μ) (name : String) (addr : Address)
    (step : Step σ α μ) :
    reader.readStep (.str name) addr = .ok step ↔
      ∃ factory action,
        reader.resolver.action reader.dialect.actionSpace name = .ok factory ∧
          factory name .null (addr.key name) = .ok action ∧
          reader.dialect.assemble reader.ordering addr action .empty [] = .ok step := by
  simp only [readStep, Vocabulary.readStep]
  cases reader.resolver.action reader.dialect.actionSpace name with
  | error missing => simp
  | ok factory =>
      cases hmade : factory name .null (addr.key name) with
      | error error => simp [hmade, bind, Except.bind]
      | ok action => simp [hmade, bind, Except.bind]

theorem readStep_map_eq_ok_iff (reader : StepReader σ α μ) (entries : YamlMapping)
    (addr : Address) (step : Step σ α μ) :
    reader.readStep (.map entries) addr = .ok step ↔
      ∃ action made,
        reader.dialect.Describes reader.resolver addr entries action made ∧
          reader.dialect.assemble reader.ordering addr action (NameMap.ofList made)
            (YamlMapping.ofEntries (reader.dialect.entriesOf reader.resolver .metadata entries)) =
              .ok step := by
  constructor
  · intro hok
    unfold readStep at hok
    obtain ⟨error, herror⟩ | ⟨parts, hparts, hnone⟩ | ⟨action, made, hdescribes⟩ :=
      reader.dialect.describes_cases reader.resolver addr entries
    · cases (Vocabulary.readStep_of_parts_error reader.ordering herror).symm.trans hok
    · cases (Vocabulary.readStep_of_no_action reader.ordering hparts hnone).symm.trans hok
    · rw [hdescribes.readStep_eq] at hok
      exact ⟨action, made, hdescribes, hok⟩
  · rintro ⟨action, made, hdescribes, hassemble⟩
    rw [readStep, hdescribes.readStep_eq]
    exact hassemble

/-- A mapping is accepted exactly when it describes one action with modifiers that are
compatible, in an order that the policy accepts, and its metadata is accepted. The step
is what it describes. -/
theorem readStep_map_accepts (reader : StepReader σ α μ) (entries : YamlMapping)
    (addr : Address) (hdistinct : entries.DistinctTexts) :
    ((∃ step, reader.readStep (.map entries) addr = .ok step) ↔
        ∃ action made,
          reader.dialect.Describes reader.resolver addr entries action made ∧
            Compatible action.actionClass (hintsOf (NameMap.ofList made)) ∧
            reader.ordering.Accepts (hintsOf (NameMap.ofList made)) ∧
            ∃ accepted,
              reader.dialect.validateMetadata
                (reader.dialect.entriesOf reader.resolver .metadata entries) addr =
                  .ok accepted) ∧
      ∀ step, reader.readStep (.map entries) addr = .ok step →
        ∃ made,
          reader.dialect.Describes reader.resolver addr entries step.action made ∧
            step.modifiers.Perm (made.map Prod.snd) ∧
            List.Forall₂ (fun name modifier => (name, modifier) ∈ made)
              (applicationOrder (hintsOf (NameMap.ofList made))) step.modifiers ∧
            reader.dialect.validateMetadata
                (reader.dialect.entriesOf reader.resolver .metadata entries) addr =
              .ok step.metadata ∧
            step.address = addr := by
  have hverbatim :
      YamlMapping.ofEntries (reader.dialect.entriesOf reader.resolver .metadata entries) =
        reader.dialect.entriesOf reader.resolver .metadata entries :=
    Vocabulary.metadata_verbatim hdistinct
  constructor
  · constructor
    · rintro ⟨step, hok⟩
      obtain ⟨action, made, hdescribes, hassemble⟩ := (reader.readStep_map_eq_ok_iff ..).mp hok
      obtain ⟨hcompatible, haccepts, accepted, haccepted, -⟩ :=
        Vocabulary.assemble_eq_ok_iff.mp hassemble
      rw [hverbatim] at haccepted
      exact ⟨action, made, hdescribes, hcompatible, haccepts, accepted, haccepted⟩
    · rintro ⟨action, made, hdescribes, hcompatible, haccepts, accepted, haccepted⟩
      rw [← hverbatim] at haccepted
      have hassemble := Vocabulary.assemble_eq_ok_iff.mpr
        ⟨hcompatible, haccepts, accepted, haccepted, rfl⟩
      exact ⟨_, (reader.readStep_map_eq_ok_iff ..).mpr ⟨action, made, hdescribes, hassemble⟩⟩
  · intro step hok
    obtain ⟨action, made, hdescribes, hassemble⟩ := (reader.readStep_map_eq_ok_iff ..).mp hok
    obtain ⟨-, -, accepted, haccepted, rfl⟩ := Vocabulary.assemble_eq_ok_iff.mp hassemble
    obtain ⟨hordered, hperm⟩ :=
      ordered_modifiers (Vocabulary.names_of_describes hdistinct hdescribes)
    rw [hverbatim] at haccepted
    exact ⟨made, hdescribes, hperm, hordered, haccepted, rfl⟩

end StepReader

namespace Scripted

/-- An action and two modifiers, one of which is applied after the other. -/
def tracedItems : Registry Recorder String :=
  addHinted (addHinted (addReturning .empty "run" "done") "trace" {}) "retry"
    (.declare [.after ["trace"], .required ["trace"]])

def tracedReader : StepReader Recorder String YamlMapping :=
  { dialect, resolver := tracedItems.resolver, ordering := .strict, distinct := dialect_distinct }

def tracedRetry : YamlMapping :=
  [(.str "retry", .null), (.str "name", .str "upload"), (.str "run", .str "now"),
    (.str "trace", .null)]

theorem tracedRetry_accepted :
    tracedRetry.DistinctTexts ∧
      ∃ step made,
        tracedReader.readStep (.map tracedRetry) (Address.root "steps.yaml") = .ok step ∧
          tracedReader.dialect.Describes tracedReader.resolver (Address.root "steps.yaml")
            tracedRetry step.action made ∧
          step.modifiers.Perm (made.map Prod.snd) ∧
          step.modifiers.map Modifier.name = ["trace", "retry"] ∧
          step.metadata = [(.str "name", .str "upload")] := by
  have hdistinct : tracedRetry.DistinctTexts := by
    unfold YamlMapping.DistinctTexts
    decide +kernel
  have hread :
      (tracedReader.readStep (.map tracedRetry) (Address.root "steps.yaml")).map
          (fun step => (step.modifiers.map Modifier.name, step.metadata)) =
        .ok (["trace", "retry"], [(.str "name", .str "upload")]) := by
    cbv
  cases hok : tracedReader.readStep (.map tracedRetry) (Address.root "steps.yaml") with
  | error error => simp [hok, Except.map] at hread
  | ok step =>
      obtain ⟨-, hstep⟩ := tracedReader.readStep_map_accepts tracedRetry
        (Address.root "steps.yaml") hdistinct
      obtain ⟨made, hdescribes, hperm, -⟩ := hstep step hok
      obtain ⟨hnames, hmetadata⟩ :
          step.modifiers.map Modifier.name = ["trace", "retry"] ∧
            step.metadata = [(.str "name", .str "upload")] := by
        simpa [hok, Except.map] using hread
      exact ⟨hdistinct, step, made, rfl, hdescribes, hperm, hnames, hmetadata⟩

end Scripted

end StepChain
