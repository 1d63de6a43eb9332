import StepChain.Proofs.Description.Counting

/-!
# Names of steps

A key is metadata by its text, which is read through tags, while the name of a step is
looked up by the plain text alone. A name under a tag is therefore kept as metadata but
not looked at: the values of plain names are texts, those of tagged ones may be anything.
-/

namespace StepChain

variable {σ α μ : Type}

/-! ## Plain and tagged keys -/

namespace Yaml

/-- A key that reads as a text, but only through its tags. -/
def TextUnderTag (key : Yaml) (text : String) : Prop :=
  key.text? = some text ∧ key ≠ .str text

theorem same_str_iff {text : String} {key : Yaml} :
    (str text).same key = true ↔ key = .str text := by
  cases key with
  | str other => simpa [same] using eq_comm
  | _ => simp [same]

end Yaml

namespace YamlMapping

/-- Among distinct keys a plain text is looked up by its entry. -/
theorem DistinctKeys.field?_eq_some_iff {mapping : YamlMapping} (hkeys : mapping.DistinctKeys)
    {name : String} {value : Yaml} :
    mapping.field? name = some value ↔ (.str name, value) ∈ mapping := by
  unfold field? get?
  constructor
  · intro hfound
    obtain ⟨⟨key, found⟩, hfind, rfl⟩ := Option.map_eq_some_iff.mp hfound
    obtain rfl : key = .str name := Yaml.same_str_iff.mp (by simpa using List.find?_some hfind)
    exact List.mem_of_find?_eq_some hfind
  · intro hmem
    obtain ⟨front, back, rfl⟩ := List.append_of_mem hmem
    have hfront : ∀ entry ∈ front, (Yaml.str name).same entry.1 = false := fun entry hentry =>
      (List.pairwise_append.mp hkeys).2.2 entry hentry _ List.mem_cons_self
    have hself : (Yaml.str name).same (.str name) = true := Yaml.same_str_iff.mpr rfl
    have hskip : front.find? (fun entry => (Yaml.str name).same entry.1) = none := by
      simpa using hfront
    simp [List.find?_append, hskip, hself]

theorem distinctKeys_iff_keys {mapping : YamlMapping} :
    mapping.DistinctKeys ↔
      (mapping.map Prod.fst).Pairwise fun earlier later => later.same earlier = false := by
  rw [DistinctKeys, List.pairwise_map]

/-- Another value for a key leaves the keys distinct. -/
theorem DistinctKeys.replace {front back : YamlMapping} {key value : Yaml}
    (hkeys : DistinctKeys (front ++ (key, value) :: back)) (other : Yaml) :
    DistinctKeys (front ++ (key, other) :: back) := by
  rw [distinctKeys_iff_keys] at hkeys ⊢
  simpa using hkeys

end YamlMapping

/-! ## Values under metadata keys -/

namespace Vocabulary

variable {vocabulary : Vocabulary μ} {resolver : Resolver σ α} {addr : Address}
  {front back : YamlMapping} {key value : Yaml}

theorem entriesOf_around {role : Role} (hrole : vocabulary.role? resolver key = some role)
    (front back : YamlMapping) (value : Yaml) (other : Role) :
    vocabulary.entriesOf resolver other (front ++ (key, value) :: back) =
      vocabulary.entriesOf resolver other front ++
        (if role = other then [(key, value)] else []) ++
          vocabulary.entriesOf resolver other back := by
  have hsingle : vocabulary.entriesOf resolver other [(key, value)] =
      if role = other then [(key, value)] else [] :=
    entriesOf_single_of_role hrole other
  rw [List.append_cons, entriesOf_append, entriesOf_append, hsingle]

/-- What a mapping describes does not depend on the values of its metadata. -/
theorem Describes.replace {action : Action σ α} {made : List (String × Modifier σ α)}
    (hdescribes : vocabulary.Describes resolver addr (front ++ (key, value) :: back) action made)
    (hrole : vocabulary.role? resolver key = some .metadata) (other : Yaml) :
    vocabulary.Describes resolver addr (front ++ (key, other) :: back) action made := by
  obtain ⟨hresolved, haction, hmade⟩ := hdescribes
  have hsame : ∀ role, role ≠ .metadata →
      vocabulary.entriesOf resolver role (front ++ (key, other) :: back) =
        vocabulary.entriesOf resolver role (front ++ (key, value) :: back) := by
    intro role hother
    rw [entriesOf_around hrole, entriesOf_around hrole, if_neg hother.symm, if_neg hother.symm]
  refine ⟨fun entry hentry => ?_, ?_, ?_⟩
  · rcases List.mem_append.mp hentry with hfront | hback
    · exact hresolved entry (List.mem_append_left _ hfront)
    · rcases List.mem_cons.mp hback with rfl | hback
      · exact ⟨.metadata, hrole⟩
      · exact hresolved entry (List.mem_append_right _ (List.mem_cons_of_mem _ hback))
  · rw [hsame .action (by decide)]
    exact haction
  · rw [hsame .modifier (by decide)]
    exact hmade

end Vocabulary

/-- With another value under a metadata key a mapping stands for the same step with other
metadata, provided that this is accepted. -/
theorem StepReader.readStep_of_replaced {reader : StepReader σ α μ} {front back : YamlMapping}
    {key value other : Yaml} {addr : Address} {step : Step σ α μ} {accepted : μ}
    (hrole : reader.dialect.role? reader.resolver key = some .metadata)
    (hread : reader.readStep (.map (front ++ (key, value) :: back)) addr = .ok step)
    (haccepted : reader.dialect.validateMetadata
        (YamlMapping.ofEntries (reader.dialect.entriesOf reader.resolver .metadata
          (front ++ (key, other) :: back))) addr = .ok accepted) :
    reader.readStep (.map (front ++ (key, other) :: back)) addr =
      .ok { step with metadata := accepted } := by
  obtain ⟨action, made, hdescribes, hassemble⟩ := (reader.readStep_map_eq_ok_iff ..).mp hread
  obtain ⟨hcompatible, haccepts, -, -, rfl⟩ := Vocabulary.assemble_eq_ok_iff.mp hassemble
  have hreplaced := Vocabulary.assemble_eq_ok_iff.mpr
    ⟨hcompatible, haccepts, accepted, haccepted, rfl⟩
  exact (reader.readStep_map_eq_ok_iff ..).mpr
    ⟨action, made, hdescribes.replace hrole other, hreplaced⟩

namespace Scripted

theorem role?_of_name {resolver : Resolver Recorder String} {key : Yaml}
    (htext : key.text? = some "name") : vocabulary.role? resolver key = some .metadata :=
  Vocabulary.role?_eq_metadata_iff.mpr ⟨"name", htext, by decide⟩

/-- Metadata is accepted as it is, exactly when a plain name is a text. -/
theorem validateMetadata_of_distinct {metadata accepted : YamlMapping} {addr : Address}
    (hkeys : metadata.DistinctKeys) :
    validateMetadata metadata addr = .ok accepted ↔
      accepted = metadata ∧
        ∀ value, (.str "name", value) ∈ metadata → value.text?.isSome = true := by
  rw [validateMetadata_eq_ok_iff]
  simp only [hkeys.field?_eq_some_iff]

section

variable {registry : Registry Recorder String} {ordering : CyclePolicy} {entries : YamlMapping}
  {addr : Address} {step : TextStep}

/-- The metadata of a step is that of its description, with a text under a plain name. -/
theorem metadata_of_accepted (hkeys : entries.DistinctKeys)
    (hread : (readerOver registry ordering).readStep (.map entries) addr = .ok step) :
    step.metadata = vocabulary.entriesOf registry.resolver .metadata entries ∧
      ∀ value, (.str "name", value) ∈ step.metadata → value.text?.isSome = true := by
  obtain ⟨-, -, haccepted⟩ := (readerOver registry ordering).entries_of_accepted hread
  have hmetadata : (vocabulary.entriesOf registry.resolver .metadata entries).DistinctKeys :=
    hkeys.filter _
  change validateMetadata (YamlMapping.ofEntries
    (vocabulary.entriesOf registry.resolver .metadata entries)) addr = .ok step.metadata
      at haccepted
  rw [YamlMapping.ofEntries_of_distinct hmetadata, validateMetadata_of_distinct hmetadata]
    at haccepted
  obtain ⟨hkept, htexts⟩ := haccepted
  rw [hkept]
  exact ⟨rfl, htexts⟩

theorem mem_metadata_of_name (hkeys : entries.DistinctKeys)
    (hread : (readerOver registry ordering).readStep (.map entries) addr = .ok step)
    {entry : Yaml × Yaml} (htext : entry.1.text? = some "name") :
    entry ∈ step.metadata ↔ entry ∈ entries := by
  rw [(metadata_of_accepted hkeys hread).1, Vocabulary.entriesOf, List.mem_filter]
  simp [role?_of_name htext]

/-- A name under a tag is accepted with any value. -/
theorem readStep_of_tagged_name {front back : YamlMapping} {key value : Yaml}
    (hkeys : YamlMapping.DistinctKeys (front ++ (key, value) :: back))
    (hread : (readerOver registry ordering).readStep (.map (front ++ (key, value) :: back)) addr =
      .ok step)
    (htagged : key.TextUnderTag "name") (other : Yaml) :
    ∃ metadata, (key, other) ∈ metadata ∧
      (readerOver registry ordering).readStep (.map (front ++ (key, other) :: back)) addr =
        .ok { step with metadata } := by
  obtain ⟨htext, hplain⟩ := htagged
  have hrole : vocabulary.role? registry.resolver key = some .metadata := role?_of_name htext
  have hreplaced : (vocabulary.entriesOf registry.resolver .metadata
      (front ++ (key, other) :: back)).DistinctKeys :=
    (hkeys.replace other).filter _
  obtain ⟨hkept, htexts⟩ := metadata_of_accepted hkeys hread
  rw [hkept, Vocabulary.entriesOf_around hrole, if_pos rfl] at htexts
  refine ⟨vocabulary.entriesOf registry.resolver .metadata (front ++ (key, other) :: back), ?_, ?_⟩
  · rw [Vocabulary.entriesOf_around hrole, if_pos rfl]
    simp
  · refine StepReader.readStep_of_replaced hrole hread ?_
    change validateMetadata (YamlMapping.ofEntries (vocabulary.entriesOf registry.resolver .metadata
      (front ++ (key, other) :: back))) addr = _
    rw [YamlMapping.ofEntries_of_distinct hreplaced]
    refine (validateMetadata_of_distinct hreplaced).mpr ⟨rfl, fun name hname => htexts name ?_⟩
    -- The plain name is another entry than the replaced one.
    have hne : (.str "name", name) ≠ (key, other) := fun heq => hplain (Prod.mk.inj heq).1.symm
    rw [Vocabulary.entriesOf_around hrole, if_pos rfl] at hname
    simp only [List.mem_append, List.mem_singleton, hne, or_false] at hname
    simp only [List.mem_append]
    exact hname.imp_left .inl

end

/-- In an accepted mapping a plain name is a text. So all that reads as a name is a text
exactly when the names under tags are, and these are accepted with any value. -/
theorem accepted_names (registry : Registry Recorder String) (ordering : CyclePolicy)
    (entries : YamlMapping) (addr : Address) (step : TextStep) (hkeys : entries.DistinctKeys)
    (hread : (readerOver registry ordering).readStep (.map entries) addr = .ok step) :
    (∀ entry ∈ step.metadata, entry.1 = .str "name" → entry.2.text?.isSome = true) ∧
      ((∀ entry ∈ step.metadata, entry.1.text? = some "name" → entry.2.text?.isSome = true) ↔
        ∀ entry ∈ entries, entry.1.TextUnderTag "name" → entry.2.text?.isSome = true) ∧
      ∀ front key value back, entries = front ++ (key, value) :: back →
        key.TextUnderTag "name" → ∀ other, ∃ metadata, (key, other) ∈ metadata ∧
          (readerOver registry ordering).readStep (.map (front ++ (key, other) :: back)) addr =
            .ok { step with metadata } := by
  have hplain : ∀ entry ∈ step.metadata, entry.1 = .str "name" → entry.2.text?.isSome = true := by
    rintro ⟨-, value⟩ hmem rfl
    exact (metadata_of_accepted hkeys hread).2 value hmem
  refine ⟨hplain, ⟨?_, ?_⟩, ?_⟩
  · intro hall entry hmem htagged
    exact hall entry ((mem_metadata_of_name hkeys hread htagged.1).mpr hmem) htagged.1
  · intro htagged entry hmem htext
    by_cases hkey : entry.1 = .str "name"
    · exact hplain entry hmem hkey
    · exact htagged entry ((mem_metadata_of_name hkeys hread htext).mp hmem) ⟨htext, hkey⟩
  · rintro front key value back rfl htagged other
    exact readStep_of_tagged_name hkeys hread htagged other

/-- A name under a tag that is no text. -/
def taggedName : YamlMapping :=
  [(.tagged "!x" (.str "name"), .int 7), (.str "echo", .str "hi")]

/-- The same beside a plain name. -/
def namedTwice : YamlMapping :=
  (.str "name", .str "shout") :: taggedName

theorem taggedName_textUnderTag :
    (Yaml.tagged "!x" (.str "name")).TextUnderTag "name" :=
  ⟨rfl, fun heq => nomatch heq⟩

theorem namedTwice_names :
    namedTwice.DistinctKeys ∧ (Yaml.tagged "!x" (.str "name")).TextUnderTag "name" ∧
      ∃ step metadata,
        (readerOver builtins .lenient).readStep (.map namedTwice) (Address.root "steps.yaml") =
            .ok step ∧
          (Yaml.str "shout").text?.isSome = true ∧
          ¬ (∀ entry ∈ step.metadata, entry.1.text? = some "name" →
            entry.2.text?.isSome = true) ∧
          (.tagged "!x" (.str "name"), .null) ∈ metadata ∧
          (readerOver builtins .lenient).readStep
              (.map [(.str "name", .str "shout"), (.tagged "!x" (.str "name"), .null),
                (.str "echo", .str "hi")])
              (Address.root "steps.yaml") = .ok { step with metadata } := by
  have hkeys : namedTwice.DistinctKeys := by
    unfold YamlMapping.DistinctKeys
    decide +kernel
  have hseen : ((readerOver builtins .lenient).readStep (.map namedTwice)
      (Address.root "steps.yaml")).map Step.metadata =
        .ok [(.str "name", .str "shout"), (.tagged "!x" (.str "name"), .int 7)] := by
    cbv
  obtain ⟨step, hok, hmetadata⟩ := exists_ok_of_map hseen
  obtain ⟨hplain, hnames, hunseen⟩ :=
    accepted_names builtins .lenient namedTwice (Address.root "steps.yaml") step hkeys hok
  have hshout := hplain (.str "name", .str "shout") (by simp [hmetadata]) rfl
  have hseven : ¬ (∀ entry ∈ step.metadata, entry.1.text? = some "name" →
      entry.2.text?.isSome = true) := by
    rw [hnames]
    intro hall
    have htext := hall (.tagged "!x" (.str "name"), .int 7) (by simp [namedTwice, taggedName])
      taggedName_textUnderTag
    cases htext
  obtain ⟨metadata, hmem, hread⟩ :=
    hunseen [(.str "name", .str "shout")] _ _ _ rfl taggedName_textUnderTag .null
  exact ⟨hkeys, taggedName_textUnderTag, step, metadata, hok, hshout, hseven, hmem, hread⟩

theorem taggedName_not_text :
    taggedName.DistinctKeys ∧
      ∃ step, (readerOver builtins .lenient).readStep (.map taggedName)
            (Address.root "steps.yaml") = .ok step ∧
        ∃ entry ∈ step.metadata, entry.1.text? = some "name" ∧ entry.2.text? = none := by
  have hkeys : taggedName.DistinctKeys := by
    unfold YamlMapping.DistinctKeys
    decide +kernel
  have hseen : ((readerOver builtins .lenient).readStep (.map taggedName)
      (Address.root "steps.yaml")).map Step.metadata =
        .ok [(.tagged "!x" (.str "name"), .int 7)] := by
    cbv
  obtain ⟨step, hok, hmetadata⟩ := exists_ok_of_map hseen
  have hmem : (.tagged "!x" (.str "name"), .int 7) ∈ step.metadata := by simp [hmetadata]
  exact ⟨hkeys, step, hok, _, hmem, rfl, rfl⟩

end Scripted

end StepChain
