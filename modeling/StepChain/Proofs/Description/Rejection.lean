import StepChain.Proofs.Description.Assembly
import StepChain.Proofs.Description.Entries
import StepChain.Scripted.Dialect

/-!
# Rejected descriptions

Of everything that is wrong with a mapping one thing is reported: the first entry at
fault, whatever comes after it, or else the first check of the parts that fails. The
error tells what it is, and the two actions by their keys.
-/

namespace StepChain

variable {σ α μ : Type}

/-! ## Actions named by their keys -/

/-- The factories name each action as they are told. -/
def Resolver.NamesActions (resolver : Resolver σ α) : Prop :=
  ∀ space name factory value addr action, resolver.action space name = .ok factory →
    factory name value addr = .ok action → action.name = name

theorem ItemType.construct_eq_ok {ι : Type} {type : ItemType ι} {name : String} {raw : Yaml}
    {addr : Address} {item : ι} (hmade : type.construct name raw addr = .ok item) :
    ∃ config, item = type.assemble { name, address := addr } config := by
  unfold construct at hmade
  cases hvalid : type.validate name raw addr with
  | error error => simp [hvalid, bind, Except.bind] at hmade
  | ok config => exact ⟨config, by simpa [hvalid, bind, Except.bind, eq_comm] using hmade⟩

namespace Registry

theorem namesActions_empty : (empty : Registry σ α).resolver.NamesActions := by
  intro space name factory value addr action hfound
  cases hfound

theorem namesActions_addAction {registry : Registry σ α} {registered key : String}
    {factory : Factory (Action σ α)} (hnames : registry.resolver.NamesActions)
    (hfactory : ∀ value addr action, factory key value addr = .ok action → action.name = key) :
    (registry.addAction registered key factory).resolver.NamesActions := by
  intro space name found value addr action hfound hmade
  have hregister := FactoryTable.resolve_register registry.actions .action registered space key
    name factory
  change (registry.actions.register registered key factory).resolve .action space name = .ok found
    at hfound
  rw [hregister] at hfound
  split at hfound
  · rename_i hkey
    obtain rfl : factory = found := Except.ok.inj hfound
    rw [hkey.2] at hmade ⊢
    exact hfactory value addr action hmade
  · exact hnames space name found value addr action hfound hmade

theorem namesActions_addModifier {registry : Registry σ α}
    (hnames : registry.resolver.NamesActions) (space name : String)
    (factory : Factory (Modifier σ α)) :
    (registry.addModifier space name factory).resolver.NamesActions :=
  hnames

end Registry

namespace Vocabulary

/-! ## Faults of entries -/

/-- What is wrong with an entry, after others that are in order. A second action is at
fault before its configuration is looked at. -/
inductive EntryFault (vocabulary : Vocabulary μ) (resolver : Resolver σ α) (addr : Address)
    (front : YamlMapping) (entry : Yaml × Yaml) : StepError → Prop where
  | nameless (htext : entry.1.text? = none) :
      EntryFault vocabulary resolver addr front entry
        { code := 1001
          message :=
            "Step must be an action name or a mapping, found a mapping with a non-string key"
          address := some addr
          causes := [] }
  | secondAction {first : Yaml × Yaml} {name existing : String}
      (hrole : vocabulary.role? resolver entry.1 = some .action)
      (htext : entry.1.text? = some name)
      (hfirst : first ∈ vocabulary.entriesOf resolver .action front)
      (hexisting : first.1.text? = some existing) :
      EntryFault vocabulary resolver addr front entry
        { code := 1003
          message := "Multiple actions " ++ ("\"" ++ name ++ "\"") ++ " and " ++
            ("\"" ++ existing ++ "\"") ++ " specified in step"
          address := some addr
          causes := [] }
  | actionFails {name : String} {factory : Factory (Action σ α)} {error : StepError}
      (hfirst : vocabulary.entriesOf resolver .action front = [])
      (hnames : vocabulary.NamesAction resolver entry.1 name factory)
      (hfails : factory name entry.2 (addr.key name) = .error error) :
      EntryFault vocabulary resolver addr front entry error
  | modifierFails {name : String} {factory : Factory (Modifier σ α)} {error : StepError}
      (hnames : vocabulary.NamesModifier resolver entry.1 name factory)
      (hfails : factory name entry.2 (addr.key name) = .error error) :
      EntryFault vocabulary resolver addr front entry error
  | unknown {name : String} (hnames : vocabulary.NamesNothing resolver entry.1 name) :
      EntryFault vocabulary resolver addr front entry
        { code := 1002
          message := "Unknown action or modifier " ++ ("\"" ++ name ++ "\"")
          address := some addr
          causes := [] }

def Faultless (vocabulary : Vocabulary μ) (resolver : Resolver σ α) (addr : Address)
    (entries : YamlMapping) : Prop :=
  ∀ front entry back error, entries = front ++ entry :: back →
    ¬ vocabulary.EntryFault resolver addr front entry error

def FirstFault (vocabulary : Vocabulary μ) (resolver : Resolver σ α) (addr : Address)
    (entries : YamlMapping) (error : StepError) : Prop :=
  ∃ front entry back, entries = front ++ entry :: back ∧
    vocabulary.Faultless resolver addr front ∧
      vocabulary.EntryFault resolver addr front entry error

/-- What is wrong with entries none of which is at fault. -/
inductive LateFault (vocabulary : Vocabulary μ) (resolver : Resolver σ α) (policy : CyclePolicy)
    (addr : Address) (entries : YamlMapping) : StepError → Prop where
  | noAction (hnone : vocabulary.entriesOf resolver .action entries = []) :
      LateFault vocabulary resolver policy addr entries
        { code := 1004, message := "No action specified", address := some addr, causes := [] }
  | assembly {action : Action σ α} {made : List (String × Modifier σ α)} {error : StepError}
      (hdescribes : vocabulary.Describes resolver addr entries action made)
      (hfault : vocabulary.AssemblyFault policy addr action (NameMap.ofList made)
        (YamlMapping.ofEntries (vocabulary.entriesOf resolver .metadata entries)) error) :
      LateFault vocabulary resolver policy addr entries error

section

variable {vocabulary : Vocabulary μ} {resolver : Resolver σ α} {policy : CyclePolicy}
  {addr : Address} {front entries : YamlMapping} {entry : Yaml × Yaml} {parts : Parts σ α}
  {error : StepError}

theorem Amounts.action_eq_none_iff
    (hamounts : vocabulary.Amounts resolver addr entries parts) :
    parts.action = none ↔ vocabulary.entriesOf resolver .action entries = [] := by
  have hmakes := hamounts.action
  constructor
  · intro hnone
    simpa [hnone] using hmakes
  · intro hnone
    rw [hnone, List.forall₂_nil_left_iff, Option.toList_eq_nil_iff] at hmakes
    exact hmakes

/-- The action that is there already has the key of its entry as its name. -/
theorem Amounts.existing_iff (hnames : resolver.NamesActions)
    (hamounts : vocabulary.Amounts resolver addr entries parts) (existing : String) :
    (∃ action, parts.action = some action ∧ action.name = existing) ↔
      ∃ first ∈ vocabulary.entriesOf resolver .action entries,
        first.1.text? = some existing := by
  have hmakes := hamounts.action
  constructor
  · rintro ⟨action, haction, rfl⟩
    rw [haction, Option.toList_some] at hmakes
    obtain ⟨first, rest, ⟨name, factory, hfirst, hmade⟩, -, hsplit⟩ :=
      List.forall₂_cons_right_iff.mp hmakes
    have hname : action.name = name :=
      hnames _ name factory first.2 _ action hfirst.found hmade
    rw [hsplit, hname]
    exact ⟨first, List.mem_cons_self, hfirst.text⟩
  · rintro ⟨first, hmem, htext⟩
    cases haction : parts.action with
    | none => simp [hamounts.action_eq_none_iff.mp haction] at hmem
    | some action =>
        rw [haction, Option.toList_some] at hmakes
        obtain ⟨only, rest, ⟨name, factory, honly, hmade⟩, hrest, hsplit⟩ :=
          List.forall₂_cons_right_iff.mp hmakes
        obtain rfl : rest = [] := List.forall₂_nil_right_iff.mp hrest
        rw [hsplit, List.mem_singleton] at hmem
        obtain rfl : name = existing := by
          rw [hmem, honly.text] at htext
          exact Option.some.inj htext
        exact ⟨action, rfl, hnames _ name factory only.2 _ action honly.found hmade⟩

theorem rejects_iff_entryFault (hnames : resolver.NamesActions)
    (hamounts : vocabulary.Amounts resolver addr front parts) :
    vocabulary.Rejects resolver addr parts entry error ↔
      vocabulary.EntryFault resolver addr front entry error := by
  constructor
  · intro hrejects
    cases hrejects with
    | nameless htext => exact .nameless htext
    | @secondAction name factory existing haction hexisting =>
        obtain ⟨first, hfirst, htext⟩ :=
          (hamounts.existing_iff hnames existing.name).mp ⟨existing, hexisting, rfl⟩
        exact .secondAction haction.role haction.text hfirst htext
    | actionFails hfirst haction hfails =>
        exact .actionFails (hamounts.action_eq_none_iff.mp hfirst) haction hfails
    | modifierFails hmodifier hfails => exact .modifierFails hmodifier hfails
    | unknown hnothing => exact .unknown hnothing
  · intro hfault
    cases hfault with
    | nameless htext => exact .nameless htext
    | @secondAction first name existing hrole htext hfirst hexisting =>
        obtain ⟨action, haction, hname⟩ :=
          (hamounts.existing_iff hnames existing).mpr ⟨first, hfirst, hexisting⟩
        obtain ⟨other, factory, hentry⟩ := role?_eq_action_iff.mp hrole
        obtain rfl : other = name := Option.some.inj (hentry.text.symm.trans htext)
        rw [← hname]
        exact .secondAction hentry haction
    | actionFails hfirst haction hfails =>
        exact .actionFails (hamounts.action_eq_none_iff.mpr hfirst) haction hfails
    | modifierFails hmodifier hfails => exact .modifierFails hmodifier hfails
    | unknown hnothing => exact .unknown hnothing

/-! ## The first fault -/

theorem faultless_iff (hnames : resolver.NamesActions) :
    vocabulary.Faultless resolver addr entries ↔
      ∃ parts, vocabulary.parts resolver addr entries = .ok parts := by
  constructor
  · intro hfaultless
    cases hparts : vocabulary.parts resolver addr entries with
    | ok parts => exact ⟨parts, rfl⟩
    | error error =>
        obtain ⟨front, entry, back, parts, hsplit, hfront, hrejects⟩ :=
          parts_eq_error_iff.mp hparts
        have hfault : vocabulary.EntryFault resolver addr front entry error :=
          (rejects_iff_entryFault hnames (parts_eq_ok_iff.mp hfront)).mp hrejects
        exact absurd hfault (hfaultless front entry back error hsplit)
  · rintro ⟨parts, hparts⟩ front entry back error rfl hfault
    cases hfront : vocabulary.parts resolver addr front with
    -- An error in front of the entry would have been the error of all entries.
    | error earlier => cases (parts_append_of_error (entry :: back) hfront).symm.trans hparts
    | ok before =>
        have hrejects : vocabulary.Rejects resolver addr before entry error :=
          (rejects_iff_entryFault hnames (parts_eq_ok_iff.mp hfront)).mpr hfault
        have herror : vocabulary.parts resolver addr (front ++ entry :: back) = .error error :=
          parts_eq_error_iff.mpr ⟨front, entry, back, before, rfl, hfront, hrejects⟩
        cases herror.symm.trans hparts

theorem parts_eq_error_iff_firstFault (hnames : resolver.NamesActions) :
    vocabulary.parts resolver addr entries = .error error ↔
      vocabulary.FirstFault resolver addr entries error := by
  rw [parts_eq_error_iff]
  constructor
  · rintro ⟨front, entry, back, parts, hsplit, hfront, hrejects⟩
    exact ⟨front, entry, back, hsplit, (faultless_iff hnames).mpr ⟨parts, hfront⟩,
      (rejects_iff_entryFault hnames (parts_eq_ok_iff.mp hfront)).mp hrejects⟩
  · rintro ⟨front, entry, back, hsplit, hfaultless, hfault⟩
    obtain ⟨parts, hfront⟩ := (faultless_iff hnames).mp hfaultless
    exact ⟨front, entry, back, parts, hsplit, hfront,
      (rejects_iff_entryFault hnames (parts_eq_ok_iff.mp hfront)).mpr hfault⟩

theorem lateFault_iff (hparts : vocabulary.parts resolver addr entries = .ok parts) :
    vocabulary.readStep resolver policy (.map entries) addr = .error error ↔
      vocabulary.LateFault resolver policy addr entries error := by
  have hamounts : vocabulary.Amounts resolver addr entries parts := parts_eq_ok_iff.mp hparts
  constructor
  · intro herror
    cases haction : parts.action with
    | none =>
        rw [readStep_of_no_action policy hparts haction] at herror
        obtain rfl : Problem.missingAction.foundAt addr = error := Except.error.inj herror
        exact .noAction (hamounts.action_eq_none_iff.mp haction)
    | some action =>
        obtain ⟨made, hdescribes⟩ := hamounts.describes haction
        rw [hdescribes.readStep_eq] at herror
        exact .assembly hdescribes (assemble_eq_error_iff.mp herror)
  · intro hfault
    cases hfault with
    | noAction hnone =>
        exact readStep_of_no_action policy hparts (hamounts.action_eq_none_iff.mpr hnone)
    | assembly hdescribes hfault =>
        rw [hdescribes.readStep_eq, assemble_eq_error_iff]
        exact hfault

end

end Vocabulary

namespace StepReader

/-- A mapping that is rejected is reported by the first entry at fault, and what follows
this entry does not matter; only when there is none, by the first check that fails. -/
theorem readStep_map_rejects (reader : StepReader σ α μ)
    (hnames : reader.resolver.NamesActions) (addr : Address) :
    (∀ entries error, reader.readStep (.map entries) addr = .error error ↔
        reader.dialect.FirstFault reader.resolver addr entries error ∨
          reader.dialect.Faultless reader.resolver addr entries ∧
            reader.dialect.LateFault reader.resolver reader.ordering addr entries error) ∧
      ∀ front entry error, reader.dialect.Faultless reader.resolver addr front →
        reader.dialect.EntryFault reader.resolver addr front entry error →
          ∀ later, reader.readStep (.map (front ++ entry :: later)) addr = .error error := by
  have hfirst : ∀ entries error,
      reader.dialect.FirstFault reader.resolver addr entries error →
        reader.readStep (.map entries) addr = .error error := by
    intro entries error hfault
    exact Vocabulary.readStep_of_parts_error reader.ordering
      ((Vocabulary.parts_eq_error_iff_firstFault hnames).mpr hfault)
  refine ⟨fun entries error => ⟨fun herror => ?_, ?_⟩, ?_⟩
  · cases hparts : reader.dialect.parts reader.resolver addr entries with
    | error other =>
        have hother : reader.readStep (.map entries) addr = .error other :=
          Vocabulary.readStep_of_parts_error reader.ordering hparts
        obtain rfl : other = error := Except.error.inj (hother.symm.trans herror)
        exact .inl ((Vocabulary.parts_eq_error_iff_firstFault hnames).mp hparts)
    | ok parts =>
        exact .inr ⟨(Vocabulary.faultless_iff hnames).mpr ⟨parts, hparts⟩,
          (Vocabulary.lateFault_iff hparts).mp herror⟩
  · rintro (hfault | ⟨hfaultless, hfault⟩)
    · exact hfirst entries error hfault
    · obtain ⟨parts, hparts⟩ := (Vocabulary.faultless_iff hnames).mp hfaultless
      exact (Vocabulary.lateFault_iff hparts).mpr hfault
  · intro front entry error hfaultless hfault later
    exact hfirst _ error ⟨front, entry, later, rfl, hfaultless, hfault⟩

end StepReader

namespace Scripted

theorem builtins_namesActions : builtins.resolver.NamesActions := by
  have hecho : ∀ value addr action, Builtin.echoType.construct "echo" value addr = .ok action →
      action.name = "echo" := by
    intro value addr action hmade
    obtain ⟨text, rfl⟩ := ItemType.construct_eq_ok hmade
    rfl
  have hinclude : ∀ value addr action,
      Builtin.includeType.construct "include" value addr = .ok action →
        action.name = "include" := by
    intro value addr action hmade
    obtain ⟨steps, rfl⟩ := ItemType.construct_eq_ok hmade
    rfl
  apply Registry.namesActions_addModifier
  apply Registry.namesActions_addModifier
  apply Registry.namesActions_addAction _ hinclude
  exact Registry.namesActions_addAction Registry.namesActions_empty hecho

def builtinReader : StepReader Recorder String YamlMapping :=
  { dialect, resolver := builtins.resolver, ordering := .strict, distinct := dialect_distinct }

/-- An `include` of a number would be at fault itself, and so may be what comes later. -/
theorem includeAfterEcho_rejected :
    builtins.resolver.NamesActions ∧
      ∀ later,
        builtinReader.readStep
            (.map ([(.str "echo", .str "hi")] ++ (.str "include", .int 3) :: later))
            (Address.root "steps.yaml") =
          .error
            { code := 1003
              message := "Multiple actions \"include\" and \"echo\" specified in step"
              address := some (Address.root "steps.yaml")
              causes := [] } := by
  obtain ⟨-, hrejects⟩ :=
    builtinReader.readStep_map_rejects builtins_namesActions (Address.root "steps.yaml")
  have hecho : (builtinReader.dialect.parts builtinReader.resolver (Address.root "steps.yaml")
      [(.str "echo", .str "hi")]).isOk = true := by
    cbv
  have hfaultless : builtinReader.dialect.Faultless builtinReader.resolver
      (Address.root "steps.yaml") [(.str "echo", .str "hi")] := by
    refine (Vocabulary.faultless_iff builtins_namesActions).mpr ?_
    cases hparts : builtinReader.dialect.parts builtinReader.resolver
        (Address.root "steps.yaml") [(.str "echo", .str "hi")] with
    | ok parts => exact ⟨parts, hparts⟩
    | error error => simp [hparts, Except.isOk, Except.toBool] at hecho
  have hsecond : builtinReader.dialect.role? builtinReader.resolver (.str "include") =
      some .action := by
    cbv
  have hfirst : builtinReader.dialect.role? builtinReader.resolver (.str "echo") =
      some .action := by
    cbv
  have hmem : (.str "echo", .str "hi") ∈ builtinReader.dialect.entriesOf builtinReader.resolver
      .action [(.str "echo", .str "hi")] :=
    List.mem_filter.mpr ⟨List.mem_cons_self, decide_eq_true hfirst⟩
  have hmessage : "Multiple actions " ++ ("\"" ++ "include" ++ "\"") ++ " and " ++
      ("\"" ++ "echo" ++ "\"") ++ " specified in step" =
        "Multiple actions \"include\" and \"echo\" specified in step" := by
    decide +kernel
  refine ⟨builtins_namesActions, fun later => ?_⟩
  rw [← hmessage]
  exact hrejects _ _ _ hfaultless (.secondAction hsecond rfl hmem rfl) later

end Scripted

end StepChain
