import StepChain.Proofs.Description.Origins
import StepChain.Proofs.Description.Rejection
import StepChain.Proofs.Evaluation.Ending
import StepChain.Proofs.Reading.Expansion
import StepChain.Proofs.Reading.Lists

/-!
# Lists of built-in steps

The only eager built-in action is `include`, and of the modifiers it works with `skip` only.
A call of such a step depends on nothing but its description: it gives the included
descriptions as a document, skips the step, or fails for want of such a document.
-/

namespace StepChain

variable {σ α μ : Type}

/-! ## Calls that leave the context alone -/

/-- A modifier that skips the step or lets it go on, hands on what comes back and has
nothing to do with the context. -/
structure Modifier.Quiet (modifier : Modifier σ α) : Prop where
  pre : (∀ told ctx, modifier.pre told ctx = .done (.ok ()) ctx) ∨
    ∀ told ctx, modifier.pre told ctx = .done (.error .skip) ctx
  post : ∀ told outcome ctx, modifier.post told outcome ctx = .done (.ok outcome) ctx

theorem nest_quiet {action : Action σ α} {answer : Except Failure α}
    (hcall : ∀ told ctx, action.call told ctx = .done answer ctx) (pending : List (Modifier σ α))
    (hquiet : ∀ modifier ∈ pending, modifier.Quiet) :
    ∃ outcome, (outcome = .skipped ∨ outcome = Outcome.ofExcept answer) ∧
      ∀ view again applied ctx, ∃ events,
        nest view action again applied pending ctx = some { answer := outcome, ctx, events } := by
  induction pending with
  | nil =>
      refine ⟨Outcome.ofExcept answer, .inr rfl, fun view again applied ctx => ?_⟩
      have hobserve : action.observeCall again view ctx =
          some ⟨answer, ctx, [.actionCall action view ctx, .actionReturn action answer ctx]⟩ := by
        rw [Action.observeCall, hcall]
        rfl
      exact ⟨_, nest_nil hobserve⟩
  | cons modifier rest ih =>
      obtain ⟨hmodifier, hrest⟩ := List.forall_mem_cons.mp hquiet
      obtain ⟨outcome, houtcome, hinner⟩ := ih hrest
      have hpre : ∀ {answer}, (∀ told ctx, modifier.pre told ctx = .done answer ctx) →
          ∀ again told ctx, modifier.observePre again told ctx =
            some ⟨answer, ctx, [.preCall modifier told ctx, .preReturn modifier answer ctx]⟩ := by
        intro answer hanswer again told ctx
        rw [Modifier.observePre, hanswer]
        rfl
      have hpost : ∀ again told outcome ctx, modifier.observePost again told outcome ctx =
          some ⟨.ok outcome, ctx, [.postCall modifier told outcome ctx,
            .postReturn modifier (.ok outcome) ctx]⟩ := by
        intro again told outcome ctx
        rw [Modifier.observePost, hmodifier.post]
        rfl
      rcases hmodifier.pre with hproceeds | hskips
      · refine ⟨outcome, houtcome, fun view again applied ctx => ?_⟩
        obtain ⟨events, hnest⟩ := hinner view again (applied ++ [modifier]) ctx
        exact ⟨_, nest_enclosed (hpre hproceeds ..) rfl hnest (hpost ..)⟩
      · exact ⟨.skipped, .inl rfl, fun view again applied ctx =>
          ⟨_, nest_interrupted (hpre hskips ..) rfl⟩⟩

/-- A step of quiet modifiers is skipped or ends as its action does, in every context. -/
theorem Step.call_quiet {step : Step σ α μ} {answer : Except Failure α}
    (hcall : ∀ told ctx, step.action.call told ctx = .done answer ctx)
    (hquiet : ∀ modifier ∈ step.modifiers, modifier.Quiet) :
    ∃ result, (result = .ok none ∨ result = answer.map some) ∧
      ∀ ctx, step.call ctx = (result, ctx) := by
  obtain ⟨outcome, houtcome, hnest⟩ := nest_quiet hcall step.modifiers hquiet
  refine ⟨outcome.toExcept, ?_, fun ctx => ?_⟩
  · rcases houtcome with rfl | rfl
    · exact .inl rfl
    · cases answer with
      | error failure => exact .inr rfl
      | ok value => exact .inr rfl
  · obtain ⟨events, hreport⟩ := hnest step.view _ [] ctx
    exact (step.call_of_nestWithin hreport []).1

namespace Scripted

/-! ## Built-in items -/

/-- What is found among two names is what stands under one of them. -/
theorem found_of_two {ι : Type} {name first second : String} {one two found : ι}
    {missing : NotFound}
    (hfound : (if name = second then .ok two
      else if name = first then .ok one else .error missing : Except NotFound ι) = .ok found) :
    name = first ∧ found = one ∨ name = second ∧ found = two := by
  by_cases hsecond : name = second
  · rw [if_pos hsecond] at hfound
    exact .inr ⟨hsecond, (Except.ok.inj hfound).symm⟩
  · rw [if_neg hsecond] at hfound
    by_cases hfirst : name = first
    · rw [if_pos hfirst] at hfound
      exact .inl ⟨hfirst, (Except.ok.inj hfound).symm⟩
    · rw [if_neg hfirst] at hfound
      cases hfound

theorem builtins_action {name : String} {factory : Factory (Action Recorder String)}
    (hfound : builtins.resolver.action vocabulary.actionSpace name = .ok factory) :
    name = "echo" ∧ factory = Builtin.echoType.construct ∨
      name = "include" ∧ factory = Builtin.includeType.construct := by
  have hfind : builtins.findAction vocabulary.actionSpace name =
      if name = "include" then .ok Builtin.includeType.construct
      else if name = "echo" then .ok Builtin.echoType.construct
      else .error { kind := .action, space := vocabulary.actionSpace, name } := by
    simp only [builtins, Registry.findAction_addModifier, Registry.findAction_addAction, true_and]
    rfl
  exact found_of_two (hfind.symm.trans hfound)

theorem builtins_modifier {name : String} {factory : Factory (Modifier Recorder String)}
    (hfound : builtins.resolver.modifier vocabulary.modifierSpace name = .ok factory) :
    name = "upper" ∧ factory = Builtin.upperType.construct ∨
      name = "skip" ∧ factory = Builtin.skipType.construct := by
  have hfind : builtins.findModifier vocabulary.modifierSpace name =
      if name = "skip" then .ok Builtin.skipType.construct
      else if name = "upper" then .ok Builtin.upperType.construct
      else .error { kind := .modifier, space := vocabulary.modifierSpace, name } := by
    simp only [builtins, Registry.findModifier_addModifier, Registry.findModifier_addAction,
      true_and]
    rfl
  exact found_of_two (hfind.symm.trans hfound)

/-! ## Reports of built-in items -/

theorem error_of_bind_ok {ι κ : Type} {made : Except StepError ι} {next : ι → κ}
    {error : StepError} (herror : (do let item ← made; Except.ok (next item)) = .error error) :
    made = .error error := by
  cases made with
  | error found => exact congrArg Except.error (Except.error.inj herror)
  | ok item => cases herror

theorem construct_within {ι : Type} (type : ItemType ι) (hvalidate : type.validate.ReportsWithin) :
    type.construct.ReportsWithin :=
  fun herror => hvalidate (error_of_bind_ok herror)

theorem decodeConfig_within {ι : Type} (decode : Decoder ι) :
    (decodeConfig decode).ReportsWithin := by
  intro name value addr error herror
  unfold decodeConfig at herror
  split at herror
  · cases herror
  · cases herror
    exact .of_address rfl

theorem invalidValue_within {ι : Type} {addr : Address} {message : String} {error : StepError}
    (herror : (Builtin.invalidValue addr message : Except StepError ι) = .error error) :
    error.Within addr := by
  cases herror
  exact .of_address rfl

theorem echoType_within : Builtin.echoType.construct.ReportsWithin :=
  construct_within Builtin.echoType fun herror =>
    decodeConfig_within (Yaml.decodeOption Yaml.decodeText) (error_of_bind_ok herror)

theorem includeType_within : Builtin.includeType.construct.ReportsWithin := by
  refine construct_within Builtin.includeType ?_
  intro name value addr error herror
  simp only [Builtin.includeType] at herror
  split at herror
  · cases herror
  · exact invalidValue_within herror

theorem upperType_within : Builtin.upperType.construct.ReportsWithin := by
  refine construct_within Builtin.upperType ?_
  intro name value addr error herror
  simp only [Builtin.upperType] at herror
  split at herror
  · cases herror
  · exact invalidValue_within herror

theorem skipType_within : Builtin.skipType.construct.ReportsWithin :=
  construct_within Builtin.skipType (decodeConfig_within Yaml.decodeBool)

theorem vocabulary_within : vocabulary.ReportsWithin builtins.resolver where
  action := by
    intro name factory hfound
    rcases builtins_action hfound with ⟨-, rfl⟩ | ⟨-, rfl⟩
    · exact echoType_within
    · exact includeType_within
  modifier := by
    intro name factory hfound
    rcases builtins_modifier hfound with ⟨-, rfl⟩ | ⟨-, rfl⟩
    · exact upperType_within
    · exact skipType_within
  metadata := by
    intro metadata addr error herror
    change validateMetadata metadata addr = .error error at herror
    unfold validateMetadata at herror
    split at herror
    · split at herror
      · cases herror
      · cases herror
        exact StepError.Within.of_key (.of_address rfl)
    · cases herror

/-! ## Calls of eager built-in steps -/

/-- The reader of built-in items under a policy. -/
def builtinReaderUnder (policy : CyclePolicy) : StepReader Recorder String YamlMapping :=
  { builtinReader with ordering := policy }

theorem includeType_made {name : String} {listed : Yaml} {addr : Address}
    {action : Action Recorder String}
    (hmade : Builtin.includeType.construct name listed addr = .ok action) (told : StepView)
    (log : Recorder) : action.call told log = .done (Builtin.includedText listed) log := by
  unfold ItemType.construct at hmade
  cases hvalid : Builtin.includeType.validate name listed addr with
  | error error => simp [hvalid, bind, Except.bind] at hmade
  | ok config =>
      simp only [hvalid, bind, Except.bind] at hmade
      obtain rfl := Except.ok.inj hmade
      simp only [Builtin.includeType, Builtin.invalidValue] at hvalid
      split at hvalid
      · obtain rfl := Except.ok.inj hvalid
        rfl
      · cases hvalid

theorem skipType_quiet {name : String} {value : Yaml} {addr : Address}
    {modifier : Modifier Recorder String}
    (hmade : Builtin.skipType.construct name value addr = .ok modifier) : modifier.Quiet := by
  obtain ⟨skips, rfl⟩ := ItemType.construct_eq_ok hmade
  constructor
  · cases skips with
    | true => exact .inr fun _ _ => rfl
    | false => exact .inl fun _ _ => rfl
  · exact fun _ _ _ => rfl

theorem upperType_lazy {name : String} {value : Yaml} {addr : Address}
    {modifier : Modifier Recorder String}
    (hmade : Builtin.upperType.construct name value addr = .ok modifier) :
    modifier.hints.restriction.allows (.ofEager true) = false := by
  obtain ⟨-, rfl⟩ := ItemType.construct_eq_ok hmade
  rfl

/-- An eager built-in step includes what its description lists: in every context its call
gives this as a document, fails as the document does, or skips. -/
theorem call_of_eager {policy : CyclePolicy} {raw : Yaml} {addr : Address} {step : TextStep}
    (hread : (builtinReaderUnder policy).readStep raw addr = .ok step)
    (heager : step.eager = true) :
    ∃ listed result, raw.Gives "include" listed ∧
      (result = .ok none ∨ result = (Builtin.includedText listed).map some) ∧
      ∀ ctx, step.call ctx = (result, ctx) := by
  obtain ⟨⟨name, listed, factory, hgives, hfound, hmade⟩, hmodifiers⟩ :=
    StepReader.items_of_readStep hread
  have hinclude : name = "include" ∧ factory = Builtin.includeType.construct := by
    rcases builtins_action hfound with ⟨-, rfl⟩ | hinclude
    · obtain ⟨text, haction⟩ := ItemType.construct_eq_ok hmade
      rw [Step.eager, haction] at heager
      cases heager
    · exact hinclude
  obtain ⟨rfl, rfl⟩ := hinclude
  have hquiet : ∀ modifier ∈ step.modifiers, modifier.Quiet := by
    intro modifier hmodifier
    obtain ⟨⟨other, value, maker, -, hmaker, hother⟩, hallows⟩ := hmodifiers modifier hmodifier
    rcases builtins_modifier hmaker with ⟨-, rfl⟩ | ⟨-, rfl⟩
    · have hclass : step.action.actionClass = .ofEager true := congrArg _ heager
      rw [hclass, upperType_lazy hother] at hallows
      cases hallows
    · exact skipType_quiet hother
  obtain ⟨result, hresult, hcall⟩ := Step.call_quiet (includeType_made hmade) hquiet
  exact ⟨listed, result, hgives, hresult, hcall⟩

/-! ## Actions alone -/

/-- An action and nothing else, at the address of its description. -/
def bareStep (action : Action Recorder String) (addr : Address) : TextStep :=
  { action, modifiers := [], metadata := [], address := addr }

/-- The step of the bare name `echo`. -/
def echoStep (addr : Address) : TextStep :=
  bareStep (Builtin.echoType.assemble { name := "echo", address := addr.key "echo" } "") addr

/-- The step that includes some descriptions. -/
def includeStep (listed : Yaml) (addr : Address) : TextStep :=
  bareStep (Builtin.includeType.assemble { name := "include", address := addr.key "include" }
    listed) addr

theorem readStep_echo (policy : CyclePolicy) (addr : Address) :
    (builtinReaderUnder policy).readStep (.str "echo") addr = .ok (echoStep addr) :=
  Vocabulary.assemble_bare rfl

theorem readItem_echo (policy : CyclePolicy) (addr : Address) (ctx : Recorder) :
    (builtinReaderUnder policy).readItem (.str "echo") addr ctx = (.ok [echoStep addr], ctx) := by
  rw [StepReader.readItem, readStep_echo]
  rfl

theorem readStep_include (policy : CyclePolicy) {listed : Yaml}
    (hlisted : listed.items?.isSome = true) (addr : Address) :
    (builtinReaderUnder policy).readStep (.map [(.str "include", listed)]) addr =
      .ok (includeStep listed addr) := by
  have hfound : builtins.resolver.action vocabulary.actionSpace "include" =
      .ok Builtin.includeType.construct := rfl
  have hkey : "include" ∉ vocabulary.metadataKeys := by decide
  have hmade : Builtin.includeType.construct "include" listed (addr.key "include") =
      .ok (includeStep listed addr).action := by
    simp only [ItemType.construct, Builtin.includeType, hlisted, if_true, bind, Except.bind]
    rfl
  have hadds : vocabulary.Adds builtins.resolver addr {} (.str "include", listed)
      { action := some (includeStep listed addr).action } :=
    .action rfl ⟨"include", _, ⟨rfl, hkey, hfound⟩, hmade⟩
  have hparts : vocabulary.parts builtins.resolver addr [(.str "include", listed)] =
      .ok { action := some (includeStep listed addr).action } := by
    rw [Vocabulary.parts, List.foldlM_cons, hadds.addEntry_eq]
    rfl
  have hassemble : vocabulary.assemble policy addr (includeStep listed addr).action .empty [] =
      .ok (includeStep listed addr) := Vocabulary.assemble_bare rfl
  change vocabulary.readStep builtins.resolver policy _ addr = _
  simp only [Vocabulary.readStep, hparts, bind, Except.bind]
  exact hassemble

/-- An `include` alone stands for what its document expands to. -/
theorem readItem_include (policy : CyclePolicy) {listed : Yaml}
    (hlisted : listed.items?.isSome = true) (addr : Address) (ctx : Recorder) :
    (builtinReaderUnder policy).readItem (.map [(.str "include", listed)]) addr ctx =
      ((Builtin.includedText listed).bind fun text => expand text addr, ctx) := by
  have hcall : (includeStep listed addr).call ctx =
      ((Outcome.ofExcept (Builtin.includedText listed)).toExcept, ctx) := rfl
  simp only [StepReader.readItem, readStep_include policy hlisted, hcall]
  cases Builtin.includedText listed <;> rfl

end Scripted

end StepChain
