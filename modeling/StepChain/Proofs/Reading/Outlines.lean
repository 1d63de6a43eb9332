import StepChain.Proofs.Description.Places
import StepChain.Proofs.Reading.Builtins

/-!
# What lists stand for, wherever they are

Built-in items do the same at every address and none has a say in the order of the others.
So the steps that a list of built-in descriptions stands for are determined up to their
addresses by the descriptions alone: neither the address of the list nor the positions in it,
nor the policy, nor the context matter.
-/

namespace StepChain.Scripted

variable {policy : CyclePolicy} {raw : Yaml} {addr : Address} {step : TextStep}

/-! ## Built-in items -/

theorem decodeConfig_anywhere {ι : Type} {decode : Decoder ι} {name : String} {addr : Address}
    {config : ι} (hok : decodeConfig decode name raw addr = .ok config) (other : Address) :
    decodeConfig decode name raw other = .ok config := by
  unfold decodeConfig at hok ⊢
  cases hdecode : decode raw with
  | error fault => simp [hdecode] at hok
  | ok found => simpa [hdecode] using hok

theorem invalidValue_anywhere {ι : Type} {allowed : Bool} {config found : ι} {message : String}
    {addr : Address}
    (hok : (if allowed then .ok config else Builtin.invalidValue addr message) = .ok found)
    (other : Address) :
    (if allowed then .ok config else Builtin.invalidValue other message) = .ok found := by
  cases allowed with
  | true => exact hok
  | false => cases hok

theorem echoType_anywhere : Builtin.echoType.construct.MakesAnywhere Action.unplaced := by
  apply ItemType.construct_anywhere
  · intro name raw addr text hok other
    simp only [Builtin.echoType] at hok ⊢
    cases hdecoded : decodeConfig (Yaml.decodeOption Yaml.decodeText) name raw addr with
    | error error => simp [hdecoded, bind, Except.bind] at hok
    | ok found =>
        rw [hdecoded] at hok
        rw [decodeConfig_anywhere hdecoded other]
        exact hok
  · intros
    rfl

theorem includeType_anywhere : Builtin.includeType.construct.MakesAnywhere Action.unplaced :=
  ItemType.construct_anywhere invalidValue_anywhere fun _ _ _ => rfl

theorem upperType_anywhere : Builtin.upperType.construct.MakesAnywhere Modifier.unplaced :=
  ItemType.construct_anywhere invalidValue_anywhere fun _ _ _ => rfl

theorem skipType_anywhere : Builtin.skipType.construct.MakesAnywhere Modifier.unplaced :=
  ItemType.construct_anywhere decodeConfig_anywhere fun _ _ _ => rfl

theorem vocabulary_anywhere : vocabulary.ReadsAnywhere builtins.resolver where
  action := by
    intro name factory hfound
    rcases builtins_action hfound with ⟨-, rfl⟩ | ⟨-, rfl⟩
    · exact echoType_anywhere
    · exact includeType_anywhere
  modifier := by
    intro name factory hfound
    rcases builtins_modifier hfound with ⟨-, rfl⟩ | ⟨-, rfl⟩
    · exact upperType_anywhere
    · exact skipType_anywhere
  metadata := by
    intro metadata addr accepted hok other
    exact validateMetadata_eq_ok_iff.mpr (validateMetadata_eq_ok_iff.mp hok)

/-- A modifier without requests that does not ask where it is, and may stand anywhere. -/
structure Independent (modifier : Modifier Recorder String) : Prop where
  plain : modifier.Plain
  placeless : modifier.Placeless
  unordered : modifier.hints.Unordered

theorem builtinAction_independent {name : String} {factory : Factory (Action Recorder String)}
    {value : Yaml} {action : Action Recorder String}
    (hfound : builtins.resolver.action vocabulary.actionSpace name = .ok factory)
    (hmade : factory name value addr = .ok action) : action.Plain ∧ action.Placeless := by
  rcases builtins_action hfound with ⟨-, rfl⟩ | ⟨-, rfl⟩
  · obtain ⟨text, rfl⟩ := ItemType.construct_eq_ok hmade
    exact ⟨fun _ _ => trivial, fun _ _ _ => rfl⟩
  · obtain ⟨listed, rfl⟩ := ItemType.construct_eq_ok hmade
    exact ⟨fun _ _ => trivial, fun _ _ _ => rfl⟩

theorem builtinModifier_independent {name : String}
    {factory : Factory (Modifier Recorder String)} {value : Yaml}
    {modifier : Modifier Recorder String}
    (hfound : builtins.resolver.modifier vocabulary.modifierSpace name = .ok factory)
    (hmade : factory name value addr = .ok modifier) : Independent modifier := by
  rcases builtins_modifier hfound with ⟨-, rfl⟩ | ⟨-, rfl⟩
  · obtain ⟨_, rfl⟩ := ItemType.construct_eq_ok hmade
    exact ⟨⟨fun _ _ => trivial, fun _ _ _ => trivial⟩, ⟨fun _ _ _ => rfl, fun _ _ _ _ => rfl⟩,
      rfl, rfl⟩
  · obtain ⟨_, rfl⟩ := ItemType.construct_eq_ok hmade
    exact ⟨⟨fun _ _ => trivial, fun _ _ _ => trivial⟩, ⟨fun _ _ _ => rfl, fun _ _ _ _ => rfl⟩,
      rfl, rfl⟩

theorem independent_of_readStep (hread : (builtinReaderUnder policy).readStep raw addr = .ok step) :
    (step.action.Plain ∧ step.action.Placeless) ∧
      ∀ modifier ∈ step.modifiers, Independent modifier := by
  obtain ⟨⟨name, value, factory, -, hfound, hmade⟩, hmodifiers⟩ :=
    StepReader.items_of_readStep hread
  refine ⟨builtinAction_independent hfound hmade, fun modifier hmodifier => ?_⟩
  obtain ⟨⟨name, value, factory, -, hfound, hmade⟩, -⟩ := hmodifiers modifier hmodifier
  exact builtinModifier_independent hfound hmade

theorem call_unplaced_of_readStep
    (hread : (builtinReaderUnder policy).readStep raw addr = .ok step) (ctx : Recorder) :
    step.unplaced.call ctx = step.call ctx := by
  obtain ⟨⟨hplain, hplaceless⟩, hmodifiers⟩ := independent_of_readStep hread
  have hforward : step.Forward := by
    intro position modifier hmodifier
    exact (hmodifiers modifier (List.mem_of_getElem? hmodifier)).plain.forward step.view position
  exact Step.call_unplaced hforward hplain hplaceless
    (fun modifier hmodifier => (hmodifiers modifier hmodifier).placeless) ctx

/-! ## Single descriptions -/

/-- What a description stands for, if anything, without a place. -/
def outline (raw : Yaml) : Option TextStep :=
  (readIncluded raw (.root "")).toOption.map Step.unplaced

theorem readStep_elsewhere (hread : (builtinReaderUnder policy).readStep raw addr = .ok step)
    (other : CyclePolicy) (elsewhere : Address) :
    ∃ moved, (builtinReaderUnder other).readStep raw elsewhere = .ok moved ∧
      moved.unplaced = step.unplaced := by
  obtain ⟨-, hmodifiers⟩ := independent_of_readStep hread
  have hunder : (builtinReaderUnder other).readStep raw addr = .ok step :=
    StepReader.readStep_under hread
      (fun modifier hmodifier => (hmodifiers modifier hmodifier).unordered) other
  exact StepReader.readStep_moved vocabulary_anywhere hunder elsewhere

theorem readStep_outline (policy : CyclePolicy) (raw : Yaml) (addr : Address) :
    ((builtinReaderUnder policy).readStep raw addr).toOption.map Step.unplaced = outline raw := by
  cases hread : (builtinReaderUnder policy).readStep raw addr with
  | ok step =>
      obtain ⟨moved, hmoved, hsame⟩ := readStep_elsewhere hread .lenient (.root "")
      have hincluded : readIncluded raw (.root "") = .ok moved := hmoved
      simp [outline, hincluded, Except.toOption, hsame]
  | error error =>
      cases hincluded : readIncluded raw (.root "") with
      | error _ => simp [outline, hincluded, Except.toOption]
      | ok step =>
          have hlenient : (builtinReaderUnder .lenient).readStep raw (.root "") = .ok step :=
            hincluded
          obtain ⟨moved, hmoved, -⟩ := readStep_elsewhere hlenient policy addr
          cases hread.symm.trans hmoved

/-! ## Lists of descriptions -/

/-- What a document with descriptions stands for. -/
def documentOutline (text : String) : Option (List TextStep) :=
  match Yaml.ofText text with
  | .error _ => none
  | .ok raw => raw.items?.bind fun items => items.mapM outline

/-- What one description adds to a list: itself, or what its call stands for. -/
def itemOutline (raw : Yaml) : Option (List TextStep) :=
  (outline raw).bind fun step =>
    if step.eager then
      match (step.call {}).1 with
      | .ok (some text) => documentOutline text
      | .ok none => some []
      | .error _ => none
    else some [step]

def listOutline (items : List Yaml) : Option (List TextStep) :=
  (items.mapM itemOutline).map List.flatten

/-- The steps of a result without their places. -/
def unplacedSteps {ε : Type} (result : Except ε (List TextStep)) : Option (List TextStep) :=
  result.toOption.map (List.map Step.unplaced)

theorem listOutline_cons (item : Yaml) (rest : List Yaml) :
    listOutline (item :: rest) =
      (itemOutline item).bind fun steps => (listOutline rest).map (steps ++ ·) := by
  unfold listOutline
  rw [List.mapM_cons]
  cases itemOutline item with
  | none => rfl
  | some steps => cases rest.mapM itemOutline <;> rfl

theorem listOutline_append (front back : List Yaml) :
    listOutline (front ++ back) =
      (listOutline front).bind fun steps => (listOutline back).map (steps ++ ·) := by
  induction front with
  | nil =>
      have hnil : listOutline [] = some [] := rfl
      cases hback : listOutline back <;> simp [hnil, hback]
  | cons item rest ih =>
      rw [List.cons_append, listOutline_cons, listOutline_cons, ih]
      cases itemOutline item with
      | none => rfl
      | some steps =>
          cases listOutline rest with
          | none => rfl
          | some more => cases listOutline back <;> simp

theorem expandItems_outline (addr : Address) (start : Nat) (items : List Yaml) :
    unplacedSteps (expandItems addr start items) = items.mapM outline := by
  induction items generalizing start with
  | nil => rfl
  | cons item rest ih =>
      have hfirst : (readIncluded item (addr.idx start)).toOption.map Step.unplaced =
          outline item :=
        readStep_outline .lenient item (addr.idx start)
      rw [expandItems_cons, List.mapM_cons, ← hfirst, ← ih (start + 1)]
      cases readIncluded item (addr.idx start) with
      | error error => rfl
      | ok step => cases expandItems addr (start + 1) rest <;> rfl

theorem expand_outline (text : String) (addr : Address) :
    unplacedSteps (expand text addr) = documentOutline text := by
  unfold expand documentOutline
  cases Yaml.ofText text with
  | error fault => rfl
  | ok raw =>
      cases hitems : raw.items? with
      | none => simp [hitems, unplacedSteps, Except.toOption]
      | some items =>
          simp only [hitems, Option.bind_some]
          rw [← expandItems_outline addr 0 items]
          cases expandItems addr 0 items <;> rfl

/-- What a description is read as is its outline at every address, in every context and under
every policy, and reading leaves the context as it was. -/
theorem readItem_outline (policy : CyclePolicy) (raw : Yaml) (addr : Address) (ctx : Recorder) :
    ∃ result, (builtinReaderUnder policy).readItem raw addr ctx = (result, ctx) ∧
      unplacedSteps result = itemOutline raw := by
  unfold itemOutline
  rw [← readStep_outline policy raw addr]
  unfold StepReader.readItem
  cases hread : (builtinReaderUnder policy).readStep raw addr with
  | error error => exact ⟨_, rfl, rfl⟩
  | ok step =>
      cases heager : step.eager with
      | false => exact ⟨.ok [step], by simp [heager], by simp [unplacedSteps, Except.toOption, heager]⟩
      | true =>
          obtain ⟨listed, result, -, -, hcall⟩ := call_of_eager hread heager
          have hunplaced : (step.unplaced.call {}).1 = result := by
            rw [call_unplaced_of_readStep hread, hcall]
          simp only [Except.toOption, Option.map_some, Option.bind_some, Step.eager_unplaced, heager,
            if_true, hcall, hunplaced]
          cases result with
          | error failure => exact ⟨_, rfl, rfl⟩
          | ok value =>
              cases value with
              | none => exact ⟨_, rfl, rfl⟩
              | some text => exact ⟨_, rfl, expand_outline text step.address⟩

theorem readItems_outline (policy : CyclePolicy) (addr : Address) (start : Nat)
    (items : List Yaml) (ctx : Recorder) :
    ∃ result, (builtinReaderUnder policy).readItems addr start items ctx = (result, ctx) ∧
      unplacedSteps result = listOutline items := by
  induction items generalizing start with
  | nil => exact ⟨_, rfl, rfl⟩
  | cons item rest ih =>
      obtain ⟨first, hfirst, houtline⟩ := readItem_outline policy item (addr.idx start) ctx
      obtain ⟨later, hlater, hrest⟩ := ih (start + 1)
      simp only [StepReader.readItems, hfirst]
      rw [listOutline_cons, ← houtline, ← hrest]
      cases first with
      | error failure => exact ⟨_, rfl, rfl⟩
      | ok steps =>
          simp only [hlater]
          cases later with
          | error failure => exact ⟨_, rfl, rfl⟩
          | ok more => exact ⟨_, rfl, by simp [unplacedSteps, Except.toOption]⟩

theorem readList_outline (policy : CyclePolicy) (items : List Yaml) (addr : Address)
    (ctx : Recorder) :
    ∃ result, (builtinReaderUnder policy).readList (.seq items) addr ctx = (result, ctx) ∧
      unplacedSteps result = listOutline items :=
  readItems_outline policy addr 0 items ctx

end StepChain.Scripted
