import StepChain.Proofs.Reading.Outlines
import StepChain.Proofs.Reading.Positions

/-!
# Included descriptions in their place

An `include` is read through a call, a document and a reader of its own. What comes of it
is what the lazy descriptions that it lists come to when they stand in its place, up to the
addresses.
-/

namespace StepChain

variable {σ α μ : Type}

/-- Steps of one action up to its address, with modifiers of the same names in the same
order, the same metadata and the same calls. -/
structure Step.SameButPlace (left right : Step σ α μ) : Prop where
  action : left.action.unplaced = right.action.unplaced
  modifiers : modifierNames left.modifiers = modifierNames right.modifiers
  metadata : left.metadata = right.metadata
  call : ∀ ctx, left.call ctx = right.call ctx

namespace Scripted

variable {policy : CyclePolicy} {raw item : Yaml} {addr : Address} {ctx : Recorder}
  {step : TextStep}

/-! ## Steps that were read -/

/-- Some description stands for the step somewhere. -/
def Described (step : TextStep) : Prop :=
  ∃ policy raw addr, (builtinReaderUnder policy).readStep raw addr = .ok step

theorem described_of_contributes {share : Share Recorder String YamlMapping}
    (hshare : (builtinReaderUnder policy).Contributes raw addr ctx share)
    (hstep : step ∈ share.steps) : Described step := by
  cases hshare with
  | kept hread _ =>
      rw [List.mem_singleton.mp hstep]
      exact ⟨policy, raw, addr, hread⟩
  | expanded _ _ _ hexpand =>
      obtain ⟨_, items, -, -, hitems⟩ := expand_eq_ok_iff.mp hexpand
      obtain ⟨inner, hinner⟩ := List.mem_iff_getElem?.mp hstep
      obtain ⟨item, -, hread⟩ := readIncluded_of_expandItems hitems hinner
      exact ⟨.lenient, item, _, hread⟩
  | skipped _ _ _ => cases hstep

theorem described_of_readList {steps : List TextStep} {left : Recorder}
    (hread : (builtinReaderUnder policy).readList raw addr ctx = (.ok steps, left))
    (hstep : step ∈ steps) : Described step := by
  obtain ⟨result, called, hlist⟩ := (builtinReaderUnder policy).exists_listReadAs raw addr ctx
  obtain rfl : result = .ok steps := congrArg Prod.fst (hlist.readList_eq.symm.trans hread)
  cases hlist with
  | listed hitems hall =>
      obtain ⟨shares, hlength, hturn, rfl⟩ := hall.exists_shares
      obtain ⟨share, hshare, hin⟩ := List.mem_flatMap.mp hstep
      obtain ⟨position, hposition⟩ := List.mem_iff_getElem?.mp hshare
      obtain ⟨item, before, hcontributes⟩ := hturn.contributes hlength hposition
      exact described_of_contributes hcontributes hin

theorem Described.sameButPlace {left right : TextStep} (hleft : Described left)
    (hright : Described right) (heq : left.unplaced = right.unplaced) :
    left.SameButPlace right := by
  obtain ⟨_, _, _, hreadLeft⟩ := hleft
  obtain ⟨_, _, _, hreadRight⟩ := hright
  constructor
  · exact congrArg Step.action heq
  · rw [← left.modifierNames_unplaced, heq, right.modifierNames_unplaced]
  · show left.unplaced.metadata = right.unplaced.metadata
    rw [heq]
  · intro ctx
    calc left.call ctx
        = left.unplaced.call ctx := (call_unplaced_of_readStep hreadLeft ctx).symm
      _ = right.unplaced.call ctx := by rw [heq]
      _ = right.call ctx := call_unplaced_of_readStep hreadRight ctx

theorem sameButPlace_of_unplaced {steps others : List TextStep}
    (hsteps : ∀ step ∈ steps, Described step) (hothers : ∀ step ∈ others, Described step)
    (heq : steps.map Step.unplaced = others.map Step.unplaced) :
    List.Forall₂ Step.SameButPlace steps others := by
  have hpairs : List.Forall₂ (fun left right => left.unplaced = right.unplaced) steps others :=
    List.forall₂_map_left_iff.mp (List.forall₂_map_right_iff.mp (List.forall₂_eq_eq_eq ▸ heq))
  induction hpairs with
  | nil => exact .nil
  | cons hsame _ ih =>
      obtain ⟨hleft, hsteps⟩ := List.forall_mem_cons.mp hsteps
      obtain ⟨hright, hothers⟩ := List.forall_mem_cons.mp hothers
      exact .cons (hleft.sameButPlace hright hsame) (ih hsteps hothers (List.tail_eq_of_cons_eq heq))

/-! ## Lists with and without an include -/

/-- No step is read for the description, or one that is not eager. -/
def Lazy (raw : Yaml) : Prop :=
  (outline raw).map Step.eager ≠ some true

theorem lazy_iff (policy : CyclePolicy) (raw : Yaml) (addr : Address) :
    Lazy raw ↔
      ∀ step, (builtinReaderUnder policy).readStep raw addr = .ok step → step.eager = false := by
  unfold Lazy
  rw [← readStep_outline policy raw addr]
  cases (builtinReaderUnder policy).readStep raw addr with
  | error error => simp [Except.toOption]
  | ok step => simp [Except.toOption]

theorem itemOutline_of_lazy (hlazy : Lazy item) :
    itemOutline item = (outline item).map ([·]) := by
  unfold Lazy at hlazy
  unfold itemOutline
  cases houtline : outline item with
  | none => rfl
  | some step =>
      have heager : ¬step.eager = true := by simpa [houtline] using hlazy
      rw [Option.bind_some, if_neg heager]
      rfl

theorem listOutline_of_lazy {listed : List Yaml} (hlazy : ∀ item ∈ listed, Lazy item) :
    listOutline listed = listed.mapM outline := by
  induction listed with
  | nil => rfl
  | cons item rest ih =>
      obtain ⟨hitem, hrest⟩ := List.forall_mem_cons.mp hlazy
      rw [listOutline_cons, itemOutline_of_lazy hitem, ih hrest, List.mapM_cons]
      cases outline item with
      | none => rfl
      | some step => cases rest.mapM outline <;> rfl

theorem itemOutline_include {listed : List Yaml} {text : String}
    (hwritten : (Yaml.seq listed).toText = .ok text)
    (hback : Yaml.ofText text = .ok (.seq listed)) :
    itemOutline (.map [(.str "include", .seq listed)]) = listed.mapM outline := by
  have htext : Builtin.includedText (.seq listed) = .ok text := by
    rw [Builtin.includedText, hwritten]
  obtain ⟨result, hread, houtline⟩ :=
    readItem_outline .lenient (.map [(.str "include", .seq listed)]) (.root "") {}
  rw [readItem_include .lenient rfl, htext] at hread
  have hresult : expand text (.root "") = result := congrArg Prod.fst hread
  calc itemOutline (.map [(.str "include", .seq listed)])
      = unplacedSteps result := houtline.symm
    _ = documentOutline text := by rw [← hresult, expand_outline]
    _ = listed.mapM outline := by
        unfold documentOutline
        rw [hback]
        rfl

theorem listOutline_inlined {before listed after : List Yaml} {text : String}
    (hlazy : ∀ item ∈ listed, Lazy item) (hwritten : (Yaml.seq listed).toText = .ok text)
    (hback : Yaml.ofText text = .ok (.seq listed)) :
    listOutline (before ++ [.map [(.str "include", .seq listed)]] ++ after) =
      listOutline (before ++ listed ++ after) := by
  have hinclude : listOutline [.map [(.str "include", .seq listed)]] = listOutline listed := by
    rw [listOutline_cons, itemOutline_include hwritten hback, ← listOutline_of_lazy hlazy]
    cases listOutline listed with
    | none => rfl
    | some steps => exact congrArg some (List.append_nil steps)
  rw [listOutline_append, listOutline_append before, hinclude, ← listOutline_append before,
    ← listOutline_append]

/-- An `include` of lazy descriptions, whose document says what was written, can be read
where they can be read in its place, and the steps differ in their addresses only. -/
theorem readList_inlined (policy : CyclePolicy) (addr : Address) (ctx : Recorder)
    {before listed after : List Yaml} {text : String}
    (hlazy : ∀ item ∈ listed, ∀ place step,
      (builtinReaderUnder policy).readStep item place = .ok step → step.eager = false)
    (hwritten : (Yaml.seq listed).toText = .ok text)
    (hback : Yaml.ofText text = .ok (.seq listed)) :
    ∃ included inlined,
      (builtinReaderUnder policy).readList
          (.seq (before ++ [.map [(.str "include", .seq listed)]] ++ after)) addr ctx =
        (included, ctx) ∧
      (builtinReaderUnder policy).readList (.seq (before ++ listed ++ after)) addr ctx =
        (inlined, ctx) ∧
      ((∃ steps, included = .ok steps) ↔ ∃ steps, inlined = .ok steps) ∧
      ∀ steps others, included = .ok steps → inlined = .ok others →
        List.Forall₂ Step.SameButPlace steps others := by
  have hall : ∀ item ∈ listed, Lazy item :=
    fun item hitem => (lazy_iff policy item addr).mpr (hlazy item hitem addr)
  obtain ⟨included, hincluded, houtline⟩ := readList_outline policy
    (before ++ [.map [(.str "include", .seq listed)]] ++ after) addr ctx
  obtain ⟨inlined, hinlined, hplain⟩ :=
    readList_outline policy (before ++ listed ++ after) addr ctx
  have hsame : unplacedSteps included = unplacedSteps inlined := by
    rw [houtline, hplain, listOutline_inlined hall hwritten hback]
  refine ⟨included, inlined, hincluded, hinlined, ?_, ?_⟩
  · cases included <;> cases inlined <;> simp [unplacedSteps, Except.toOption] at hsame ⊢
  · rintro steps others rfl rfl
    exact sameButPlace_of_unplaced (fun step => described_of_readList hincluded)
      (fun step => described_of_readList hinlined) (Option.some.inj hsame)

/-- A step that is read with a modifier, and one without. -/
def loudSteps : List Yaml :=
  [.map [(.str "echo", .str "hello"), (.str "upper", .null)], .str "echo"]

theorem loudSteps_inlined :
    ∃ steps others,
      (builtinReaderUnder .strict).readList
          (.seq ([.str "echo"] ++ [.map [(.str "include", .seq loudSteps)]] ++ [.str "echo"]))
          (.root "steps.yaml") {} =
        (.ok steps, {}) ∧
      (builtinReaderUnder .strict).readList (.seq ([.str "echo"] ++ loudSteps ++ [.str "echo"]))
          (.root "steps.yaml") {} =
        (.ok others, {}) ∧
      List.Forall₂ Step.SameButPlace steps others := by
  have hlazy : ∀ item ∈ loudSteps, Lazy item := by
    unfold Lazy
    decide
  have hwritten : (Yaml.seq loudSteps).toText =
      .ok "- echo: hello\n  upper: null\n- echo\n" := by
    decide +kernel
  have hscan : Token.scan "- echo: hello\n  upper: null\n- echo\n" = .ok
      [.blockSequenceStart, .blockEntry, .blockMappingStart, .key, .scalar "echo" .plain,
        .value, .scalar "hello" .plain, .key, .scalar "upper" .plain, .value,
        .scalar "null" .plain, .blockEnd, .blockEntry, .scalar "echo" .plain, .blockEnd] := by
    decide +kernel
  have hback : Yaml.ofText "- echo: hello\n  upper: null\n- echo\n" = .ok (.seq loudSteps) := by
    simp only [Yaml.ofText, Document.ofText, hscan, bind, Except.bind]
    cbv
  have hreadable : (listOutline ([.str "echo"] ++ loudSteps ++ [.str "echo"])).isSome = true := by
    decide
  obtain ⟨included, inlined, hincluded, hinlined, hiff, hsame⟩ :=
    @readList_inlined .strict (.root "steps.yaml") {} [.str "echo"] loudSteps [.str "echo"] _
      (fun item hitem place => (lazy_iff .strict item place).mp (hlazy item hitem)) hwritten hback
  obtain ⟨result, hread, houtline⟩ := readList_outline .strict
    ([.str "echo"] ++ loudSteps ++ [.str "echo"]) (.root "steps.yaml") {}
  obtain rfl : result = inlined := congrArg Prod.fst (hread.symm.trans hinlined)
  cases result with
  | error failure =>
      rw [← houtline] at hreadable
      cases hreadable
  | ok others =>
      obtain ⟨steps, rfl⟩ := hiff.mpr ⟨others, rfl⟩
      exact ⟨steps, others, hincluded, hinlined, hsame steps others rfl rfl⟩

end Scripted

end StepChain
