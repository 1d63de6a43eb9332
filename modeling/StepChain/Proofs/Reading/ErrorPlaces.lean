import StepChain.Proofs.Reading.Builtins

/-!
# Where the errors of a list point

Each description is read for itself: what is read before it does not matter. A problem that
a list of built-in steps is rejected for is that of the first description that fails by
itself, and it is reported inside this description; when its expansion fails, inside the
first description of the expansion that cannot be read.
-/

namespace StepChain

namespace StepReader

variable {σ α μ : Type}

/-- What a description is read as by itself, whatever came before it. -/
def Alone (reader : StepReader σ α μ) (raw : Yaml) (addr : Address)
    (result : Except Failure (List (Step σ α μ))) : Prop :=
  ∀ ctx, (reader.readItem raw addr ctx).1 = result

/-- The description at a position is the first of a list that fails by itself. -/
structure FailsFirst (reader : StepReader σ α μ) (addr : Address) (items : List Yaml)
    (position : Nat) (item : Yaml) (failure : Failure) : Prop where
  found : items[position]? = some item
  fails : reader.Alone item (addr.idx position) (.error failure)
  earlier : ∀ {before other}, before < position → items[before]? = some other →
    ∃ steps, reader.Alone other (addr.idx before) (.ok steps)

end StepReader

namespace Scripted

variable {policy : CyclePolicy} {raw : Yaml} {addr : Address} {failure : Failure}
  {error : StepError} {ctx : Recorder}

/-! ## Single descriptions -/

theorem includedText_eq_ok {listed : Yaml} {text : String}
    (htext : Builtin.includedText listed = .ok text) : listed.toText = .ok text := by
  unfold Builtin.includedText at htext
  split at htext
  · rename_i written hwritten
    rw [hwritten, Except.ok.inj htext]
  · cases htext

theorem includedText_error {listed : Yaml} (htext : Builtin.includedText listed = .error failure) :
    failure.stepError? = none := by
  unfold Builtin.includedText at htext
  split at htext
  · cases htext
  · cases htext
    rfl

/-- A description that cannot be read, or a lazy one, calls nothing; a call of an eager one
gives the same in every context. -/
theorem readItem_alone (policy : CyclePolicy) (raw : Yaml) (addr : Address) (ctx : Recorder) :
    (builtinReaderUnder policy).Alone raw addr
      ((builtinReaderUnder policy).readItem raw addr ctx).1 := by
  intro other
  cases hread : (builtinReaderUnder policy).readStep raw addr with
  | error error => simp [StepReader.readItem, hread]
  | ok step =>
      cases heager : step.eager with
      | false => simp [StepReader.readItem, hread, heager]
      | true =>
          obtain ⟨-, result, -, -, hcall⟩ := call_of_eager hread heager
          simp only [StepReader.readItem, hread, heager, if_true, hcall]
          cases result with
          | error failure => rfl
          | ok value => cases value <;> rfl

/-- What an `include` expands to: the descriptions in the document that is written for those
it lists. -/
def Includes (raw : Yaml) (included : List Yaml) : Prop :=
  ∃ listed text written, raw.Gives "include" listed ∧ listed.toText = .ok text ∧
    Yaml.ofText text = .ok written ∧ written.items? = some included

theorem FirstAtFault.within {start inner : Nat} {items : List Yaml}
    (hfault : FirstAtFault addr start items error inner) :
    error.Within (addr.idx (start + inner)) := by
  obtain ⟨item, -, hread⟩ := hfault.fault
  exact Vocabulary.readStep_within vocabulary_within hread

/-- A problem with a description is found when it is read or when it is expanded. -/
theorem problem_cases {called : Option TextStep}
    (hfails : (builtinReaderUnder policy).Fails raw addr ctx failure called)
    (hproblem : failure.stepError? = some error) :
    (builtinReaderUnder policy).readStep raw addr = .error error ∨
      ∃ included inner, Includes raw included ∧ FirstAtFault addr 0 included error inner := by
  cases hfails with
  | unreadable hread =>
      cases hproblem
      exact .inl hread
  | call hread heager hcall =>
      -- The document cannot be written, which is no problem of a description.
      obtain ⟨listed, result, -, hresult, hagain⟩ := call_of_eager hread heager
      obtain rfl : result = .error failure :=
        congrArg Prod.fst ((hagain ctx).symm.trans hcall)
      rcases hresult with hskipped | hincluded
      · cases hskipped
      · cases htext : Builtin.includedText listed with
        | ok text => simp [htext, Except.map] at hincluded
        | error found =>
            obtain rfl : failure = found := by simpa [htext, Except.map] using hincluded
            rw [includedText_error htext] at hproblem
            cases hproblem
  | @expansion step text failure left hread heager hcall hexpand =>
      obtain ⟨listed, result, hgives, hresult, hagain⟩ := call_of_eager hread heager
      obtain rfl : result = .ok (some text) :=
        congrArg Prod.fst ((hagain ctx).symm.trans hcall)
      have htext : listed.toText = .ok text := by
        rcases hresult with hskipped | hincluded
        · cases hskipped
        · cases hwritten : Builtin.includedText listed with
          | error found => simp [hwritten, Except.map] at hincluded
          | ok found =>
              obtain rfl : text = found := by simpa [hwritten, Except.map] using hincluded
              exact includedText_eq_ok hwritten
      obtain ⟨-, written, included, hwritten, hitems, hsteps⟩ :=
        expandItems_of_expand_error hexpand hproblem
      obtain ⟨inner, hfault⟩ := firstAtFault_of_expandItems hsteps
      exact .inr ⟨included, inner, ⟨listed, text, written, hgives, htext, hwritten, hitems⟩,
        hfault⟩

/-! ## Lists -/

/-- The description at which the reading of a list stops is the first that fails by itself. -/
theorem failsFirst_of_stopped {items : List Yaml} {item : Yaml}
    {shares : List (Share Recorder String YamlMapping)} {called : Option TextStep}
    (hturn : (builtinReaderUnder policy).InTurn addr 0 items ctx shares)
    (hitem : items[shares.length]? = some item)
    (hfails : (builtinReaderUnder policy).Fails item (addr.idx shares.length)
      (callAll (shares.filterMap Share.called) ctx) failure called) :
    (builtinReaderUnder policy).FailsFirst addr items shares.length item failure where
  found := hitem
  fails := by
    have halone := readItem_alone policy item (addr.idx shares.length)
      (callAll (shares.filterMap Share.called) ctx)
    rwa [hfails.readItem_eq] at halone
  earlier := by
    intro before other hlt hother
    have hshare := List.getElem?_eq_getElem hlt
    have hcontributes := hturn before other _ hother hshare
    rw [Nat.zero_add] at hcontributes
    have halone := readItem_alone policy other (addr.idx before)
      (callAll ((shares.take before).filterMap Share.called) ctx)
    rw [hcontributes.readItem_eq] at halone
    exact ⟨_, halone⟩

/-- A problem that a list is rejected for names the file of the list. Its path is that of
the list when this is no sequence; else it is inside the first description that fails by
itself, and inside the first included one when this can be read and not expanded. -/
theorem readList_error_place (policy : CyclePolicy) {raw : Yaml} {addr : Address}
    {ctx left : Recorder} {failure : Failure} {error : StepError}
    (hread : (builtinReaderUnder policy).readList raw addr ctx = (.error failure, left))
    (hproblem : failure.stepError? = some error) :
    ∃ place, error.address = some place ∧ place.filename = addr.filename ∧
      (raw.items? = none ∧ place.path = addr.path ∨
        ∃ items position item, raw.items? = some items ∧
          (builtinReaderUnder policy).FailsFirst addr items position item failure ∧
          (∃ suffix, place.path = (addr.idx position).path ++ suffix) ∧
          ∀ step, (builtinReaderUnder policy).readStep item (addr.idx position) = .ok step →
            ∃ included inner suffix, Includes item included ∧
              FirstAtFault (addr.idx position) 0 included error inner ∧
              place.path = ((addr.idx position).idx inner).path ++ suffix) := by
  obtain ⟨result, called, hlist⟩ := (builtinReaderUnder policy).exists_listReadAs raw addr ctx
  obtain rfl : result = .error failure := congrArg Prod.fst (hlist.readList_eq.symm.trans hread)
  cases hlist with
  | malformed hitems =>
      cases hproblem
      exact ⟨addr, rfl, rfl, .inl ⟨hitems, rfl⟩⟩
  | @listed items _ _ hitems hstop =>
      cases hstop with
      | @stopped shares item _ last hturn hitem hfails =>
          rw [Nat.zero_add] at hfails
          have hfirst := failsFirst_of_stopped hturn hitem hfails
          rcases problem_cases hfails hproblem with hunreadable | ⟨included, inner, hincludes, hfault⟩
          · obtain ⟨segments, haddress⟩ :=
              Vocabulary.readStep_within vocabulary_within hunreadable
            refine ⟨_, haddress, rfl, .inr ⟨items, shares.length, item, hitems, hfirst,
              ⟨Segment.renderAll segments, rfl⟩, fun step hstep => ?_⟩⟩
            cases hunreadable.symm.trans hstep
          · obtain ⟨segments, haddress⟩ := hfault.within
            rw [Nat.zero_add] at haddress
            have hpath : (((addr.idx shares.length).idx inner).extend segments).path =
                (addr.idx shares.length).path ++
                  Segment.renderAll (.index inner :: segments) := by
              simp [Address.path_extend, Address.idx, Segment.renderAll, String.append_assoc]
            exact ⟨_, haddress, rfl, .inr ⟨items, shares.length, item, hitems, hfirst,
              ⟨_, hpath⟩, fun step _ => ⟨included, inner, _, hincludes, hfault, rfl⟩⟩⟩

/-- The second description includes one that nothing is registered for. -/
def brokenInclude : Yaml :=
  .seq [.str "echo", .map [(.str "include", .seq [.str "echo", .str "nope"])]]

theorem brokenInclude_expand (addr : Address) :
    expand "- echo\n- nope\n" addr =
      .error (.ofStepError ((Problem.unknownKey "nope").foundAt (addr.idx 1))) := by
  have hscan : Token.scan "- echo\n- nope\n" = .ok
      [.blockSequenceStart, .blockEntry, .scalar "echo" .plain, .blockEntry,
        .scalar "nope" .plain, .blockEnd] := by
    decide +kernel
  have hwritten : Yaml.ofText "- echo\n- nope\n" = .ok (.seq [.str "echo", .str "nope"]) := by
    simp only [Yaml.ofText, Document.ofText, hscan, bind, Except.bind]
    cbv
  have hecho : readIncluded (.str "echo") (addr.idx 0) = .ok (echoStep (addr.idx 0)) :=
    readStep_echo .lenient (addr.idx 0)
  have hnope : readIncluded (.str "nope") (addr.idx 1) =
      .error ((Problem.unknownKey "nope").foundAt (addr.idx 1)) := rfl
  have hitems : (Yaml.seq [.str "echo", .str "nope"]).items? =
      some [.str "echo", .str "nope"] := rfl
  have hsteps : expandItems addr 0 [.str "echo", .str "nope"] =
      .error ((Problem.unknownKey "nope").foundAt (addr.idx 1)) := by
    rw [expandItems_cons, hecho, expandItems_cons, hnope]
    rfl
  simp only [expand, hwritten, hitems, hsteps]
  rfl

theorem brokenInclude_error_place :
    ∃ failure error items position item,
      (builtinReaderUnder .strict).readList brokenInclude (Address.root "steps.yaml") {} =
          (.error failure, {}) ∧
        failure.stepError? = some error ∧
        error.address = some { filename := "steps.yaml", path := "[1][1]" } ∧
        brokenInclude.items? = some items ∧
        (builtinReaderUnder .strict).FailsFirst (Address.root "steps.yaml") items position item
          failure := by
  have htext : Builtin.includedText (.seq [.str "echo", .str "nope"]) =
      .ok "- echo\n- nope\n" := by
    decide +kernel
  have hinclude : ∀ addr ctx, (builtinReaderUnder .strict).readItem
      (.map [(.str "include", .seq [.str "echo", .str "nope"])]) addr ctx =
        (.error (.ofStepError ((Problem.unknownKey "nope").foundAt (addr.idx 1))), ctx) := by
    intro addr ctx
    rw [readItem_include .strict rfl, htext]
    simp only [Except.bind, brokenInclude_expand]
  have hitems : brokenInclude.items? =
      some [.str "echo", .map [(.str "include", .seq [.str "echo", .str "nope"])]] := rfl
  have hread : (builtinReaderUnder .strict).readList brokenInclude (Address.root "steps.yaml") {} =
      (.error (.ofStepError ((Problem.unknownKey "nope").foundAt
        (((Address.root "steps.yaml").idx 1).idx 1))), {}) := by
    simp only [StepReader.readList, hitems, StepReader.readItems, readItem_echo, hinclude]
  have hplace : ((Address.root "steps.yaml").idx 1).idx 1 =
      { filename := "steps.yaml", path := "[1][1]" } := by
    decide +kernel
  obtain ⟨place, -, -, ⟨hnone, -⟩ | ⟨items, position, item, hsome, hfirst, -, -⟩⟩ :=
    readList_error_place .strict hread rfl
  · cases hitems.symm.trans hnone
  · exact ⟨_, _, items, position, item, hread, rfl, congrArg some hplace, hsome, hfirst⟩

end Scripted

end StepChain
