import StepChain.Proofs.Evaluation.Ending

/-!
# Which script decides

In a step of scripted items many scripts may set the result: that of the action, one that
stops the step before the action, and several that fail, recover or append after it. The
result is that of the first failing modifier below the one that stopped the step, unless one
below it recovers; without a failing modifier it is what the step was turned with, unless that
is a failure and a modifier recovers. What is decided at some position, the appending
modifiers below it add their names to.
-/

namespace StepChain

/-! ## Scripts by position -/

/-- The outcome with which a pre-hook stops the step, if it does. -/
def PreScript.outcome? : PreScript → Option (Outcome String)
  | .proceed => none
  | .abort (some value) => some (.value value)
  | .abort none => some .skipped
  | .fail message => some (.failed { context := [], root := .message message })

namespace Scripted

/-- The position of the first modifier that stops the step; if there is none, the number of
modifiers. -/
def stopOf (modifiers : List ScriptedModifier) : Nat :=
  modifiers.findIdx fun modifier => modifier.pre.outcome?.isSome

/-- The outcome that the post-hooks start with. -/
def turnOf (action : ScriptedAction) (modifiers : List ScriptedModifier) : Outcome String :=
  match modifiers[stopOf modifiers]?.bind fun modifier => modifier.pre.outcome? with
  | some outcome => outcome
  | none =>
      match action.script with
      | .give value => .value value
      | .fail message => .failed { context := [], root := .message message }

def postAt? (modifiers : List ScriptedModifier) (position : Nat) : Option PostScript :=
  modifiers[position]?.map ScriptedModifier.post

structure FailsFirst (modifiers : List ScriptedModifier) (bound position : Nat)
    (message : String) : Prop where
  below : position < bound
  fails : postAt? modifiers position = some (.fail message)
  first : ∀ earlier < position, ∀ text, postAt? modifiers earlier ≠ some (.fail text)

structure RecoversLast (modifiers : List ScriptedModifier) (bound position : Nat)
    (value : String) : Prop where
  below : position < bound
  recovers : postAt? modifiers position = some (.recover value)
  last : ∀ later, position < later → later < bound →
    ∀ text, postAt? modifiers later ≠ some (.recover text)

/-- What a modifier appends to values. -/
def suffixOf (modifier : ScriptedModifier) : String :=
  if modifier.post = .append then "|" ++ modifier.header.name else ""

/-- What the modifiers below a position append to a value, from the higher to the lower. -/
def suffixBelow (modifiers : List ScriptedModifier) (bound : Nat) : String :=
  String.join ((modifiers.take bound).reverse.map suffixOf)

/-- What the modifiers below a position, none of which fails, make of an outcome. -/
inductive Settles (modifiers : List ScriptedModifier) (bound : Nat) :
    Outcome String → Outcome String → Prop where
  | value {value : String} :
      Settles modifiers bound (.value value) (.value (value ++ suffixBelow modifiers bound))
  | skipped : Settles modifiers bound .skipped .skipped
  | recovered {failure : Failure} {position : Nat} {value : String}
      (hrecovers : RecoversLast modifiers bound position value) :
      Settles modifiers bound (.failed failure)
        (.value (value ++ suffixBelow modifiers position))
  | unrecovered {failure : Failure}
      (hnone : ∀ position < bound, ∀ value, postAt? modifiers position ≠ some (.recover value)) :
      Settles modifiers bound (.failed failure) (.failed failure)

/-- What a call of a step of scripted items comes to. -/
inductive Decides (action : ScriptedAction) (modifiers : List ScriptedModifier) :
    Outcome String → Prop where
  | failing {position : Nat} {message : String} {outcome : Outcome String}
      (hfails : FailsFirst modifiers (stopOf modifiers) position message)
      (hsettles : Settles modifiers position
        (.failed { context := [], root := .message message }) outcome) :
      Decides action modifiers outcome
  | unfailing {outcome : Outcome String}
      (hnone : ∀ position < stopOf modifiers, ∀ message,
        postAt? modifiers position ≠ some (.fail message))
      (hsettles : Settles modifiers (stopOf modifiers) (turnOf action modifiers) outcome) :
      Decides action modifiers outcome

/-! ## At most one outcome -/

section

variable {action : ScriptedAction} {modifiers : List ScriptedModifier} {bound : Nat}

theorem FailsFirst.unique {position other : Nat} {message text : String}
    (hfails : FailsFirst modifiers bound position message)
    (hother : FailsFirst modifiers bound other text) : position = other ∧ message = text := by
  obtain rfl : position = other := by
    rcases Nat.lt_trichotomy position other with hlt | heq | hgt
    · exact absurd hfails.fails (hother.first position hlt message)
    · exact heq
    · exact absurd hother.fails (hfails.first other hgt text)
  exact ⟨rfl, by simpa [hfails.fails] using hother.fails⟩

theorem RecoversLast.unique {position other : Nat} {value text : String}
    (hrecovers : RecoversLast modifiers bound position value)
    (hother : RecoversLast modifiers bound other text) : position = other ∧ value = text := by
  obtain rfl : position = other := by
    rcases Nat.lt_trichotomy position other with hlt | heq | hgt
    · exact absurd hother.recovers (hrecovers.last other hlt hother.below text)
    · exact heq
    · exact absurd hrecovers.recovers (hother.last position hgt hrecovers.below value)
  exact ⟨rfl, by simpa [hrecovers.recovers] using hother.recovers⟩

theorem Settles.unique {start outcome other : Outcome String}
    (hsettles : Settles modifiers bound start outcome)
    (hother : Settles modifiers bound start other) : outcome = other := by
  cases hsettles with
  | value => cases hother; rfl
  | skipped => cases hother; rfl
  | recovered hrecovers =>
      cases hother with
      | recovered hlast =>
          obtain ⟨rfl, rfl⟩ := hrecovers.unique hlast
          rfl
      | unrecovered hnone => exact absurd hrecovers.recovers (hnone _ hrecovers.below _)
  | unrecovered hnone =>
      cases hother with
      | recovered hlast => exact absurd hlast.recovers (hnone _ hlast.below _)
      | unrecovered _ => rfl

theorem Decides.unique {outcome other : Outcome String}
    (hdecides : Decides action modifiers outcome) (hother : Decides action modifiers other) :
    outcome = other := by
  cases hdecides with
  | failing hfails hsettles =>
      cases hother with
      | failing hfirst hsettled =>
          obtain ⟨rfl, rfl⟩ := hfails.unique hfirst
          exact hsettles.unique hsettled
      | unfailing hnone _ => exact absurd hfails.fails (hnone _ hfails.below _)
  | unfailing hnone hsettles =>
      cases hother with
      | failing hfirst _ => exact absurd hfirst.fails (hnone _ hfirst.below _)
      | unfailing _ hsettled => exact hsettles.unique hsettled

end

/-! ## One more modifier in front -/

section

variable {action : ScriptedAction} {modifier : ScriptedModifier} {rest : List ScriptedModifier}
  {bound : Nat}

theorem suffixBelow_cons_succ :
    suffixBelow (modifier :: rest) (bound + 1) = suffixBelow rest bound ++ suffixOf modifier := by
  simp [suffixBelow]

theorem suffixBelow_zero (modifiers : List ScriptedModifier) : suffixBelow modifiers 0 = "" := rfl

theorem RecoversLast.cons {position : Nat} {value : String}
    (hrecovers : RecoversLast rest bound position value) :
    RecoversLast (modifier :: rest) (bound + 1) (position + 1) value where
  below := Nat.succ_lt_succ hrecovers.below
  recovers := hrecovers.recovers
  last := by
    intro later hlater hbound
    obtain ⟨before, rfl⟩ : ∃ before, later = before + 1 := ⟨later - 1, by omega⟩
    exact hrecovers.last before (Nat.lt_of_succ_lt_succ hlater) (Nat.lt_of_succ_lt_succ hbound)

theorem recoversLast_first {value : String} (hpost : modifier.post = .recover value)
    (hnone : ∀ position < bound, ∀ text, postAt? rest position ≠ some (.recover text)) :
    RecoversLast (modifier :: rest) (bound + 1) 0 value where
  below := Nat.succ_pos bound
  recovers := congrArg some hpost
  last := by
    intro later hlater hbound
    obtain ⟨before, rfl⟩ : ∃ before, later = before + 1 := ⟨later - 1, by omega⟩
    exact hnone before (Nat.lt_of_succ_lt_succ hbound)

theorem FailsFirst.cons {position : Nat} {message : String}
    (hpost : ∀ text, modifier.post ≠ .fail text)
    (hfails : FailsFirst rest bound position message) :
    FailsFirst (modifier :: rest) (bound + 1) (position + 1) message where
  below := Nat.succ_lt_succ hfails.below
  fails := hfails.fails
  first := by
    intro earlier hearlier text
    cases earlier with
    | zero => exact fun heq => hpost text (Option.some.inj heq)
    | succ before => exact hfails.first before (Nat.lt_of_succ_lt_succ hearlier) text

theorem forall_postAt?_cons {script : String → PostScript}
    (hpost : ∀ text, modifier.post ≠ script text)
    (hnone : ∀ position < bound, ∀ text, postAt? rest position ≠ some (script text)) :
    ∀ position < bound + 1, ∀ text, postAt? (modifier :: rest) position ≠ some (script text) := by
  intro position hposition text
  cases position with
  | zero => exact fun heq => hpost text (Option.some.inj heq)
  | succ before => exact hnone before (Nat.lt_of_succ_lt_succ hposition) text

theorem ofHook_postAnswer_value (hpost : ∀ text, modifier.post ≠ .fail text) (value : String) :
    Outcome.ofHook (modifier.postAnswer (.value value)) = .value (value ++ suffixOf modifier) := by
  unfold ScriptedModifier.postAnswer suffixOf
  cases hscript : modifier.post with
  | append => simp [Outcome.ofHook, Outcome.map, String.append_assoc]
  | pass => simp [Outcome.ofHook]
  | fail text => exact absurd hscript (hpost text)
  | recover other => simp [Outcome.ofHook, Outcome.isFailed]

theorem ofHook_postAnswer_skipped (hpost : ∀ text, modifier.post ≠ .fail text) :
    Outcome.ofHook (modifier.postAnswer .skipped) = .skipped := by
  unfold ScriptedModifier.postAnswer
  cases hscript : modifier.post with
  | append => rfl
  | pass => rfl
  | fail text => exact absurd hscript (hpost text)
  | recover other => rfl

/-- What a modifier that does not fail makes of a settled outcome. -/
theorem Settles.cons {start outcome : Outcome String}
    (hpost : ∀ text, modifier.post ≠ .fail text) (hsettles : Settles rest bound start outcome) :
    Settles (modifier :: rest) (bound + 1) start
      (Outcome.ofHook (modifier.postAnswer outcome)) := by
  cases hsettles with
  | value =>
      rw [ofHook_postAnswer_value hpost, String.append_assoc, ← suffixBelow_cons_succ]
      exact .value
  | skipped =>
      rw [ofHook_postAnswer_skipped hpost]
      exact .skipped
  | recovered hrecovers =>
      rw [ofHook_postAnswer_value hpost, String.append_assoc, ← suffixBelow_cons_succ]
      exact .recovered hrecovers.cons
  | @unrecovered failure hnone =>
      unfold ScriptedModifier.postAnswer
      cases hscript : modifier.post with
      | append => exact .unrecovered (forall_postAt?_cons (by simp [hscript]) hnone)
      | pass => exact .unrecovered (forall_postAt?_cons (by simp [hscript]) hnone)
      | fail text => exact absurd hscript (hpost text)
      | recover value =>
          have hfirst : Settles (modifier :: rest) (bound + 1) (.failed failure)
              (.value (value ++ suffixBelow (modifier :: rest) 0)) :=
            .recovered (recoversLast_first hscript hnone)
          rwa [suffixBelow_zero, String.append_empty] at hfirst

theorem stopOf_cons_of_stops {outcome : Outcome String}
    (hstops : modifier.pre.outcome? = some outcome) : stopOf (modifier :: rest) = 0 := by
  simp [stopOf, List.findIdx_cons, hstops]

theorem turnOf_cons_of_stops {outcome : Outcome String}
    (hstops : modifier.pre.outcome? = some outcome) :
    turnOf action (modifier :: rest) = outcome := by
  simp [turnOf, stopOf_cons_of_stops hstops, hstops]

theorem stopOf_cons_of_proceeds (hproceeds : modifier.pre.outcome? = none) :
    stopOf (modifier :: rest) = stopOf rest + 1 := by
  simp [stopOf, List.findIdx_cons, hproceeds]

theorem turnOf_cons_of_proceeds (hproceeds : modifier.pre.outcome? = none) :
    turnOf action (modifier :: rest) = turnOf action rest := by
  simp [turnOf, stopOf_cons_of_proceeds hproceeds]

theorem settles_zero (modifiers : List ScriptedModifier) (outcome : Outcome String) :
    Settles modifiers 0 outcome outcome := by
  cases outcome with
  | value value =>
      have hvalue : Settles modifiers 0 (.value value)
          (.value (value ++ suffixBelow modifiers 0)) := .value
      rwa [suffixBelow_zero, String.append_empty] at hvalue
  | skipped => exact .skipped
  | failed failure => exact .unrecovered fun position hposition => absurd hposition (by omega)

theorem decides_of_stopOf_zero (hstop : stopOf rest = 0) :
    Decides action rest (turnOf action rest) := by
  refine .unfailing ?_ ?_
  · rw [hstop]
    exact fun position hposition => absurd hposition (Nat.not_lt_zero position)
  · rw [hstop]
    exact settles_zero rest _

theorem decides_fail {message : String} (hproceeds : modifier.pre.outcome? = none)
    (hmessage : modifier.post = .fail message) :
    Decides action (modifier :: rest)
      (.failed { context := [], root := .message message }) := by
  have hfails : FailsFirst (modifier :: rest) (stopOf (modifier :: rest)) 0 message := by
    refine ⟨?_, congrArg some hmessage, fun earlier hearlier => ?_⟩
    · rw [stopOf_cons_of_proceeds hproceeds]
      exact Nat.succ_pos _
    · exact absurd hearlier (Nat.not_lt_zero earlier)
  exact .failing hfails (settles_zero _ _)

/-- A modifier that lets the step go on is the last to handle what the others come to. -/
theorem Decides.cons {outcome : Outcome String} (hproceeds : modifier.pre.outcome? = none)
    (hdecides : Decides action rest outcome) :
    Decides action (modifier :: rest) (Outcome.ofHook (modifier.postAnswer outcome)) := by
  have hstop : stopOf (modifier :: rest) = stopOf rest + 1 := stopOf_cons_of_proceeds hproceeds
  by_cases hpost : ∃ message, modifier.post = .fail message
  · obtain ⟨message, hmessage⟩ := hpost
    have hanswer : Outcome.ofHook (modifier.postAnswer outcome) =
        .failed { context := [], root := .message message } := by
      unfold ScriptedModifier.postAnswer
      rw [hmessage]
      rfl
    rw [hanswer]
    exact decides_fail hproceeds hmessage
  · have hpasses : ∀ text, modifier.post ≠ .fail text := fun text heq => hpost ⟨text, heq⟩
    cases hdecides with
    | failing hfails hsettles =>
        refine .failing ?_ (hsettles.cons hpasses)
        rw [hstop]
        exact hfails.cons hpasses
    | unfailing hnone hsettles =>
        refine .unfailing ?_ ?_
        · rw [hstop]
          exact forall_postAt?_cons hpasses hnone
        · rw [hstop, turnOf_cons_of_proceeds hproceeds]
          exact hsettles.cons hpasses

end

/-! ## Runs -/

theorem preAnswer_of_proceeds {modifier : ScriptedModifier}
    (hproceeds : modifier.pre.outcome? = none) : modifier.preAnswer = .ok () := by
  unfold ScriptedModifier.preAnswer
  cases hscript : modifier.pre with
  | proceed => rfl
  | abort value => cases value <;> simp [hscript, PreScript.outcome?] at hproceeds
  | fail message => simp [hscript, PreScript.outcome?] at hproceeds

theorem preAnswer_of_stops {modifier : ScriptedModifier} {outcome : Outcome String}
    (hstops : modifier.pre.outcome? = some outcome) :
    ∃ interrupt, modifier.preAnswer = .error interrupt ∧ interrupt.outcome = outcome := by
  unfold ScriptedModifier.preAnswer
  cases hscript : modifier.pre with
  | proceed => simp [hscript, PreScript.outcome?] at hstops
  | abort value =>
      rw [hscript] at hstops
      cases value with
      | none => exact ⟨.skip, rfl, Option.some.inj hstops⟩
      | some value => exact ⟨.withValue value, rfl, Option.some.inj hstops⟩
  | fail message =>
      rw [hscript] at hstops
      exact ⟨.failure (.ofMessage message), rfl, Option.some.inj hstops⟩

theorem turnOf_nil (action : ScriptedAction) :
    turnOf action [] = Outcome.ofExcept action.answer := by
  unfold turnOf ScriptedAction.answer
  cases action.script <;> rfl

theorem nest_scripted (action : ScriptedAction) (modifiers : List ScriptedModifier)
    (view : StepView) (again : Observation Recorder String)
    (applied : List (Modifier Recorder String)) (log : Recorder) :
    ∃ report, nest view action.toAction again applied
        (modifiers.map ScriptedModifier.toModifier) log = some report ∧
      Decides action modifiers report.answer := by
  induction modifiers generalizing applied log with
  | nil =>
      refine ⟨_, nest_nil rfl, ?_⟩
      have hdecides : Decides action [] (turnOf action []) := decides_of_stopOf_zero rfl
      rwa [turnOf_nil] at hdecides
  | cons modifier rest ih =>
      let told := toldBefore view action.toAction applied (rest.map ScriptedModifier.toModifier)
      obtain ⟨before, hpre, hbefore⟩ : ∃ before,
          modifier.toModifier.observePre again told log = some before ∧
            before.answer = modifier.preAnswer := ⟨_, rfl, rfl⟩
      cases hstops : modifier.pre.outcome? with
      | some outcome =>
          obtain ⟨interrupt, hanswer, houtcome⟩ := preAnswer_of_stops hstops
          refine ⟨_, nest_interrupted hpre (hbefore.trans hanswer), ?_⟩
          have hdecides : Decides action (modifier :: rest) (turnOf action (modifier :: rest)) :=
            decides_of_stopOf_zero (stopOf_cons_of_stops hstops)
          rwa [turnOf_cons_of_stops hstops, ← houtcome] at hdecides
      | none =>
          obtain ⟨inner, hinner, hdecides⟩ := ih (applied ++ [modifier.toModifier]) before.ctx
          have hanswer := hbefore.trans (preAnswer_of_proceeds hstops)
          exact ⟨_, nest_enclosed hpre hanswer hinner rfl, hdecides.cons hstops⟩

end Scripted

theorem Outcome.toExcept_inj {α : Type} {outcome other : Outcome α}
    (hsame : outcome.toExcept = other.toExcept) : outcome = other := by
  cases outcome <;> cases other <;> simp_all [toExcept]

/-- A call of a step of scripted items returns what its scripts decide, and nothing else. -/
theorem Scripted.call_decided {μ : Type} (action : ScriptedAction)
    (modifiers : List ScriptedModifier) (metadata : μ) (address : Address) (log : Recorder)
    (outcome : Outcome String) :
    ((scriptedStep action modifiers metadata address).call log).1 =
        (match outcome with
        | .value value => .ok (some value)
        | .skipped => .ok none
        | .failed failure => .error failure) ↔
      Decides action modifiers outcome := by
  let step := scriptedStep action modifiers metadata address
  obtain ⟨report, hnest, hdecides⟩ := nest_scripted action modifiers step.view
    (step.requests step.action step.modifiers.length) [] log
  have hwithin : step.nestWithin step.depth step.action [] step.modifiers log = some report :=
    hnest
  have hcall : ((scriptedStep action modifiers metadata address).call log).1 =
      report.answer.toExcept :=
    congrArg Prod.fst (Step.call_of_nestWithin hwithin []).1
  have hreturned : outcome.toExcept =
      (match outcome with
      | .value value => .ok (some value)
      | .skipped => .ok none
      | .failed failure => .error failure) := by
    cases outcome <;> rfl
  rw [hcall, ← hreturned]
  constructor
  · intro hsame
    rw [← Outcome.toExcept_inj hsame]
    exact hdecides
  · intro hother
    rw [hdecides.unique hother]

namespace Scripted

/-- After the action `e` and `d` fail. -/
def crossedModifiers (second : PostScript) (last : PreScript) : List ScriptedModifier :=
  let header (name : String) : Header := ⟨name, scriptedAddress name⟩
  [{ header := header "a" }, { header := header "b", post := second }, { header := header "c" },
    { header := header "d", post := .fail "first" },
    { header := header "e", post := .fail "second" }, { header := header "f", pre := last }]

/-- After the action `b` hands the outcome on, and the others append. -/
def passingModifiers (last : PreScript) : List ScriptedModifier :=
  let header (name : String) : Header := ⟨name, scriptedAddress name⟩
  [{ header := header "a" }, { header := header "b", post := .pass },
    { header := header "c", pre := last }]

/-- What a call of an action of that script with the modifiers returns, which is what the
scripts decide. -/
def Returns (script : ActionScript) (modifiers : List ScriptedModifier)
    (result : Except Failure (Option String)) (outcome : Outcome String) : Prop :=
  let action : ScriptedAction := { header := ⟨"act", scriptedAddress "act"⟩, script }
  ((scriptedStep action modifiers () (Address.root "chain.yaml")).call {}).1 = result ∧
    Decides action modifiers outcome

theorem crossedModifiers_decided :
    Returns (.give "done") (crossedModifiers (.recover "saved") (.abort none))
        (.ok (some "saved|a")) (.value "saved|a") ∧
      Returns (.give "done") (crossedModifiers .append .proceed)
        (.error { context := [], root := .message "first" })
        (.failed { context := [], root := .message "first" }) ∧
      Returns (.give "done") (passingModifiers .proceed)
        (.ok (some "done|c|a")) (.value "done|c|a") ∧
      Returns (.fail "broken") (passingModifiers .proceed)
        (.error { context := [], root := .message "broken" })
        (.failed { context := [], root := .message "broken" }) ∧
      Returns (.give "done") (passingModifiers (.fail "refused"))
        (.error { context := [], root := .message "refused" })
        (.failed { context := [], root := .message "refused" }) ∧
      Returns (.give "done") (passingModifiers (.abort none)) (.ok none) .skipped := by
  refine ⟨⟨rfl, ?_⟩, ⟨rfl, ?_⟩, ⟨rfl, ?_⟩, ⟨rfl, ?_⟩, ⟨rfl, ?_⟩, ⟨rfl, ?_⟩⟩
  all_goals exact (call_decided _ _ () (Address.root "chain.yaml") {} _).mp rfl

end Scripted

end StepChain
