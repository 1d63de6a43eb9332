import StepChain.Proofs.Evaluation.Nesting
import StepChain.Scripted.Item
import Mathlib.Data.List.Chain

/-!
# The calls of one evaluation

When hooks do not have the step evaluated again, one evaluation calls the pre-hooks
in order up to the first that interrupts the step, the action only if none does, and
the post-hooks of the completed modifiers in reverse. What post-hooks return does not
change who is called. The action may have the step evaluated again; all of that
stands between the beginning and the end of its one call.
-/

namespace StepChain

variable {σ α β μ : Type}

/-! ## Routines without requests -/

/-- A routine that ends at once. -/
def Routine.Plain : Routine σ α β → Prop
  | .done _ _ => True
  | .evaluate _ _ _ => False

/-- A modifier whose hooks never have the step evaluated. -/
structure Modifier.Plain (modifier : Modifier σ α) : Prop where
  pre : ∀ told ctx, (modifier.pre told ctx).Plain
  post : ∀ told outcome ctx, (modifier.post told outcome ctx).Plain

def Action.Plain (action : Action σ α) : Prop :=
  ∀ told ctx, (action.call told ctx).Plain

theorem Routine.Plain.observe {routine : Routine σ α β} (hplain : routine.Plain)
    (again : Observation σ α) :
    ∃ answer ctx, routine.observe again = some { answer, ctx, events := [] } := by
  cases routine with
  | done answer ctx => exact ⟨answer, ctx, rfl⟩
  | evaluate start ctx next => exact hplain.elim

theorem Modifier.Plain.observePre {modifier : Modifier σ α} (hplain : modifier.Plain)
    (again : Observation σ α) (told : PreCall) (ctx : σ) :
    ∃ answer left, modifier.observePre again told ctx = some
      { answer
        ctx := left
        events := [.preCall modifier told ctx, .preReturn modifier answer left] } := by
  obtain ⟨answer, left, hobserve⟩ := (hplain.pre told ctx).observe again
  exact ⟨answer, left, by rw [Modifier.observePre, hobserve]; rfl⟩

theorem Modifier.Plain.observePost {modifier : Modifier σ α} (hplain : modifier.Plain)
    (again : Observation σ α) (told : PostCall) (outcome : Outcome α) (ctx : σ) :
    ∃ answer left, modifier.observePost again told outcome ctx = some
      { answer
        ctx := left
        events := [.postCall modifier told outcome ctx, .postReturn modifier answer left] } := by
  obtain ⟨answer, left, hobserve⟩ := (hplain.post told outcome ctx).observe again
  exact ⟨answer, left, by rw [Modifier.observePost, hobserve]; rfl⟩

/-- The calls of an action end, in any context, when its requests may nest to less than a
depth. -/
def Step.EndsWithin (step : Step σ α μ) (depth : Nat) (action : Action σ α) : Prop :=
  ∀ ctx, ((action.call step.toldView ctx).run fun start ctx =>
    step.evaluateWithin depth action (step.modifiers.take start) (step.modifiers.drop start)
      ctx).isSome

/-- The calls of an action in an evaluation of a step end, in any context. -/
def Step.Ends (step : Step σ α μ) (action : Action σ α) : Prop :=
  step.EndsWithin step.modifiers.length action

theorem Action.Plain.ends {action : Action σ α} (hplain : action.Plain) (step : Step σ α μ) :
    step.Ends action := by
  intro ctx
  have hroutine := hplain step.toldView ctx
  cases hcall : action.call step.toldView ctx with
  | done answer left => rfl
  | evaluate start ctx next =>
      rw [hcall] at hroutine
      exact hroutine.elim

theorem Step.EndsWithin.observeCall_isSome {step : Step σ α μ} {depth : Nat}
    {action : Action σ α} (hends : step.EndsWithin depth action) (ctx : σ) :
    (action.observeCall (step.requests action depth) step.toldView ctx).isSome := by
  have hagrees : Embedding.plain.Agrees (step.requests action depth) fun start ctx =>
      step.evaluateWithin depth action (step.modifiers.take start) (step.modifiers.drop start)
        ctx :=
    fun start ctx _ => step.evaluateWithin_eq_nestWithin depth action _ _ ctx
  have hrun := hends ctx
  rw [Embedding.run_plain hagrees] at hrun
  simpa [Action.observeCall] using hrun

/-- What an action has evaluated stands inside of its call. -/
theorem Action.observeCall_events {action : Action σ α} {again : Observation σ α}
    {told : StepView} {ctx : σ} {called : Report σ α (Except Failure α)}
    (hcall : action.observeCall again told ctx = some called) :
    ∃ inner, (action.Plain → inner = []) ∧
      called.events =
        .actionCall action told ctx :: inner ++
          [.actionReturn action called.answer called.ctx] := by
  obtain ⟨observed, hobserve, rfl⟩ := Option.map_eq_some_iff.mp hcall
  refine ⟨observed.events, ?_, rfl⟩
  intro hplain
  obtain ⟨answer, left, hquiet⟩ := (hplain told ctx).observe again
  obtain rfl : _ = observed := Option.some.inj (hquiet.symm.trans hobserve)
  rfl

/-! ## What events say -/

/-- Who is called, and what it is told. -/
inductive Call (σ α : Type) where
  | pre (modifier : Modifier σ α) (told : PreCall)
  | action (action : Action σ α) (told : StepView)
  | post (modifier : Modifier σ α) (told : PostCall)

namespace Event

def call? : Event σ α → Option (Call σ α)
  | preCall modifier told _ => some (.pre modifier told)
  | actionCall action told _ => some (.action action told)
  | postCall modifier told _ _ => some (.post modifier told)
  | _ => none

/-- The modifier whose pre-hook ends, and whether it lets the step go on. -/
def proceeds? : Event σ α → Option (Modifier σ α × Bool)
  | preReturn modifier (.ok ()) _ => some (modifier, true)
  | preReturn modifier (.error _) _ => some (modifier, false)
  | _ => none

/-- The outcome that a call produces at its end. -/
def produced? : Event σ α → Option (Outcome α)
  | preReturn _ (.error (.abort outcome)) _ => some outcome
  | preReturn _ (.error (.failure cause)) _ => some (.failed cause)
  | actionReturn _ (.ok result) _ => some (.value result)
  | actionReturn _ (.error failure) _ => some (.failed failure)
  | postReturn _ (.ok outcome) _ => some outcome
  | postReturn _ (.error failure) _ => some (.failed failure)
  | _ => none

def received? : Event σ α → Option (Outcome α)
  | postCall _ _ outcome _ => some outcome
  | _ => none

/-- What the second of two events receives is what the first one produced. -/
def Feeds (event next : Event σ α) : Prop :=
  ∀ outcome, next.received? = some outcome → event.produced? = some outcome

end Event

namespace Event

theorem produced?_preReturn (modifier : Modifier σ α) (interrupt : Interrupt α) (ctx : σ) :
    (preReturn modifier (.error interrupt) ctx).produced? = some interrupt.outcome := by
  cases interrupt <;> rfl

theorem produced?_actionReturn (action : Action σ α) (answer : Except Failure α) (ctx : σ) :
    (actionReturn action answer ctx).produced? = some (Outcome.ofExcept answer) := by
  cases answer <;> rfl

theorem produced?_postReturn (modifier : Modifier σ α) (answer : Except Failure (Outcome α))
    (ctx : σ) : (postReturn modifier answer ctx).produced? = some (Outcome.ofHook answer) := by
  cases answer <;> rfl

end Event

theorem Event.feeds_of_received {event next : Event σ α} (hreceived : next.received? = none) :
    event.Feeds next := by
  intro outcome houtcome
  rw [hreceived] at houtcome
  exact absurd houtcome (by simp)

def Event.isActionCall : Event σ α → Bool
  | actionCall _ _ _ => true
  | _ => false

/-- The number of times that the action is called. -/
def actionCalls (events : List (Event σ α)) : Nat :=
  events.countP Event.isActionCall

theorem actionCalls_append (front back : List (Event σ α)) :
    actionCalls (front ++ back) = actionCalls front + actionCalls back :=
  List.countP_append

/-! ## The sequence of calls -/

/-- The calls of an evaluation in which the first interrupt comes from the pending
modifier of an index, or from none when the index is their number. -/
def callsUpTo (view : StepView) (action : Action σ α) (applied pending : List (Modifier σ α))
    (stop : Nat) : List (Call σ α) :=
  (pending.take (stop + 1)).mapIdx (fun index modifier =>
      .pre modifier
        (toldBefore view action (applied ++ pending.take index) (pending.drop (index + 1)))) ++
    (if stop = pending.length then [.action action view] else []) ++
    ((pending.take stop).mapIdx fun index modifier =>
      .post modifier
        (toldAfter view action (applied ++ pending.take index)
          (pending.drop (index + 1)))).reverse

theorem callsUpTo_cons_zero (view : StepView) (action : Action σ α)
    (applied rest : List (Modifier σ α)) (modifier : Modifier σ α) :
    callsUpTo view action applied (modifier :: rest) 0 =
      [.pre modifier (toldBefore view action applied rest)] := by
  simp [callsUpTo]

theorem callsUpTo_cons_succ (view : StepView) (action : Action σ α)
    (applied rest : List (Modifier σ α)) (modifier : Modifier σ α) (stop : Nat) :
    callsUpTo view action applied (modifier :: rest) (stop + 1) =
      .pre modifier (toldBefore view action applied rest) ::
        callsUpTo view action (applied ++ [modifier]) rest stop ++
        [.post modifier (toldAfter view action applied rest)] := by
  simp [callsUpTo, List.mapIdx_cons]

/-- Some events are others with inner ones in a call of the action. -/
def Enclosing (view : StepView) (action : Action σ α) (direct inner events : List (Event σ α)) :
    Prop :=
  ∃ before after, direct = before ++ after ∧ events = before ++ inner ++ after ∧
    (inner ≠ [] → ∃ ctx, before.getLast? = some (.actionCall action view ctx))

theorem enclosing_nil (view : StepView) (action : Action σ α) (events : List (Event σ α)) :
    Enclosing view action events [] events :=
  ⟨events, [], (List.append_nil _).symm, by simp, fun hinner => absurd rfl hinner⟩

theorem Enclosing.surround {view : StepView} {action : Action σ α}
    {direct inner events : List (Event σ α)} (henclosing : Enclosing view action direct inner events)
    (front back : List (Event σ α)) :
    Enclosing view action (front ++ direct ++ back) inner (front ++ events ++ back) := by
  obtain ⟨before, after, rfl, rfl, hcall⟩ := henclosing
  refine ⟨front ++ before, after ++ back, by simp, by simp, ?_⟩
  intro hinner
  obtain ⟨ctx, hlast⟩ := hcall hinner
  exact ⟨ctx, by rw [List.getLast?_append, hlast]; rfl⟩

/-- The events of an evaluation that is first interrupted at an index: `direct` are
those of its own calls, `inner` those of what the action has evaluated. -/
structure CallSequence (view : StepView) (action : Action σ α)
    (applied pending : List (Modifier σ α)) (stop : Nat) (direct inner : List (Event σ α))
    (report : Report σ α (Outcome α)) : Prop where
  stop_le : stop ≤ pending.length
  /-- The pre-hooks before the index complete, and the one at the index does not. -/
  answers : direct.filterMap Event.proceeds? =
    (pending.take stop).map (fun modifier => (modifier, true)) ++
      pending[stop]?.toList.map fun modifier => (modifier, false)
  calls : direct.filterMap Event.call? = callsUpTo view action applied pending stop
  /-- Each post-hook receives what the call before it produced. -/
  feeds : direct.IsChain Event.Feeds
  first : ∀ event ∈ direct.head?, event.received? = none
  last : ∃ event ∈ direct.getLast?, event.produced? = some report.answer
  quiet : stop < pending.length ∨ action.Plain → inner = []
  whole : Enclosing view action direct inner report.events

section

variable {view : StepView} {action : Action σ α} {modifier : Modifier σ α}
  {applied rest : List (Modifier σ α)} {ctx left after : σ}

theorem CallSequence.uninterrupted {called : Report σ α (Except Failure α)}
    {inner : List (Event σ α)} (hquiet : action.Plain → inner = [])
    (hevents : called.events =
      .actionCall action view ctx :: inner ++ [.actionReturn action called.answer called.ctx]) :
    CallSequence view action applied [] 0
      [.actionCall action view ctx, .actionReturn action called.answer called.ctx] inner
      { called with answer := Outcome.ofExcept called.answer } where
  stop_le := Nat.le_refl 0
  answers := rfl
  calls := rfl
  feeds := by simp [Event.Feeds, Event.received?]
  first := by simp [Event.received?]
  last := by simp [Event.produced?_actionReturn]
  quiet := by simpa using hquiet
  whole := ⟨[.actionCall action view ctx], [.actionReturn action called.answer called.ctx], rfl,
    hevents, fun _ => ⟨ctx, rfl⟩⟩

theorem CallSequence.interrupted (interrupt : Interrupt α) :
    CallSequence view action applied (modifier :: rest) 0
      [.preCall modifier (toldBefore view action applied rest) ctx,
        .preReturn modifier (.error interrupt) left]
      []
      { answer := interrupt.outcome
        ctx := left
        events :=
          [.preCall modifier (toldBefore view action applied rest) ctx,
            .preReturn modifier (.error interrupt) left] } where
  stop_le := Nat.zero_le _
  answers := rfl
  calls := (callsUpTo_cons_zero view action applied rest modifier).symm
  feeds := by simp [Event.Feeds, Event.received?]
  first := by simp [Event.received?]
  last := by simp [Event.produced?_preReturn]
  quiet := fun _ => rfl
  whole := enclosing_nil view action _

/-- A modifier whose pre-hook completes is the first and the last to be called. -/
theorem CallSequence.enclosed {stop : Nat} {direct inner : List (Event σ α)}
    {report : Report σ α (Outcome α)}
    (hinner : CallSequence view action (applied ++ [modifier]) rest stop direct inner report)
    (answer : Except Failure (Outcome α)) :
    CallSequence view action applied (modifier :: rest) (stop + 1)
      ([.preCall modifier (toldBefore view action applied rest) ctx,
          .preReturn modifier (.ok ()) left] ++
        direct ++
        [.postCall modifier (toldAfter view action applied rest) report.answer report.ctx,
          .postReturn modifier answer after])
      inner
      { answer := Outcome.ofHook answer
        ctx := after
        events :=
          [.preCall modifier (toldBefore view action applied rest) ctx,
              .preReturn modifier (.ok ()) left] ++
            report.events ++
            [.postCall modifier (toldAfter view action applied rest) report.answer report.ctx,
              .postReturn modifier answer after] } where
  stop_le := Nat.succ_le_succ hinner.stop_le
  answers := by
    simp [List.filterMap_cons, Event.proceeds?, hinner.answers]
  calls := by
    simp [List.filterMap_cons, Event.call?, hinner.calls, callsUpTo_cons_succ]
  feeds := by
    obtain ⟨event, hevent, hproduced⟩ := hinner.last
    -- Of the seams only the second feeds anything: the inner answer, to the post-hook.
    refine List.IsChain.append (List.IsChain.append ?_ hinner.feeds ?_) ?_ ?_
    · simp [Event.Feeds, Event.received?]
    · intro last _ first hfirst
      exact Event.feeds_of_received (hinner.first first hfirst)
    · simp [Event.Feeds, Event.received?]
    · intro last hlast first hfirst outcome hreceived
      rw [List.getLast?_append, Option.mem_def.mp hevent] at hlast
      obtain rfl : event = last := by simpa using hlast
      obtain rfl : _ = first := by simpa using hfirst
      rw [hproduced]
      exact hreceived
  first := by simp [Event.received?]
  last := by
    refine ⟨.postReturn modifier answer after, ?_, Event.produced?_postReturn ..⟩
    rw [List.getLast?_append]
    rfl
  quiet := by simpa using hinner.quiet
  whole := hinner.whole.surround _ _

end

section

variable {view : StepView} {action : Action σ α} {again : Observation σ α}
  {applied pending : List (Modifier σ α)}

theorem nest_callSequence (hhooks : ∀ modifier ∈ pending, modifier.Plain) {ctx : σ}
    {report : Report σ α (Outcome α)}
    (hnest : nest view action again applied pending ctx = some report) :
    ∃ stop direct inner,
      CallSequence view action applied pending stop direct inner report := by
  induction pending generalizing applied ctx report with
  | nil =>
      rw [nest_nil_eq] at hnest
      obtain ⟨called, hcall, rfl⟩ := Option.map_eq_some_iff.mp hnest
      obtain ⟨inner, hquiet, hevents⟩ := Action.observeCall_events hcall
      exact ⟨0, _, inner, CallSequence.uninterrupted hquiet hevents⟩
  | cons modifier rest ih =>
      obtain ⟨hmodifier, hrest⟩ := List.forall_mem_cons.mp hhooks
      obtain ⟨answer, left, hpre⟩ :=
        hmodifier.observePre again (toldBefore view action applied rest) ctx
      rw [nest_cons_eq, hpre, Option.bind_some] at hnest
      cases answer with
      | error interrupt =>
          cases hnest
          exact ⟨0, _, [], CallSequence.interrupted interrupt⟩
      | ok done =>
          obtain ⟨inner, hinner, hlast⟩ := Option.bind_eq_some_iff.mp hnest
          obtain ⟨stop, direct, among, hsequence⟩ := ih hrest hinner
          obtain ⟨answer, after, hpost⟩ := hmodifier.observePost again
            (toldAfter view action applied rest) inner.answer inner.ctx
          rw [hpost] at hlast
          cases hlast
          exact ⟨stop + 1, _, among, hsequence.enclosed answer⟩

theorem nest_isSome_of_plain (hhooks : ∀ modifier ∈ pending, modifier.Plain)
    (haction : ∀ ctx, (action.observeCall again view ctx).isSome) (ctx : σ) :
    (nest view action again applied pending ctx).isSome := by
  induction pending generalizing applied ctx with
  | nil =>
      rw [nest_nil_eq, Option.isSome_map]
      exact haction ctx
  | cons modifier rest ih =>
      obtain ⟨hmodifier, hrest⟩ := List.forall_mem_cons.mp hhooks
      obtain ⟨answer, left, hpre⟩ :=
        hmodifier.observePre again (toldBefore view action applied rest) ctx
      cases answer with
      | error interrupt => rw [nest_interrupted hpre rfl, Option.isSome_some]
      | ok done =>
          obtain ⟨inner, hinner⟩ := Option.isSome_iff_exists.mp (ih hrest left)
          obtain ⟨answer, after, hpost⟩ := hmodifier.observePost again
            (toldAfter view action applied rest) inner.answer inner.ctx
          rw [nest_enclosed hpre rfl hinner hpost, Option.isSome_some]

end

section

variable {step : Step σ α μ} {action : Action σ α} {applied pending : List (Modifier σ α)}
  {depth : Nat} {ctx : σ}

theorem Step.callSequence_of_nestWithin (hhooks : ∀ modifier ∈ pending, modifier.Plain)
    {report : Report σ α (Outcome α)}
    (hnest : step.nestWithin depth action applied pending ctx = some report) :
    ∃ stop direct inner,
      CallSequence step.toldView action applied pending stop direct inner report := by
  cases depth with
  | zero => cases hnest
  | succ depth => exact nest_callSequence hhooks hnest

theorem Step.EndsWithin.exists_nestWithin (hends : step.EndsWithin depth action)
    (hhooks : ∀ modifier ∈ pending, modifier.Plain) :
    ∃ report, step.nestWithin (depth + 1) action applied pending ctx = some report :=
  Option.isSome_iff_exists.mp (nest_isSome_of_plain hhooks hends.observeCall_isSome ctx)

end

/-- When hooks make no requests, an evaluation that ends, at whatever depth, calls the
pre-hooks up to the first interrupt, then the action if there was none, then the post-hooks of
the completed modifiers, each on what the call before it produced. It does end one level above
the calls of the action. -/
theorem Step.evaluate_callSequence (step : Step σ α μ) (action : Action σ α)
    (applied pending : List (Modifier σ α)) (hhooks : ∀ modifier ∈ pending, modifier.Plain)
    (ctx : σ) (log : List (Event σ α)) :
    (∀ depth outcome left,
        step.evaluateWithin depth action applied pending ctx = some (outcome, left) →
          ∃ events stop direct inner,
            step.recorded.evaluateWithin depth action.recorded (applied.map Modifier.recorded)
                (pending.map Modifier.recorded) (ctx, log) =
              some (outcome, (left, log ++ events)) ∧
            CallSequence step.toldView action applied pending stop direct inner
              { answer := outcome, ctx := left, events }) ∧
      (∀ depth, step.EndsWithin depth action →
        (step.evaluateWithin (depth + 1) action applied pending ctx).isSome) ∧
      (step.Ends action →
        ∃ report stop direct inner,
          step.evaluate action applied pending ctx = (report.answer, report.ctx) ∧
            step.recorded.evaluate action.recorded (applied.map Modifier.recorded)
                (pending.map Modifier.recorded) (ctx, log) =
              (report.answer, (report.ctx, log ++ report.events)) ∧
            CallSequence step.toldView action applied pending stop direct inner report) := by
  refine ⟨fun depth outcome left hwithin => ?_, fun depth hends => ?_, fun hends => ?_⟩
  · obtain ⟨events, hnest, hrecorded⟩ := Step.nestWithin_of_evaluateWithin hwithin log
    obtain ⟨stop, direct, inner, hsequence⟩ := Step.callSequence_of_nestWithin hhooks hnest
    exact ⟨events, stop, direct, inner, hrecorded, hsequence⟩
  · obtain ⟨report, hnest⟩ := hends.exists_nestWithin hhooks
    rw [step.evaluateWithin_eq_nestWithin, hnest]
    rfl
  · obtain ⟨report, hnest⟩ := hends.exists_nestWithin hhooks
    obtain ⟨stop, direct, inner, hsequence⟩ := Step.callSequence_of_nestWithin hhooks hnest
    obtain ⟨hevaluate, hrecorded⟩ := Step.evaluate_of_nestWithin hnest log
    exact ⟨report, stop, direct, inner, hevaluate, hrecorded, hsequence⟩

theorem ScriptedModifier.toModifier_plain (modifier : ScriptedModifier) :
    modifier.toModifier.Plain where
  pre := fun _ _ => trivial
  post := fun _ _ _ => trivial

theorem ScriptedAction.toAction_plain (action : ScriptedAction) : action.toAction.Plain :=
  fun _ _ => trivial

/-- An action with some modifiers, all of them scripted. -/
def scriptedStep (action : ScriptedAction) (modifiers : List ScriptedModifier)
    (metadata : μ) (address : Address) : Step Recorder String μ :=
  { action := action.toAction
    modifiers := modifiers.map ScriptedModifier.toModifier
    metadata
    address }

theorem scriptedStep_plain (action : ScriptedAction) (modifiers : List ScriptedModifier)
    (metadata : μ) (address : Address) :
    ∀ modifier ∈ (scriptedStep action modifiers metadata address).modifiers, modifier.Plain := by
  intro modifier hmodifier
  obtain ⟨scripted, -, rfl⟩ := List.mem_map.mp hmodifier
  exact scripted.toModifier_plain

/-- Three modifiers, of which the second may stop the step. -/
def guardedStep (script : ActionScript) (pre : PreScript) : Step Recorder String Unit :=
  let header (name : String) : Header := ⟨name, scriptedAddress name⟩
  scriptedStep { header := header "act", script }
    [{ header := header "a" }, { header := header "b", pre }, { header := header "c" }] ()
    (Address.root "scripted")

/-- The second of three modifiers aborts with a value. -/
def abortedStep : Step Recorder String Unit :=
  guardedStep (.give "v") (.abort (some "early"))

/-- An evaluation of the step from an empty record, with the entries that it leaves and the
outcomes that post-hooks receive. -/
def Step.CallsInTurn (step : Step Recorder String Unit) (outcome : Outcome String)
    (entries : List String) (received : List (Outcome String)) : Prop :=
  ∃ report stop direct inner,
    step.evaluate step.action [] step.modifiers {} = (outcome, report.ctx) ∧
      report.ctx.entries = entries ∧
      report.events.filterMap Event.received? = received ∧
      CallSequence step.toldView step.action [] step.modifiers stop direct inner report

/-- The action has the step evaluated again as often as its context says. -/
def recallingStep : Step Nat String Unit :=
  { action :=
      { header := ⟨"act", scriptedAddress "act"⟩
        call := fun _ times =>
          match times with
          | 0 => .done (.ok "last") 0
          | times + 1 => .evaluate 0 times fun _ left => .done (.ok "again") left }
    modifiers := [{ header := ⟨"a", scriptedAddress "a"⟩ }]
    metadata := ()
    address := Address.root "scripted" }

/-- The second modifier aborts; the action returns; the action fails; and the action nests
deeper than calls of the step may. -/
theorem guardedStep_callSequence :
    abortedStep.CallsInTurn (.value "early|a") ["pre:a", "pre:b", "post:a"] [.value "early"] ∧
      (guardedStep (.give "v") .proceed).CallsInTurn (.value "v|c|b|a")
        ["pre:a", "pre:b", "pre:c", "call:act", "post:c", "post:b", "post:a"]
        [.value "v", .value "v|c", .value "v|c|b"] ∧
      (let broken : Outcome String := .failed { context := [], root := .message "broken" }
      (guardedStep (.fail "broken") .proceed).CallsInTurn broken
        ["pre:a", "pre:b", "pre:c", "call:act", "post:c", "post:b", "post:a"]
        [broken, broken, broken]) ∧
      (recallingStep.evaluate recallingStep.action [] recallingStep.modifiers 3).1 =
        .failed recallingStep.endless ∧
      ∃ report stop direct inner,
        recallingStep.evaluateWithin 4 recallingStep.action [] recallingStep.modifiers 3 =
            some (.value "again", 0) ∧
          report.answer = .value "again" ∧ actionCalls report.events = 4 ∧
          CallSequence recallingStep.toldView recallingStep.action [] recallingStep.modifiers stop
            direct inner report := by
  have hruns : ∀ script pre,
      let step := guardedStep script pre
      let result := step.recorded.evaluate step.action.recorded []
        (step.modifiers.map Modifier.recorded) ({}, [])
      step.CallsInTurn result.1 result.2.1.entries (result.2.2.filterMap Event.received?) := by
    intro script pre step result
    have hhooks : ∀ modifier ∈ step.modifiers, modifier.Plain := scriptedStep_plain _ _ _ _
    have hends : step.Ends step.action := (ScriptedAction.toAction_plain _).ends step
    obtain ⟨-, -, hcalls⟩ := step.evaluate_callSequence step.action [] step.modifiers hhooks {} []
    obtain ⟨report, stop, direct, inner, hevaluate, hrecorded, hsequence⟩ := hcalls hends
    have hresult : result = (report.answer, (report.ctx, report.events)) := hrecorded
    rw [hresult]
    exact ⟨report, stop, direct, inner, hevaluate, rfl, rfl, hsequence⟩
  refine ⟨hruns _ _, hruns _ _, hruns _ _, rfl, ?_⟩
  have hhooks : ∀ modifier ∈ recallingStep.modifiers, modifier.Plain := by
    intro modifier hmodifier
    obtain rfl := List.mem_singleton.mp hmodifier
    exact ⟨fun _ _ => trivial, fun _ _ _ => trivial⟩
  obtain ⟨hany, -, -⟩ := recallingStep.evaluate_callSequence recallingStep.action []
    recallingStep.modifiers hhooks 3 []
  obtain ⟨events, stop, direct, inner, hrecorded, hsequence⟩ := hany 4 (.value "again") 0 rfl
  refine ⟨_, stop, direct, inner, rfl, rfl, ?_, hsequence⟩
  have hevents := congrArg (Option.map fun result => actionCalls result.2.2) hrecorded
  exact (Option.some.inj hevents).symm

end StepChain
