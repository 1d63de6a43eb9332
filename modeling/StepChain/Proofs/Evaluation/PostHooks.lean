import StepChain.Proofs.Evaluation.Ending

/-!
# What post-hooks are told

A post-hook is told as remaining the modifiers whose post-hooks are still to be called,
the next one last. As handled it is told every modifier after its own: first those whose
post-hooks have been called, the most recent first, and then those that were never
applied. The handled ones are just those that handled the outcome only when no pre-hook
interrupts the step.
-/

namespace StepChain

variable {σ α μ : Type}

/-! ## Post-hooks among calls -/

theorem concat_eq_append_cons {ι : Type} {inner front back : List ι} {last item : ι}
    (hsplit : inner ++ [last] = front ++ item :: back) :
    (inner = front ∧ last = item ∧ back = []) ∨
      ∃ middle, back = middle ++ [last] ∧ inner = front ++ item :: middle := by
  rcases List.eq_nil_or_concat back with rfl | ⟨middle, other, rfl⟩
  · obtain ⟨hinner, hlast⟩ := List.append_inj' hsplit rfl
    exact .inl ⟨hinner, (List.cons.inj hlast).1, rfl⟩
  · rw [List.concat_eq_append, ← List.cons_append, ← List.append_assoc] at hsplit
    obtain ⟨hinner, hlast⟩ := List.append_inj' hsplit rfl
    obtain rfl : last = other := (List.cons.inj hlast).1
    exact .inr ⟨middle, List.concat_eq_append, hinner⟩

def Call.posted? : Call σ α → Option (Modifier σ α)
  | .post modifier _ => some modifier
  | _ => none

/-- The modifiers whose post-hooks are called, in the order of the calls. -/
def postedBy (calls : List (Call σ α)) : List (Modifier σ α) :=
  calls.filterMap Call.posted?

theorem postedBy_append (front back : List (Call σ α)) :
    postedBy (front ++ back) = postedBy front ++ postedBy back :=
  List.filterMap_append

section

variable {view : StepView} {action : Action σ α} {applied pending : List (Modifier σ α)}
  {stop : Nat}

theorem posted?_of_nil {call : Call σ α}
    (hcall : call ∈ callsUpTo view action applied [] stop) : call.posted? = none := by
  by_cases hstop : stop = 0
  · have heq : call = .action action view := by simpa [callsUpTo, hstop] using hcall
    rw [heq]
    rfl
  · simp [callsUpTo, hstop] at hcall

theorem postedBy_callsUpTo :
    postedBy (callsUpTo view action applied pending stop) = (pending.take stop).reverse := by
  induction pending generalizing applied stop with
  | nil =>
      have hnone : postedBy (callsUpTo view action applied [] stop) = [] :=
        List.filterMap_eq_nil_iff.mpr fun call hcall => posted?_of_nil hcall
      simpa using hnone
  | cons modifier rest ih =>
      cases stop with
      | zero =>
          rw [callsUpTo_cons_zero]
          rfl
      | succ stop =>
          have hinner : postedBy (callsUpTo view action (applied ++ [modifier]) rest stop) =
              (rest.take stop).reverse := ih
          rw [callsUpTo_cons_succ, postedBy_append, List.take_succ_cons, List.reverse_cons,
            ← hinner]
          rfl

/-- What is told in one of the calls: the calls before it and after it make up the two
lists, apart from the modifiers that are applied from the outset or never applied. -/
theorem told_of_callsUpTo {front back : List (Call σ α)} {modifier : Modifier σ α}
    {told : PostCall}
    (hsplit : callsUpTo view action applied pending stop = front ++ .post modifier told :: back) :
    told.handled = modifierNames ((postedBy front).reverse ++ pending.drop stop) ∧
      told.remaining = modifierNames (applied ++ (postedBy back).reverse) := by
  induction pending generalizing applied stop front back with
  | nil =>
      have hcall : Call.post modifier told ∈ callsUpTo view action applied [] stop := by
        rw [hsplit]
        simp
      exact absurd (posted?_of_nil hcall) (by simp [Call.posted?])
  | cons first rest ih =>
      cases stop with
      | zero =>
          rw [callsUpTo_cons_zero] at hsplit
          cases front <;> simp at hsplit
      | succ stop =>
          rw [callsUpTo_cons_succ] at hsplit
          cases front with
          | nil => simp at hsplit
          | cons call front =>
              obtain ⟨hcall, htail⟩ := List.cons.inj hsplit
              have hfront : postedBy (call :: front) = postedBy front := by
                rw [← hcall]
                rfl
              rw [hfront, List.drop_succ_cons]
              -- The call is that of the first modifier, which is the last one, or an inner one.
              rcases concat_eq_append_cons htail with ⟨hinner, hlast, rfl⟩ | ⟨middle, rfl, hinner⟩
              · obtain ⟨-, rfl⟩ := Call.post.inj hlast
                rw [← hinner, postedBy_callsUpTo, List.reverse_reverse, List.take_append_drop]
                exact ⟨rfl, by simp [toldAfter_eq, postedBy]⟩
              · obtain ⟨hhandled, hremaining⟩ := ih hinner
                refine ⟨hhandled, ?_⟩
                rw [hremaining]
                simp [postedBy, Call.posted?]

end

/-! ## Post-hooks in runs -/

/-- The modifiers whose post-hooks are called, in the order of the calls. -/
def posted (events : List (Event σ α)) : List (Modifier σ α) :=
  postedBy (events.filterMap Event.call?)

/-- Every post-hook is told as handled the modifiers whose post-hooks were called before
its own, the most recent first, and as remaining those whose post-hooks are called after
it, the next one last. -/
def TellsWhoRuns (events : List (Event σ α)) : Prop :=
  ∀ front modifier told outcome ctx back,
    events = front ++ .postCall modifier told outcome ctx :: back →
      told.handled = (posted front).reverse.map (fun modifier => modifier.header.name) ∧
        told.remaining = (posted back).reverse.map fun modifier => modifier.header.name

theorem postCall_of_mem_posted {events : List (Event σ α)} {modifier : Modifier σ α}
    (hmem : modifier ∈ posted events) :
    ∃ front told outcome ctx back,
      events = front ++ .postCall modifier told outcome ctx :: back := by
  unfold posted postedBy at hmem
  rw [List.filterMap_filterMap] at hmem
  obtain ⟨event, hevent, hposted⟩ := List.mem_filterMap.mp hmem
  obtain ⟨front, back, hsplit⟩ := List.append_of_mem hevent
  cases event <;> simp [Event.call?, Call.posted?] at hposted
  subst hposted
  exact ⟨front, _, _, _, back, hsplit⟩

section

variable {view : StepView} {action : Action σ α} {pending : List (Modifier σ α)} {stop : Nat}
  {direct inner : List (Event σ α)} {report : Report σ α (Outcome α)}

theorem CallSequence.posted_eq {applied : List (Modifier σ α)}
    (hsequence : CallSequence view action applied pending stop direct inner report) :
    posted direct = (pending.take stop).reverse := by
  rw [posted, hsequence.calls, postedBy_callsUpTo]

theorem CallSequence.told
    (hsequence : CallSequence view action [] pending stop direct inner report)
    {front back : List (Event σ α)} {modifier : Modifier σ α} {told : PostCall}
    {outcome : Outcome α} {ctx : σ}
    (hsplit : direct = front ++ .postCall modifier told outcome ctx :: back) :
    told.handled =
        ((posted front).reverse ++ pending.drop stop).map (fun modifier => modifier.header.name) ∧
      told.remaining = (posted back).reverse.map fun modifier => modifier.header.name := by
  have hcalls : callsUpTo view action [] pending stop =
      front.filterMap Event.call? ++ .post modifier told :: back.filterMap Event.call? := by
    rw [← hsequence.calls, hsplit]
    simp [Event.call?]
  exact told_of_callsUpTo hcalls

theorem CallSequence.tellsWhoRuns_iff
    (hsequence : CallSequence view action [] pending stop direct inner report) :
    TellsWhoRuns direct ↔ stop = 0 ∨ stop = pending.length := by
  constructor
  · intro htells
    by_contra hstop
    have hlt : 0 < stop ∧ stop < pending.length := by
      have hle := hsequence.stop_le
      omega
    -- The first modifier completed, so that its post-hook is called.
    have hfirst : pending[0] ∈ posted direct := by
      rw [hsequence.posted_eq, List.mem_reverse]
      exact List.mem_take_iff_getElem.mpr ⟨0, by omega, rfl⟩
    obtain ⟨front, told, outcome, ctx, back, hsplit⟩ := postCall_of_mem_posted hfirst
    have hhandled := (hsequence.told hsplit).1
    rw [(htells front _ told outcome ctx back hsplit).1] at hhandled
    have hlength := congrArg List.length hhandled
    simp only [List.length_map, List.length_append, List.length_drop] at hlength
    omega
  · intro hstop front modifier told outcome ctx back hsplit
    obtain ⟨hhandled, hremaining⟩ := hsequence.told hsplit
    rcases hstop with rfl | rfl
    · have hmem : modifier ∈ posted direct := by
        rw [hsplit]
        simp [posted, postedBy, Event.call?, Call.posted?]
      rw [hsequence.posted_eq] at hmem
      simp at hmem
    · rw [List.drop_length, List.append_nil] at hhandled
      exact ⟨hhandled, hremaining⟩

end

/-! ## Calls of steps -/

/-- What the post-hooks of a run of a step are told when the first interrupt comes from the
modifier of an index, or from none when the index is their number. -/
structure Step.Tells (step : Step σ α μ) (stop : Nat) (direct : List (Event σ α)) : Prop where
  told : ∀ front modifier told outcome held back,
    direct = front ++ .postCall modifier told outcome held :: back →
      told.handled =
          ((posted front).reverse ++ step.modifiers.drop stop).map
            (fun modifier => modifier.header.name) ∧
        told.remaining = (posted back).reverse.map fun modifier => modifier.header.name
  whoRuns : TellsWhoRuns direct ↔ stop = 0 ∨ stop = step.modifiers.length

theorem CallSequence.tells {step : Step σ α μ} {stop : Nat} {direct inner : List (Event σ α)}
    {report : Report σ α (Outcome α)}
    (hsequence : CallSequence step.toldView step.action [] step.modifiers stop direct inner
      report) : step.Tells stop direct where
  told := fun _ _ _ _ _ _ hsplit => hsequence.told hsplit
  whoRuns := hsequence.tellsWhoRuns_iff

/-- A post-hook is told as handled, besides the modifiers that handled the outcome, those
that were never applied. Where a pre-hook interrupts the step after another one completed,
it is told of more modifiers than handled the outcome, and nowhere else. This is so in every
evaluation of the step that ends, at whatever depth. -/
theorem Step.call_tells (step : Step σ α μ)
    (hhooks : ∀ modifier ∈ step.modifiers, modifier.Plain) (ctx : σ) (log : List (Event σ α)) :
    (∀ depth outcome left,
        step.evaluateWithin depth step.action [] step.modifiers ctx = some (outcome, left) →
          ∃ events stop direct inner,
            step.recorded.evaluateWithin depth step.recorded.action [] step.recorded.modifiers
                (ctx, log) = some (outcome, (left, log ++ events)) ∧
              CallSequence step.toldView step.action [] step.modifiers stop direct inner
                { answer := outcome, ctx := left, events } ∧
              step.Tells stop direct) ∧
      (step.Ends step.action →
        ∃ report stop direct inner,
          step.call ctx = (report.answer.toExcept, report.ctx) ∧
            step.recorded.call (ctx, log) =
              (report.answer.toExcept, (report.ctx, log ++ report.events)) ∧
            CallSequence step.toldView step.action [] step.modifiers stop direct inner report ∧
            step.Tells stop direct) := by
  refine ⟨fun depth outcome left hwithin => ?_, fun hends => ?_⟩
  · obtain ⟨events, hnest, hrecorded⟩ := Step.nestWithin_of_evaluateWithin hwithin log
    obtain ⟨stop, direct, inner, hsequence⟩ := Step.callSequence_of_nestWithin hhooks hnest
    exact ⟨events, stop, direct, inner, hrecorded, hsequence, hsequence.tells⟩
  · obtain ⟨report, hnest⟩ := hends.exists_nestWithin hhooks
    obtain ⟨stop, direct, inner, hsequence⟩ := Step.callSequence_of_nestWithin hhooks hnest
    obtain ⟨hcall, hrecorded⟩ := Step.call_of_nestWithin hnest log
    exact ⟨report, stop, direct, inner, hcall, hrecorded, hsequence, hsequence.tells⟩

theorem abortedStep_call_tells :
    (∀ modifier ∈ abortedStep.modifiers, modifier.Plain) ∧
      abortedStep.Ends abortedStep.action ∧
      ∃ report stop direct inner,
        report.ctx.postNamesOf "a" = [(["b", "c"], [])] ∧
          CallSequence abortedStep.toldView abortedStep.action [] abortedStep.modifiers stop direct
            inner report ∧
          (TellsWhoRuns direct ↔ stop = 0 ∨ stop = 3) := by
  have hhooks : ∀ modifier ∈ abortedStep.modifiers, modifier.Plain := scriptedStep_plain _ _ _ _
  have hends : abortedStep.Ends abortedStep.action :=
    (ScriptedAction.toAction_plain _).ends abortedStep
  obtain ⟨-, hcalls⟩ := abortedStep.call_tells hhooks {} []
  obtain ⟨report, stop, direct, inner, hcall, -, hsequence, htells⟩ := hcalls hends
  have hctx : (abortedStep.call {}).2 = report.ctx := congrArg Prod.snd hcall
  refine ⟨hhooks, hends, report, stop, direct, inner, ?_, hsequence, htells.whoRuns⟩
  rw [← hctx]
  rfl

/-- The modifiers `b` and `c` did not handle the outcome that `a` receives: the one
aborted the step, and the other was never applied. -/
theorem abortedStep_not_tellsWhoRuns :
    (∀ modifier ∈ abortedStep.modifiers, modifier.Plain) ∧ abortedStep.action.Plain ∧
      ¬ TellsWhoRuns (abortedStep.recorded.call ({}, [])).2.2 := by
  refine ⟨scriptedStep_plain _ _ _ _, ScriptedAction.toAction_plain _, fun htells => ?_⟩
  let events := (abortedStep.recorded.call ({}, [])).2.2
  have hsplit : events = events.take 4 ++ events.drop 4 := (List.take_append_drop 4 events).symm
  obtain ⟨hhandled, -⟩ := htells (events.take 4) _ _ _ _ (events.drop 5) hsplit
  exact absurd hhandled (by decide)

end StepChain
