import StepChain.Attempts
import StepChain.Proofs.Evaluation.Ending

/-!
# Brackets

A modifier is open from the completion of its pre-hook to the call of its post-hook.
In a call of a step whose modifiers loop over what comes after them or make no
requests at all, modifiers are opened and closed like brackets, however loops nest and
wherever hooks abort or fail, and the action is called inside of all modifiers that do
not loop.
-/

namespace StepChain

variable {σ α β μ : Type}

/-! ## Bracketed events -/

/-- How an event changes the list of the open modifiers, the innermost first. A
post-hook must belong to the innermost one; the action must be called while exactly
`around` are open. -/
def Event.Turns (around opened left : List (Modifier σ α)) : Event σ α → Prop
  | .preCall _ _ _ => left = opened
  | .preReturn modifier (.ok ()) _ => left = modifier :: opened
  | .preReturn _ (.error _) _ => left = opened
  | .actionCall _ _ _ => left = opened ∧ opened.reverse = around
  | .actionReturn _ _ _ => left = opened
  | .postCall modifier _ _ _ => opened = modifier :: left
  | .postReturn _ _ _ => left = opened

/-- Some modifiers being open, these are left open after the events. -/
def Bracketed (around : List (Modifier σ α)) :
    (opened : List (Modifier σ α)) → List (Event σ α) → (left : List (Modifier σ α)) → Prop
  | opened, [], left => left = opened
  | opened, event :: later, left =>
      ∃ between, event.Turns around opened between ∧ Bracketed around between later left

section

variable {around opened between left : List (Modifier σ α)}

theorem Bracketed.append {front back : List (Event σ α)}
    (hfront : Bracketed around opened front between)
    (hback : Bracketed around between back left) :
    Bracketed around opened (front ++ back) left := by
  induction front generalizing opened with
  | nil =>
      obtain rfl : between = opened := hfront
      exact hback
  | cons event later ih =>
      obtain ⟨next, hturns, hlater⟩ := hfront
      exact ⟨next, hturns, ih hlater⟩

theorem bracketed_single {event : Event σ α} (hturns : event.Turns around opened left) :
    Bracketed around opened [event] left :=
  ⟨left, hturns, rfl⟩

/-- All that a loop evaluates is bracketed when each of its rounds is. -/
theorem bracketed_loopFrom {observe : Observation σ α} {start : Nat}
    (hround : ∀ ctx inner, observe start ctx = some inner →
      Bracketed around opened inner.events opened)
    (again : Nat → Outcome α → σ → Option σ) (rounds round : Nat) (last : Outcome α) (ctx : σ)
    {report : Report σ α (Except (Interrupt α) Unit)}
    (hobserve : (Routine.loopFrom start again rounds round last ctx).observe observe =
      some report) :
    Bracketed around opened report.events opened := by
  induction rounds generalizing round last ctx report with
  | zero =>
      cases hobserve
      rfl
  | succ rounds ih =>
      obtain ⟨inner, hinner, hnext⟩ := Option.bind_eq_some_iff.mp hobserve
      obtain ⟨rest, hrest, rfl⟩ := Option.map_eq_some_iff.mp hnext
      refine (hround ctx inner hinner).append ?_
      beta_reduce at hrest
      split at hrest
      · exact ih _ _ _ hrest
      · cases hrest
        rfl

end

/-! ## Steps with loops -/

/-- The open modifiers after the pre-hooks of some modifiers, where those that loop
never complete theirs. -/
def openAfter (loops : Modifier σ α → Bool) (modifiers : List (Modifier σ α)) :
    List (Modifier σ α) :=
  (modifiers.filter (!loops ·)).reverse

theorem openAfter_append_looping {loops : Modifier σ α → Bool} {modifier : Modifier σ α}
    (hloops : loops modifier = true) (modifiers : List (Modifier σ α)) :
    openAfter loops (modifiers ++ [modifier]) = openAfter loops modifiers := by
  simp [openAfter, List.filter_append, hloops]

theorem openAfter_append_plain {loops : Modifier σ α → Bool} {modifier : Modifier σ α}
    (hloops : loops modifier = false) (modifiers : List (Modifier σ α)) :
    openAfter loops (modifiers ++ [modifier]) = modifier :: openAfter loops modifiers := by
  simp [openAfter, List.filter_append, hloops]

/-- A step whose modifiers have different names and either loop, as told, or make no
requests. -/
structure Step.Mixed (step : Step σ α μ) (loops : Modifier σ α → Bool) : Prop where
  names : (modifierNames step.modifiers).Nodup
  looping : ∀ modifier ∈ step.modifiers, loops modifier = true → modifier.Looping
  plain : ∀ modifier ∈ step.modifiers, loops modifier = false → modifier.Plain
  action : step.action.Plain

section

variable {step : Step σ α μ} {loops : Modifier σ α → Bool}

theorem Step.Mixed.forward (hmixed : step.Mixed loops) : step.Forward := by
  intro position modifier hmodifier
  have hmem : modifier ∈ step.modifiers := List.mem_of_getElem? hmodifier
  cases hloops : loops modifier with
  | true =>
      exact (hmixed.looping modifier hmem hloops).forward
        (Step.position?_of_getElem? hmixed.names hmodifier)
  | false => exact (hmixed.plain modifier hmem hloops).forward step.view position

/-- An evaluation leaves open what was open, provided that evaluations on request do. -/
theorem Step.Mixed.nest_bracketed (hmixed : step.Mixed loops) {around : List (Modifier σ α)}
    (haround : around = step.modifiers.filter (!loops ·)) {again : Observation σ α}
    (hagain : ∀ start ctx inner, again start ctx = some inner →
      Bracketed around (openAfter loops (step.modifiers.take start)) inner.events
        (openAfter loops (step.modifiers.take start)))
    {applied pending : List (Modifier σ α)} (hsplit : step.modifiers = applied ++ pending)
    {ctx : σ} {report : Report σ α (Outcome α)}
    (hnest : nest step.view step.action again applied pending ctx = some report) :
    Bracketed around (openAfter loops applied) report.events (openAfter loops applied) := by
  induction pending generalizing applied ctx report with
  | nil =>
      obtain ⟨called, hcall, rfl⟩ := Option.map_eq_some_iff.mp hnest
      obtain ⟨inner, hquiet, hevents⟩ := Action.observeCall_events hcall
      obtain rfl : inner = [] := hquiet hmixed.action
      have hall : (openAfter loops applied).reverse = around := by
        simp [openAfter, haround, hsplit]
      simp only [hevents]
      exact ⟨_, ⟨rfl, hall⟩, _, rfl, rfl⟩
  | cons modifier rest ih =>
      have hmem : modifier ∈ step.modifiers := by simp [hsplit]
      have hrest : step.modifiers = (applied ++ [modifier]) ++ rest := by simp [hsplit]
      cases hloops : loops modifier with
      | true =>
          have hposition :
              (toldBefore step.view step.action applied rest).step.position? modifier.name =
                some applied.length := step.position?_of_split hmixed.names hsplit
          obtain ⟨rounds, goOn, begun, hloop⟩ :=
            (hmixed.looping modifier hmem hloops).pre_eq_loopFrom hposition ctx
          have hinterrupts :
              (modifier.pre (toldBefore step.view step.action applied rest) ctx).Answers
                fun answer => ∀ done, answer ≠ .ok done := by
            rw [hloop]
            exact Routine.answers_loopFrom goOn rounds 1 .skipped begun
          obtain ⟨observed, interrupt, hobserve, rfl⟩ := nest_of_interrupts hinterrupts hnest
          -- Each round starts after the modifier, where no more modifiers are open.
          have hround : ∀ ctx inner, again (applied.length + 1) ctx = some inner →
              Bracketed around (openAfter loops applied) inner.events
                (openAfter loops applied) := by
            intro ctx inner hinner
            have htake : step.modifiers.take (applied.length + 1) = applied ++ [modifier] := by
              rw [hrest, List.take_left' (by simp)]
            have hopen := hagain _ ctx inner hinner
            rwa [htake, openAfter_append_looping hloops] at hopen
          rw [hloop] at hobserve
          have hrounds := bracketed_loopFrom hround goOn rounds 1 .skipped begun hobserve
          exact Bracketed.append ⟨_, rfl, hrounds⟩ (bracketed_single rfl)
      | false =>
          have hplain : modifier.Plain := hmixed.plain modifier hmem hloops
          obtain ⟨answer, left, hpre⟩ :=
            hplain.observePre again (toldBefore step.view step.action applied rest) ctx
          simp only [nest_cons_eq, hpre, Option.bind_some] at hnest
          cases answer with
          | error interrupt =>
              cases hnest
              exact ⟨_, rfl, _, rfl, rfl⟩
          | ok done =>
              obtain ⟨inner, hinner, hlast⟩ := Option.bind_eq_some_iff.mp hnest
              obtain ⟨answer, after, hpost⟩ := hplain.observePost again
                (toldAfter step.view step.action applied rest) inner.answer inner.ctx
              rw [hpost, Option.map_some, Option.some.injEq] at hlast
              subst hlast
              have hinside := ih hrest hinner
              rw [openAfter_append_plain hloops] at hinside
              exact Bracketed.append (Bracketed.append ⟨_, rfl, _, rfl, rfl⟩ hinside)
                ⟨_, rfl, _, rfl, rfl⟩

theorem Step.Mixed.nestWithin_bracketed (hmixed : step.Mixed loops) {depth start : Nat} {ctx : σ}
    {report : Report σ α (Outcome α)}
    (hnest : step.nestWithin depth step.action (step.modifiers.take start)
      (step.modifiers.drop start) ctx = some report) :
    Bracketed (step.modifiers.filter (!loops ·)) (openAfter loops (step.modifiers.take start))
      report.events (openAfter loops (step.modifiers.take start)) := by
  induction depth generalizing start ctx report with
  | zero => exact absurd hnest (by simp [nestWithin])
  | succ depth ih =>
      refine hmixed.nest_bracketed rfl ?_ (List.take_append_drop start step.modifiers).symm hnest
      intro start ctx inner hinner
      exact ih hinner

end

/-- A call of a step with distinct names, whose modifiers loop over what comes after
them or make no requests, ends. Its events are bracketed: each post-hook closes the
modifier opened last, nothing else is closed, nothing is left open, and the action is
called while exactly the modifiers that do not loop are open. -/
theorem Step.call_bracketed (step : Step σ α μ) (loops : Modifier σ α → Bool)
    (hmixed : step.Mixed loops) (ctx : σ) (log : List (Event σ α)) :
    ∃ outcome left events,
      (∀ depth, step.depth ≤ depth →
        step.evaluateWithin depth step.action [] step.modifiers ctx = some (outcome, left)) ∧
      step.call ctx = (outcome.toExcept, left) ∧
      step.recorded.call (ctx, log) = (outcome.toExcept, (left, log ++ events)) ∧
      Bracketed (step.modifiers.filter (!loops ·)) [] events [] := by
  obtain ⟨report, hnest⟩ := hmixed.forward.nestWithin_depth hmixed.action ctx
  obtain ⟨hcall, hrecorded⟩ := step.call_of_nestWithin hnest log
  refine ⟨report.answer, report.ctx, report.events, ?_, hcall, hrecorded, ?_⟩
  · intro depth hdepth
    rw [step.evaluateWithin_eq_nestWithin, Step.nestWithin_mono hdepth hnest]
    rfl
  · have hwhole : step.nestWithin step.depth step.action (step.modifiers.take 0)
        (step.modifiers.drop 0) ctx = some report := hnest
    exact hmixed.nestWithin_bracketed hwhole

/-! ## Nested retries -/

namespace Attempts

theorem retry_looping (header : Header) (attempts : Nat) : (retry header attempts).Looping := by
  intro told run hmem
  obtain ⟨position, hposition⟩ := StepView.exists_position? hmem
  have hname : told.step.position? header.name = some position := hposition
  refine ⟨attempts, tryAgain, run, ?_⟩
  simp [retry, Modifier.name, Routine.loopAfter?, hname]

theorem trace_plain (header : Header) : (trace header).Plain where
  pre := fun _ _ => trivial
  post := fun _ _ _ => trivial

theorem flaky_plain (header : Header) (succeedOn : Nat) : (flaky header succeedOn).Plain :=
  fun _ _ => trivial

/-- A retry inside of a retry, with a trace around, between and inside of them. The
action succeeds when it is called for the fourth time. -/
def nestedRetries : Step Run Nat Unit :=
  let header (name : String) : Header := ⟨name, (Address.root "steps.yaml").key name⟩
  { action := flaky (header "flaky") 4
    modifiers :=
      [trace (header "outer"), retry (header "first") 2, trace (header "middle"),
        retry (header "second") 2, trace (header "inner")]
    metadata := ()
    address := Address.root "steps.yaml" }

def isRetry (modifier : Modifier Run Nat) : Bool :=
  modifier.name == "first" || modifier.name == "second"

theorem nestedRetries_mixed : nestedRetries.Mixed isRetry where
  names := by decide +kernel
  looping := by
    simp [nestedRetries, isRetry, Modifier.name, trace, retry_looping]
  plain := by
    simp [nestedRetries, isRetry, Modifier.name, retry, trace_plain]
  action := flaky_plain _ 4

theorem nestedRetries_call_bracketed :
    nestedRetries.Mixed isRetry ∧
      ∃ left events,
        nestedRetries.call {} = (.ok (some 4), left) ∧
          left.events =
            ["enter", "enter", "enter", "attempt 1", "exit failed: attempt 1 failed",
              "retry 1 failed", "enter", "attempt 2", "exit failed: attempt 2 failed",
              "retry 2 failed", "exit failed: attempt 2 failed", "retry 1 failed", "enter",
              "enter", "attempt 3", "exit failed: attempt 3 failed", "retry 1 failed", "enter",
              "attempt 4", "exit with 4", "exit with 4", "exit with 4"] ∧
          Bracketed (nestedRetries.modifiers.filter (!isRetry ·)) [] events [] := by
  obtain ⟨outcome, left, events, -, hcall, -, hbracketed⟩ :=
    nestedRetries.call_bracketed isRetry nestedRetries_mixed {} []
  have hleft : (nestedRetries.call {}).2 = left := congrArg Prod.snd hcall
  refine ⟨nestedRetries_mixed, left, events, ?_, ?_, hbracketed⟩
  · rw [← hleft]
    rfl
  · rw [← hleft]
    rfl

end Attempts

end StepChain
