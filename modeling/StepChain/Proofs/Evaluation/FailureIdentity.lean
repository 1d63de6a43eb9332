import StepChain.Proofs.Evaluation.Nesting
import StepChain.Scripted.Planned

/-!
# Failures keep their identity

A failure may enter the post-hooks from the action, from a pre-hook that fails or with an
abort. Hooks that hand failures on, at most with one more message of context, leave its root
and its own messages as they are: what a call of the step returns in the end differs from it
by the added context only, that of the first modifier outermost.
-/

namespace StepChain

variable {σ α μ : Type}

/-! ## Failures with more context -/

/-- A failure inside of some messages of context, the outermost first. -/
def Failure.inContexts (failure : Failure) (texts : List String) : Failure :=
  { failure with context := texts ++ failure.context }

namespace Failure

@[simp] theorem inContexts_nil (failure : Failure) : failure.inContexts [] = failure := rfl

theorem inContexts_single (failure : Failure) (text : String) :
    failure.inContexts [text] = failure.withContext text := rfl

theorem inContexts_inContexts (failure : Failure) (inner outer : List String) :
    (failure.inContexts inner).inContexts outer = failure.inContexts (outer ++ inner) := by
  simp [inContexts]

theorem chain_inContexts (failure : Failure) (texts : List String) :
    (failure.inContexts texts).chain = texts ++ failure.chain := by
  simp [inContexts, chain]

end Failure

/-- A hook that was given a failure hands it on: unchanged, or with one message of context
added to it. -/
def HandsOn (failure : Failure) (added : Option String) (answer : Except Failure (Outcome α)) :
    Prop :=
  answer = .ok (.failed (failure.inContexts added.toList)) ∨
    answer = .error (failure.inContexts added.toList)

theorem HandsOn.ofHook_eq {failure : Failure} {added : Option String}
    {answer : Except Failure (Outcome α)} (hanswer : HandsOn failure added answer) :
    Outcome.ofHook answer = .failed (failure.inContexts added.toList) := by
  rcases hanswer with rfl | rfl <;> rfl

/-! ## The turn from pre-hooks to post-hooks -/

namespace Chain

variable {chain : Chain σ α} {completed pending handled : List (Modifier σ α)} {ctx left : σ}

/-- The outcome and the context that the post-hooks start with: those of the interrupt, or
else what the action comes to. -/
def turn (chain : Chain σ α) (reached : Advance σ α) : Option (Outcome α × σ) :=
  match reached.stop with
  | some outcome => some (outcome, reached.ctx)
  | none =>
      match (chain.action.call chain.step reached.ctx).run chain.again with
      | none => none
      | some (.ok result, ctx) => some (.value result, ctx)
      | some (.error failure, ctx) => some (.failed failure, ctx)

theorem evaluate_of_turn {reached : Advance σ α} {outcome : Outcome α} {between : σ}
    (hreached : chain.advance [] pending ctx = some reached)
    (hturn : chain.turn reached = some (outcome, between)) :
    chain.evaluate pending ctx =
      chain.unwind reached.completed reached.untouched outcome between := by
  simp only [evaluate, hreached]
  cases hstop : reached.stop with
  | some interrupted =>
      obtain ⟨rfl, rfl⟩ : interrupted = outcome ∧ reached.ctx = between := by
        simpa [turn, hstop] using hturn
      rfl
  | none =>
      rw [(split_of_advance hreached).2 hstop]
      simp only [turn, hstop] at hturn
      cases hcall : (chain.action.call chain.step reached.ctx).run chain.again with
      | none => simp [hcall] at hturn
      | some called =>
          obtain ⟨answer, left⟩ := called
          obtain ⟨rfl, rfl⟩ : Outcome.ofExcept answer = outcome ∧ left = between := by
            cases answer <;> simpa [hcall, Outcome.ofExcept] using hturn
          rfl

/-! ## Post-hooks that hand a failure on -/

/-- The post-hooks of the completed modifiers, called one after the other, hand a failure
on. What each of them adds stands in a list, and the context they leave at its end. -/
inductive Relays (chain : Chain σ α) :
    (completed handled : List (Modifier σ α)) → Failure → σ → List (Option String) → σ → Prop where
  | nil {handled : List (Modifier σ α)} {failure : Failure} {ctx : σ} :
      Relays chain [] handled failure ctx [] ctx
  | cons {modifier : Modifier σ α} {completed handled : List (Modifier σ α)} {failure : Failure}
      {ctx between left : σ} {answer : Except Failure (Outcome α)} {added : Option String}
      {more : List (Option String)}
      (hpost : (modifier.post (chain.postCall completed handled) (.failed failure) ctx).run
        chain.again = some (answer, between))
      (hanswer : HandsOn failure added answer)
      (hlater : Relays chain completed (modifier :: handled)
        (failure.inContexts added.toList) between more left) :
      Relays chain (modifier :: completed) handled failure ctx (added :: more) left

theorem Relays.unwind_eq {failure : Failure} {added : List (Option String)}
    (hrelays : chain.Relays completed handled failure ctx added left) :
    chain.unwind completed handled (.failed failure) ctx =
      some (.failed (failure.inContexts (added.reverse.flatMap Option.toList)), left) := by
  induction hrelays with
  | nil => rfl
  | cons hpost hanswer _ ih =>
      -- What a post-hook adds stands inside of what the later ones add.
      simp only [unwind, hpost, hanswer.ofHook_eq, ih, Failure.inContexts_inContexts]
      simp

theorem Relays.length_eq {failure : Failure} {added : List (Option String)}
    (hrelays : chain.Relays completed handled failure ctx added left) :
    added.length = completed.length := by
  induction hrelays with
  | nil => rfl
  | cons _ _ _ ih => rw [List.length_cons, List.length_cons, ih]

end Chain

/-- The post-hook of a modifier ends when it is given a failure, and hands it on. -/
def Modifier.HandsFailuresOn (modifier : Modifier σ α) (again : Reentry σ α) : Prop :=
  ∀ told failure ctx, ∃ answer left added,
    (modifier.post told (.failed failure) ctx).run again = some (answer, left) ∧
      HandsOn failure added answer

theorem Chain.exists_relays {chain : Chain σ α} {completed : List (Modifier σ α)}
    (hposts : ∀ modifier ∈ completed, modifier.HandsFailuresOn chain.again)
    (handled : List (Modifier σ α)) (failure : Failure) (ctx : σ) :
    ∃ added left, chain.Relays completed handled failure ctx added left := by
  induction completed generalizing handled failure ctx with
  | nil => exact ⟨[], ctx, .nil⟩
  | cons modifier rest ih =>
      obtain ⟨hmodifier, hrest⟩ := List.forall_mem_cons.mp hposts
      obtain ⟨answer, between, added, hpost, hanswer⟩ :=
        hmodifier (chain.postCall rest handled) failure ctx
      obtain ⟨more, left, hlater⟩ := ih hrest (modifier :: handled)
        (failure.inContexts added.toList) between
      exact ⟨added :: more, left, .cons hpost hanswer hlater⟩

/-! ## Calls of steps -/

namespace Step

/-- The chain of a call of a step whose requests nest to less than a depth. -/
def chainWithin (step : Step σ α μ) (depth : Nat) : Chain σ α :=
  { step := step.view
    action := step.action
    applied := []
    again := fun start ctx =>
      step.evaluateWithin depth step.action (step.modifiers.take start)
        (step.modifiers.drop start) ctx }

theorem evaluateWithin_eq_chainWithin (step : Step σ α μ) (depth : Nat) (ctx : σ) :
    step.evaluateWithin (depth + 1) step.action [] step.modifiers ctx =
      (step.chainWithin depth).evaluate step.modifiers ctx := rfl

theorem call_of_evaluateWithin {step : Step σ α μ} {depth : Nat} {ctx left : σ}
    {outcome : Outcome α} (hdepth : depth ≤ step.depth)
    (hwithin : step.evaluateWithin depth step.action [] step.modifiers ctx =
      some (outcome, left)) :
    step.call ctx = (outcome.toExcept, left) := by
  rw [call, evaluate, evaluateWithin_mono hdepth hwithin]
  rfl

/-- In any run in which the post-hooks start with a failure and hand it on, the step ends
with this failure inside of what they add: the messages of the first modifier outermost, then
those of the failure itself, over the same root. Post-hooks that hand on every failure do so
in each run. -/
theorem call_keeps_failure (step : Step σ α μ) (depth : Nat) (ctx between : σ)
    (reached : Advance σ α) (failure : Failure)
    (hreached : (step.chainWithin depth).advance [] step.modifiers ctx = some reached)
    (hturn : (step.chainWithin depth).turn reached = some (.failed failure, between)) :
    reached.completed.reverse ++ reached.untouched = step.modifiers ∧
      (∀ added left,
        (step.chainWithin depth).Relays reached.completed reached.untouched failure between
            added left →
          ∃ final,
            step.evaluateWithin (depth + 1) step.action [] step.modifiers ctx =
                some (.failed final, left) ∧
              (depth ≤ step.modifiers.length → step.call ctx = (.error final, left)) ∧
              added.length = reached.completed.length ∧
              final.chain = added.reverse.flatMap Option.toList ++ failure.chain ∧
              final.root = failure.root) ∧
      ((∀ modifier ∈ reached.completed,
          modifier.HandsFailuresOn (step.chainWithin depth).again) →
        ∃ added left,
          (step.chainWithin depth).Relays reached.completed reached.untouched failure between
            added left) := by
  refine ⟨(Chain.split_of_advance hreached).1, fun added left hrelays => ?_, fun hposts => ?_⟩
  · have hwithin : step.evaluateWithin (depth + 1) step.action [] step.modifiers ctx =
        some (.failed (failure.inContexts (added.reverse.flatMap Option.toList)), left) := by
      rw [evaluateWithin_eq_chainWithin, Chain.evaluate_of_turn hreached hturn]
      exact hrelays.unwind_eq
    refine ⟨_, hwithin, fun hdepth => ?_, hrelays.length_eq, failure.chain_inContexts _, rfl⟩
    exact call_of_evaluateWithin (Nat.succ_le_succ hdepth) hwithin
  · exact Chain.exists_relays hposts reached.untouched failure between

end Step

/-! ## A failure with context on its way out -/

theorem PlannedModifier.handsFailuresOn {modifier : PlannedModifier}
    (hpost : modifier.post = .pass ∨ ∃ text, modifier.post = .wrap text)
    (again : Reentry Recorder String) : modifier.toModifier.HandsFailuresOn again := by
  intro told failure log
  refine ⟨modifier.postAnswer (.failed failure), log.record (modifier.postEntry told), ?_⟩
  rcases hpost with hpass | ⟨text, hwrap⟩
  · exact ⟨none, rfl, .inl (by simp [postAnswer, hpass])⟩
  · exact ⟨some text, rfl, .inr (by simp [postAnswer, hwrap, Failure.inContexts_single])⟩

/-- The first, the third and the fourth modifier add context to failures. -/
def wrappingModifiers (last : PrePlan) : List PlannedModifier :=
  let header (name : String) : Header := ⟨name, plannedAddress name⟩
  [{ header := header "deploy", post := .wrap "deploying" }, { header := header "trace" },
    { header := header "copy", post := .wrap "copying" },
    { header := header "write", pre := last, post := .wrap "closing" }]

/-- The post-hooks of a step are given the failure of a full disk, which the call returns
inside of some contexts. -/
def Step.ReportsFullDisk (step : Step Recorder String Unit) (contexts : List String) : Prop :=
  ∃ reached between final left,
    (step.chainWithin 4).advance [] step.modifiers {} = some reached ∧
      (step.chainWithin 4).turn reached = some (.failed diskFull, between) ∧
      (∀ modifier ∈ reached.completed,
        modifier.HandsFailuresOn (step.chainWithin 4).again) ∧
      step.call {} = (.error final, left) ∧
      final.chain = contexts ++ ["writing report", "disk full"] ∧
      final.hostError? = some "disk full"

/-- The failure enters from a pre-hook, from the action and with an abort. -/
theorem wrappingModifiers_keep_failure :
    (plannedStep [] (wrappingModifiers (.fail diskFull))).ReportsFullDisk ["deploying", "copying"] ∧
      (plannedStep [.error diskFull] (wrappingModifiers .proceed)).ReportsFullDisk
        ["deploying", "copying", "closing"] ∧
      (plannedStep [] (wrappingModifiers (.abort (.failed diskFull)))).ReportsFullDisk
        ["deploying", "copying"] := by
  have hplans : ∀ last, ∀ planned ∈ wrappingModifiers last,
      planned.post = .pass ∨ ∃ text, planned.post = .wrap text := by
    simp [wrappingModifiers]
  have hruns : ∀ results last reached between added left,
      let step := plannedStep results (wrappingModifiers last)
      (step.chainWithin 4).advance [] step.modifiers {} = some reached →
        (step.chainWithin 4).turn reached = some (.failed diskFull, between) →
          (step.chainWithin 4).Relays reached.completed reached.untouched diskFull between added
              left →
            step.ReportsFullDisk (added.reverse.flatMap Option.toList) := by
    intro results last reached between added left step hreached hturn hrelays
    obtain ⟨hsplit, hkeeps, -⟩ :=
      step.call_keeps_failure 4 {} between reached diskFull hreached hturn
    obtain ⟨final, -, hcall, -, hchain, hroot⟩ := hkeeps added left hrelays
    refine ⟨reached, between, final, left, hreached, hturn, ?_, hcall (Nat.le_refl 4), hchain, ?_⟩
    · intro modifier hmodifier
      have hmem : modifier ∈ step.modifiers := by
        rw [← hsplit]
        exact List.mem_append_left _ (List.mem_reverse.mpr hmodifier)
      obtain ⟨planned, hplanned, rfl⟩ := List.mem_map.mp hmem
      exact PlannedModifier.handsFailuresOn (hplans last planned hplanned) _
    · rw [Failure.hostError?, hroot]
      rfl
  refine ⟨?_, ?_, ?_⟩
  · exact hruns _ _ _ _ [some "copying", none, some "deploying"] _ rfl rfl
      (.cons rfl (.inr rfl) (.cons rfl (.inl rfl) (.cons rfl (.inr rfl) .nil)))
  · exact hruns _ _ _ _ [some "closing", some "copying", none, some "deploying"] _ rfl rfl
      (.cons rfl (.inr rfl) (.cons rfl (.inr rfl)
        (.cons rfl (.inl rfl) (.cons rfl (.inr rfl) .nil))))
  · exact hruns _ _ _ _ [some "copying", none, some "deploying"] _ rfl rfl
      (.cons rfl (.inr rfl) (.cons rfl (.inl rfl) (.cons rfl (.inr rfl) .nil)))

end StepChain
