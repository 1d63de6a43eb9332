import StepChain.Proofs.Evaluation.Recording
import StepChain.Scripted.Planned

/-!
# Evaluation is nesting

A modifier encloses the evaluation of those after it, and the innermost thing is
the action. Running the pre-hooks forwards and the post-hooks backwards over the
completed modifiers comes to the same: outcome, context and calls agree, at every
depth to which hooks have the step evaluated again. A greater depth changes nothing
for an evaluation that ends.
-/

namespace StepChain

variable {σ α μ τ : Type}

/-! ## Nested evaluation -/

/-- What all calls are told about a step. -/
def Step.toldView (step : Step σ α μ) : StepView :=
  { address := step.address
    modifiers := step.modifiers.map fun modifier => modifier.header.name }

/-- What the pre-hook between two lists of modifiers is told. -/
def toldBefore (view : StepView) (action : Action σ α) (applied rest : List (Modifier σ α)) :
    PreCall :=
  { step := view
    applied := applied.map fun modifier => modifier.header.name
    pending := rest.map fun modifier => modifier.header.name
    action := action.header.name }

/-- What the post-hook between two lists of modifiers is told. -/
def toldAfter (view : StepView) (action : Action σ α) (applied rest : List (Modifier σ α)) :
    PostCall :=
  { step := view
    handled := rest.map fun modifier => modifier.header.name
    remaining := applied.map fun modifier => modifier.header.name
    action := action.header.name }

theorem toldBefore_eq (view : StepView) (action : Action σ α) (applied rest : List (Modifier σ α)) :
    toldBefore view action applied rest =
      { step := view
        applied := modifierNames applied
        pending := modifierNames rest
        action := action.name } := rfl

theorem toldAfter_eq (view : StepView) (action : Action σ α) (applied rest : List (Modifier σ α)) :
    toldAfter view action applied rest =
      { step := view
        handled := modifierNames rest
        remaining := modifierNames applied
        action := action.name } := rfl

/-- The evaluation of the pending modifiers around an action, by nesting. Hooks are
told the modifiers applied so far and those still pending. -/
def nest (view : StepView) (action : Action σ α) (again : Observation σ α) :
    (applied pending : List (Modifier σ α)) → σ → Option (Report σ α (Outcome α))
  | _, [], ctx =>
      (action.observeCall again view ctx).map fun called =>
        { answer :=
            match called.answer with
            | .ok result => .value result
            | .error failure => .failed failure
          ctx := called.ctx
          events := called.events }
  | applied, modifier :: rest, ctx =>
      (modifier.observePre again (toldBefore view action applied rest) ctx).bind fun before =>
        match before.answer with
        | .error (.abort outcome) => some { before with answer := outcome }
        | .error (.failure cause) => some { before with answer := .failed cause }
        | .ok () =>
            (nest view action again (applied ++ [modifier]) rest before.ctx).bind fun inner =>
              (modifier.observePost again (toldAfter view action applied rest) inner.answer
                  inner.ctx).map fun after =>
                { answer :=
                    match after.answer with
                    | .ok outcome => outcome
                    | .error failure => .failed failure
                  ctx := after.ctx
                  events := before.events ++ inner.events ++ after.events }

/-- The nested evaluation of some modifiers of a step around an action; requests
of hooks are nested evaluations too, to a depth less than the given one. -/
def Step.nestWithin (step : Step σ α μ) :
    (depth : Nat) → Action σ α → (applied pending : List (Modifier σ α)) → σ →
      Option (Report σ α (Outcome α))
  | 0, _, _, _, _ => none
  | depth + 1, action, applied, pending, ctx =>
      nest step.toldView action
        (fun start ctx =>
          step.nestWithin depth action (step.modifiers.take start) (step.modifiers.drop start) ctx)
        applied pending ctx

/-- The evaluations that can be requested of a step, to a depth. -/
def Step.requests (step : Step σ α μ) (action : Action σ α) (depth : Nat) : Observation σ α :=
  fun start ctx =>
    step.nestWithin depth action (step.modifiers.take start) (step.modifiers.drop start) ctx

theorem Step.nestWithin_succ (step : Step σ α μ) (depth : Nat) (action : Action σ α)
    (applied pending : List (Modifier σ α)) (ctx : σ) :
    step.nestWithin (depth + 1) action applied pending ctx =
      nest step.view action (step.requests action depth) applied pending ctx := rfl

section

variable {view : StepView} {action : Action σ α} {again : Observation σ α} {modifier : Modifier σ α}
  {applied rest : List (Modifier σ α)} {ctx : σ}

theorem nest_nil_eq :
    nest view action again applied [] ctx =
      (action.observeCall again view ctx).map fun called =>
        { called with answer := Outcome.ofExcept called.answer } := by
  rfl

theorem nest_cons_eq :
    nest view action again applied (modifier :: rest) ctx =
      (modifier.observePre again (toldBefore view action applied rest) ctx).bind fun before =>
        match before.answer with
        | .error interrupt => some { before with answer := interrupt.outcome }
        | .ok () =>
            (nest view action again (applied ++ [modifier]) rest before.ctx).bind fun inner =>
              (modifier.observePost again (toldAfter view action applied rest) inner.answer
                  inner.ctx).map fun after =>
                { answer := Outcome.ofHook after.answer
                  ctx := after.ctx
                  events := before.events ++ inner.events ++ after.events } := by
  rw [nest]
  congr 1
  funext before
  cases before.answer with
  | error interrupt => cases interrupt <;> rfl
  | ok done => rfl

theorem nest_nil {called : Report σ α (Except Failure α)}
    (hcall : action.observeCall again view ctx = some called) :
    nest view action again applied [] ctx =
      some { called with answer := Outcome.ofExcept called.answer } := by
  rw [nest_nil_eq, hcall]
  rfl

theorem nest_interrupted {before : Report σ α (Except (Interrupt α) Unit)} {interrupt : Interrupt α}
    (hpre : modifier.observePre again (toldBefore view action applied rest) ctx = some before)
    (hanswer : before.answer = .error interrupt) :
    nest view action again applied (modifier :: rest) ctx =
      some { before with answer := interrupt.outcome } := by
  simp only [nest_cons_eq, hpre, Option.bind_some, hanswer]

theorem nest_enclosed {before : Report σ α (Except (Interrupt α) Unit)}
    {inner : Report σ α (Outcome α)} {after : Report σ α (Except Failure (Outcome α))}
    (hpre : modifier.observePre again (toldBefore view action applied rest) ctx = some before)
    (hanswer : before.answer = .ok ())
    (hinner : nest view action again (applied ++ [modifier]) rest before.ctx = some inner)
    (hpost : modifier.observePost again (toldAfter view action applied rest) inner.answer
      inner.ctx = some after) :
    nest view action again applied (modifier :: rest) ctx =
      some
        { answer := Outcome.ofHook after.answer
          ctx := after.ctx
          events := before.events ++ inner.events ++ after.events } := by
  simp only [nest_cons_eq, hpre, Option.bind_some, hanswer, hinner, hpost, Option.map_some]

end

/-! ## Forwards and backwards -/

/-- What follows the pre-hooks. -/
def Chain.settle (chain : Chain σ α) (reached : Advance σ α) : Option (Outcome α × σ) :=
  match reached.stop with
  | some outcome => chain.unwind reached.completed reached.untouched outcome reached.ctx
  | none =>
      match (chain.action.call chain.step reached.ctx).run chain.again with
      | none => none
      | some (answer, ctx) => chain.unwind reached.completed [] (Outcome.ofExcept answer) ctx

theorem Chain.evaluate_eq_settle (chain : Chain σ α) (pending : List (Modifier σ α)) (ctx : σ) :
    chain.evaluate pending ctx = (chain.advance [] pending ctx).bind chain.settle := by
  unfold evaluate
  cases chain.advance [] pending ctx <;> rfl

/-- The pre-hooks leave each modifier on one side. When none of them interrupts the step,
all have completed. -/
theorem Chain.split_of_advance {chain : Chain σ α} {completed pending : List (Modifier σ α)} {ctx : σ}
    {reached : Advance σ α}
    (hreached : chain.advance completed pending ctx = some reached) :
    reached.completed.reverse ++ reached.untouched = completed.reverse ++ pending ∧
      (reached.stop = none → reached.untouched = []) := by
  induction pending generalizing completed ctx with
  | nil =>
      cases hreached
      exact ⟨rfl, fun _ => rfl⟩
  | cons modifier rest ih =>
      simp only [Chain.advance] at hreached
      split at hreached
      · cases hreached
      · obtain ⟨hsplit, hstop⟩ := ih hreached
        refine ⟨?_, hstop⟩
        rw [hsplit, List.reverse_cons, List.append_assoc, List.singleton_append]
      · cases hreached
        exact ⟨rfl, fun hnone => nomatch hnone⟩

namespace Embedding

variable {embed : Embedding σ τ α} {observe : Observation σ α} {again : Reentry τ α}

theorem modifierNames_map (hlawful : embed.Lawful) (modifiers : List (Modifier σ α)) :
    modifierNames (modifiers.map embed.modifier) = modifierNames modifiers := by
  simp [modifierNames, Function.comp_def, hlawful.modifier_name]

def chain (embed : Embedding σ τ α) (view : StepView) (action : Action σ α)
    (applied : List (Modifier σ α)) (again : Reentry τ α) : Chain τ α :=
  { step := view
    action := embed.action action
    applied := applied.map embed.modifier
    again }

theorem preCall_chain (hlawful : embed.Lawful) (view : StepView) (action : Action σ α)
    (applied completed pending : List (Modifier σ α)) :
    (embed.chain view action applied again).preCall (completed.map embed.modifier)
        (pending.map embed.modifier) =
      toldBefore view action (applied ++ completed.reverse) pending := by
  rw [Chain.preCall, toldBefore_eq, chain, hlawful.action_name, modifierNames_map hlawful, ← List.map_reverse,
    ← List.map_append, modifierNames_map hlawful]

theorem postCall_chain (hlawful : embed.Lawful) (view : StepView) (action : Action σ α)
    (applied completed handled : List (Modifier σ α)) :
    (embed.chain view action applied again).postCall (completed.map embed.modifier)
        (handled.map embed.modifier) =
      toldAfter view action (applied ++ completed.reverse) handled := by
  rw [Chain.postCall, toldAfter_eq, chain, hlawful.action_name, modifierNames_map hlawful, ← List.map_reverse,
    ← List.map_append, modifierNames_map hlawful]

/-- From any point of the forward pass on: what is left to do is the nested
evaluation of the pending modifiers, and then the post-hooks of the completed ones. -/
theorem advance_settle (hlawful : embed.Lawful) (hagrees : embed.Agrees observe again)
    (view : StepView) (action : Action σ α) (applied completed pending : List (Modifier σ α))
    (ctx : σ) (log : List (Event σ α)) :
    ((embed.chain view action applied again).advance (completed.map embed.modifier)
        (pending.map embed.modifier) (embed.put ctx log)).bind
        (embed.chain view action applied again).settle =
      (nest view action observe (applied ++ completed.reverse) pending ctx).bind fun report =>
        (embed.chain view action applied again).unwind (completed.map embed.modifier)
          (pending.map embed.modifier) report.answer
          (embed.put report.ctx (log ++ report.events)) := by
  -- The completed modifiers vary: each pre-hook that completes moves one over to them.
  induction pending generalizing completed ctx log with
  | nil =>
      have hcall := hlawful.call hagrees action view ctx log
      simp only [List.map_nil, Chain.advance, Option.bind_some, Chain.settle, nest_nil_eq]
      simp only [chain] at hcall ⊢
      rw [hcall]
      cases action.observeCall observe view ctx with
      | none => rfl
      | some called => rfl
  | cons modifier rest ih =>
      have hpre := hlawful.pre hagrees modifier
        (toldBefore view action (applied ++ completed.reverse) rest) ctx log
      simp only [List.map_cons, Chain.advance, preCall_chain hlawful, nest_cons_eq]
      simp only [show (embed.chain view action applied again).again = again from rfl, hpre]
      cases modifier.observePre observe _ ctx with
      | none => rfl
      | some before =>
          obtain ⟨answer, ctx, events⟩ := before
          cases answer with
          | error interrupt => rfl
          | ok _ =>
              have hrest := ih (modifier :: completed) ctx (log ++ events)
              rw [List.reverse_cons, ← List.append_assoc, List.map_cons] at hrest
              simp only [Option.map_some, place, Option.bind_some, hrest]
              cases nest view action observe (applied ++ completed.reverse ++ [modifier]) rest
                  ctx with
              | none => rfl
              | some inner =>
                  -- The first of the post-hooks that are left is the modifier's own.
                  have hpost := hlawful.post hagrees modifier
                    (toldAfter view action (applied ++ completed.reverse) rest) inner.answer
                    inner.ctx (log ++ events ++ inner.events)
                  simp only [Option.bind_some, Chain.unwind, postCall_chain hlawful]
                  simp only [show (embed.chain view action applied again).again = again from rfl,
                    hpost]
                  cases modifier.observePost observe _ inner.answer inner.ctx with
                  | none => rfl
                  | some after => simp [place]

theorem evaluate_chain (hlawful : embed.Lawful) (hagrees : embed.Agrees observe again)
    (view : StepView) (action : Action σ α) (applied pending : List (Modifier σ α)) (ctx : σ)
    (log : List (Event σ α)) :
    (embed.chain view action applied again).evaluate (pending.map embed.modifier)
        (embed.put ctx log) =
      (nest view action observe applied pending ctx).map (embed.place log) := by
  have hwhole := advance_settle hlawful hagrees view action applied [] pending ctx log
  rw [List.map_nil, List.reverse_nil, List.append_nil] at hwhole
  rw [Chain.evaluate_eq_settle, hwhole]
  cases nest view action observe applied pending ctx <;> rfl

def step (embed : Embedding σ τ α) (step : Step σ α μ) : Step τ α μ :=
  { action := embed.action step.action
    modifiers := step.modifiers.map embed.modifier
    metadata := step.metadata
    address := step.address }

theorem step_plain (whole : Step σ α μ) : plain.step whole = whole := by
  simp [Embedding.step, plain]

theorem evaluateWithin_step (hlawful : embed.Lawful) (step : Step σ α μ) (depth : Nat)
    (action : Action σ α) (applied pending : List (Modifier σ α)) (ctx : σ)
    (log : List (Event σ α)) :
    (embed.step step).evaluateWithin depth (embed.action action) (applied.map embed.modifier)
        (pending.map embed.modifier) (embed.put ctx log) =
      (step.nestWithin depth action applied pending ctx).map (embed.place log) := by
  induction depth generalizing applied pending ctx log with
  | zero => rfl
  | succ depth ih =>
      have hview : (embed.step step).view = step.view := by
        simp [Step.view, Embedding.step, modifierNames_map hlawful]
      -- One level down, requests are answered as observed.
      have hagrees : embed.Agrees (step.requests action depth)
          (fun start ctx => (embed.step step).evaluateWithin depth (embed.action action)
            ((embed.step step).modifiers.take start) ((embed.step step).modifiers.drop start)
            ctx) := by
        intro start ctx log
        simpa [Step.requests, Embedding.step, List.map_take, List.map_drop] using
          ih (step.modifiers.take start) (step.modifiers.drop start) ctx log
      rw [Step.evaluateWithin, hview]
      exact evaluate_chain hlawful hagrees step.view action applied pending ctx log

end Embedding

namespace Step

theorem evaluateWithin_eq_nestWithin (step : Step σ α μ) (depth : Nat) (action : Action σ α)
    (applied pending : List (Modifier σ α)) (ctx : σ) :
    step.evaluateWithin depth action applied pending ctx =
      (step.nestWithin depth action applied pending ctx).map fun report =>
        (report.answer, report.ctx) := by
  have hplain := Embedding.evaluateWithin_step Embedding.plain_lawful step depth action applied
    pending ctx []
  have hmap : ∀ modifiers : List (Modifier σ α),
      modifiers.map (Embedding.plain : Embedding σ σ α).modifier = modifiers := List.map_id
  rw [Embedding.step_plain, hmap, hmap] at hplain
  exact hplain

theorem recorded_evaluateWithin_eq_nestWithin (step : Step σ α μ) (depth : Nat)
    (action : Action σ α) (applied pending : List (Modifier σ α)) (ctx : σ)
    (log : List (Event σ α)) :
    step.recorded.evaluateWithin depth action.recorded (applied.map Modifier.recorded)
        (pending.map Modifier.recorded) (ctx, log) =
      (step.nestWithin depth action applied pending ctx).map fun report =>
        (report.answer, (report.ctx, log ++ report.events)) :=
  Embedding.evaluateWithin_step Embedding.recording_lawful step depth action applied pending ctx log

/-- An evaluation that ends has events, which are those that the recorded one notes. -/
theorem nestWithin_of_evaluateWithin {step : Step σ α μ} {depth : Nat}
    {action : Action σ α} {applied pending : List (Modifier σ α)} {ctx left : σ}
    {outcome : Outcome α}
    (hwithin : step.evaluateWithin depth action applied pending ctx = some (outcome, left))
    (log : List (Event σ α)) :
    ∃ events,
      step.nestWithin depth action applied pending ctx =
          some { answer := outcome, ctx := left, events } ∧
        step.recorded.evaluateWithin depth action.recorded (applied.map Modifier.recorded)
            (pending.map Modifier.recorded) (ctx, log) =
          some (outcome, (left, log ++ events)) := by
  rw [evaluateWithin_eq_nestWithin] at hwithin
  obtain ⟨report, hnest, heq⟩ := Option.map_eq_some_iff.mp hwithin
  obtain ⟨rfl, rfl⟩ := Prod.mk.inj heq
  refine ⟨report.events, hnest, ?_⟩
  rw [recorded_evaluateWithin_eq_nestWithin, hnest]
  rfl

theorem evaluate_of_nestWithin {step : Step σ α μ} {action : Action σ α}
    {applied pending : List (Modifier σ α)} {ctx : σ} {report : Report σ α (Outcome α)}
    (hnest : step.nestWithin step.depth action applied pending ctx = some report)
    (log : List (Event σ α)) :
    step.evaluate action applied pending ctx = (report.answer, report.ctx) ∧
      step.recorded.evaluate action.recorded (applied.map Modifier.recorded)
          (pending.map Modifier.recorded) (ctx, log) =
        (report.answer, (report.ctx, log ++ report.events)) := by
  have hdepth : step.recorded.depth = step.depth := by simp [depth, recorded]
  constructor
  · rw [evaluate, evaluateWithin_eq_nestWithin, hnest]
    rfl
  · rw [evaluate, hdepth, recorded_evaluateWithin_eq_nestWithin, hnest]
    rfl

/-- Evaluating some modifiers of a step is nesting them: with the same outcome and
the same context, and, when calls are recorded, with the same calls in the same
order, at every depth of requests. -/
theorem evaluate_eq_nest (step : Step σ α μ) (depth : Nat) (action : Action σ α)
    (applied pending : List (Modifier σ α)) (ctx : σ) (log : List (Event σ α)) :
    step.evaluateWithin depth action applied pending ctx =
        (step.nestWithin depth action applied pending ctx).map (fun report =>
          (report.answer, report.ctx)) ∧
      step.recorded.evaluateWithin depth action.recorded (applied.map Modifier.recorded)
          (pending.map Modifier.recorded) (ctx, log) =
        (step.nestWithin depth action applied pending ctx).map (fun report =>
          (report.answer, (report.ctx, log ++ report.events))) :=
  ⟨step.evaluateWithin_eq_nestWithin depth action applied pending ctx,
    step.recorded_evaluateWithin_eq_nestWithin depth action applied pending ctx log⟩

end Step

/-- A planned action with planned modifiers. -/
def plannedStep (results : List (Except Failure String)) (modifiers : List PlannedModifier) :
    Step Recorder String Unit :=
  { action := PlannedAction.toAction
      { header := ⟨"act", plannedAddress "act"⟩, identity := "act", results }
    modifiers := modifiers.map PlannedModifier.toModifier
    metadata := ()
    address := Address.root "custom" }

/-- The second of three modifiers follows a plan. -/
def plannedBetween (pre : PrePlan) (post : PostPlan) : List PlannedModifier :=
  let header (name : String) : Header := ⟨name, plannedAddress name⟩
  [{ header := header "a" }, { header := header "b", pre, post }, { header := header "c" }]

def diskFull : Failure :=
  { context := ["writing report"], root := .host "disk full" }

/-- What some modifiers and an action come to, the modifiers in front counting as applied. -/
def plannedRun (results : List (Except Failure String)) (modifiers : List PlannedModifier)
    (applied : Nat) : Option (Outcome String × List String) :=
  let step := plannedStep results modifiers
  (step.evaluateWithin 1 step.action (step.modifiers.take applied) (step.modifiers.drop applied)
    {}).map fun result => (result.1, result.2.entries)

theorem plannedRun_nested :
    plannedRun [.ok "v"] (plannedBetween .proceed .pass) 0 =
        some (.value "v",
          ["pre:a(/b,c)", "pre:b(a/c)", "pre:c(a,b/)", "call:act", "post:c(act//a,b)",
            "post:b(act/c/a)", "post:a(act/b,c/)"]) ∧
      plannedRun [.error diskFull] (plannedBetween .proceed .pass) 1 =
        some (.failed diskFull,
          ["pre:b(a/c)", "pre:c(a,b/)", "call:act", "post:c(act//a,b)", "post:b(act/c/a)"]) ∧
      plannedRun [.ok "v"] (plannedBetween (.abort (.value "early")) .pass) 0 =
        some (.value "early", ["pre:a(/b,c)", "pre:b(a/c)", "post:a(act/b,c/)"]) ∧
      plannedRun [.ok "v"] (plannedBetween (.fail diskFull) .pass) 1 =
        some (.failed diskFull, ["pre:b(a/c)"]) ∧
      plannedRun [.ok "v"] (plannedBetween .proceed (.raise diskFull)) 1 =
        some (.failed diskFull,
          ["pre:b(a/c)", "pre:c(a,b/)", "call:act", "post:c(act//a,b)", "post:b(act/c/a)"]) := by
  have hrun : ∀ results modifiers applied,
      let step := plannedStep results modifiers
      plannedRun results modifiers applied =
        (step.nestWithin 1 step.action (step.modifiers.take applied)
          (step.modifiers.drop applied) {}).map fun report => (report.answer, report.ctx.entries) := by
    intro results modifiers applied step
    have hnest := (step.evaluate_eq_nest 1 step.action (step.modifiers.take applied)
      (step.modifiers.drop applied) {} []).1
    exact (congrArg (Option.map _) hnest).trans (Option.map_map ..)
  exact ⟨(hrun ..).trans rfl, (hrun ..).trans rfl, (hrun ..).trans rfl, (hrun ..).trans rfl,
    (hrun ..).trans rfl⟩

/-! ## Depth -/

/-- Every request that one way answers, another one answers the same. -/
def Observation.Extends (again more : Observation σ α) : Prop :=
  ∀ {start ctx report}, again start ctx = some report → more start ctx = some report

section

variable {again more : Observation σ α} {ctx : σ}

theorem Routine.observe_mono {β : Type} (hmore : again.Extends more) (routine : Routine σ α β)
    {report : Report σ α β} (hobserve : routine.observe again = some report) :
    routine.observe more = some report := by
  induction routine generalizing report with
  | done answer ctx => exact hobserve
  | evaluate start ctx next ih =>
      simp only [Routine.observe] at hobserve ⊢
      obtain ⟨inner, hinner, hnext⟩ := Option.bind_eq_some_iff.mp hobserve
      obtain ⟨rest, hrest, rfl⟩ := Option.map_eq_some_iff.mp hnext
      rw [hmore hinner, Option.bind_some, ih _ _ hrest]
      rfl

/-- Hooks and actions are all called in this way. -/
theorem Routine.observe_ofCall_mono {β : Type} (hmore : again.Extends more)
    {routine : Routine σ α β} {began : Event σ α} {ended : β → σ → Event σ α}
    {report : Report σ α β}
    (hcall : (routine.observe again).map (fun inner => inner.ofCall began ended) = some report) :
    (routine.observe more).map (fun inner => inner.ofCall began ended) = some report := by
  obtain ⟨inner, hinner, rfl⟩ := Option.map_eq_some_iff.mp hcall
  rw [Routine.observe_mono hmore routine hinner]
  rfl

theorem nest_mono (hmore : again.Extends more) {view : StepView} {action : Action σ α}
    {applied pending : List (Modifier σ α)} {report : Report σ α (Outcome α)}
    (hnest : nest view action again applied pending ctx = some report) :
    nest view action more applied pending ctx = some report := by
  induction pending generalizing applied ctx report with
  | nil =>
      rw [nest_nil_eq] at hnest
      obtain ⟨called, hcall, rfl⟩ := Option.map_eq_some_iff.mp hnest
      exact nest_nil (Routine.observe_ofCall_mono hmore hcall)
  | cons modifier rest ih =>
      rw [nest_cons_eq] at hnest
      obtain ⟨before, hbefore, hnext⟩ := Option.bind_eq_some_iff.mp hnest
      have hpre : modifier.observePre more _ ctx = some before :=
        Routine.observe_ofCall_mono hmore hbefore
      cases hanswer : before.answer with
      | error interrupt =>
          rw [hanswer] at hnext
          cases hnext
          exact nest_interrupted hpre hanswer
      | ok done =>
          rw [hanswer] at hnext
          obtain ⟨inner, hinner, hlast⟩ := Option.bind_eq_some_iff.mp hnext
          obtain ⟨after, hafter, rfl⟩ := Option.map_eq_some_iff.mp hlast
          have hpost : modifier.observePost more _ _ _ = some after :=
            Routine.observe_ofCall_mono hmore hafter
          exact nest_enclosed hpre hanswer (ih hinner) hpost

end

theorem Step.nestWithin_mono {step : Step σ α μ} {action : Action σ α}
    {applied pending : List (Modifier σ α)} {ctx : σ} {report : Report σ α (Outcome α)}
    {depth more : Nat} (hle : depth ≤ more)
    (hnest : step.nestWithin depth action applied pending ctx = some report) :
    step.nestWithin more action applied pending ctx = some report := by
  induction depth generalizing more applied pending ctx report with
  | zero => exact absurd hnest (by simp [nestWithin])
  | succ depth ih =>
      obtain ⟨more, rfl⟩ : ∃ less, more = less + 1 := ⟨more - 1, by omega⟩
      exact nest_mono (fun hagain => ih (Nat.le_of_succ_le_succ hle) hagain) hnest

/-- The depth only bounds how far requests may nest: what an evaluation comes to does
not depend on it. -/
theorem Step.evaluateWithin_mono {step : Step σ α μ} {action : Action σ α}
    {applied pending : List (Modifier σ α)} {ctx : σ} {result : Outcome α × σ}
    {depth more : Nat} (hle : depth ≤ more)
    (hwithin : step.evaluateWithin depth action applied pending ctx = some result) :
    step.evaluateWithin more action applied pending ctx = some result := by
  rw [evaluateWithin_eq_nestWithin] at hwithin ⊢
  obtain ⟨report, hreport, rfl⟩ := Option.map_eq_some_iff.mp hwithin
  rw [nestWithin_mono hle hreport]
  rfl

end StepChain
