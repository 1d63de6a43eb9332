import StepChain.Step.Evaluate

/-!
# Recorded calls

The calls of hooks and actions in the order in which they begin and end. There
are two views of them: a recorded step notes its calls in its own context while
it is evaluated as any other step, and an observation reports what happened
beside the answer. In both a call encloses what it has evaluated again.
-/

namespace StepChain

/-- The beginning or the end of a call. -/
inductive Event (σ α : Type) where
  | preCall (modifier : Modifier σ α) (told : PreCall) (ctx : σ)
  | preReturn (modifier : Modifier σ α) (answer : Except (Interrupt α) Unit) (ctx : σ)
  | actionCall (action : Action σ α) (told : StepView) (ctx : σ)
  | actionReturn (action : Action σ α) (answer : Except Failure α) (ctx : σ)
  | postCall (modifier : Modifier σ α) (told : PostCall) (outcome : Outcome α) (ctx : σ)
  | postReturn (modifier : Modifier σ α) (answer : Except Failure (Outcome α)) (ctx : σ)

variable {σ α β μ : Type}

/-! ## Recorded steps -/

abbrev Recorded (σ α : Type) := σ × List (Event σ α)

/-- A routine that leaves the events in its context alone, except for its end. -/
def Routine.recorded (ended : β → σ → Event σ α) :
    Routine σ α β → List (Event σ α) → Routine (Recorded σ α) α β
  | .done answer ctx, log => .done answer (ctx, log ++ [ended answer ctx])
  | .evaluate start ctx next, log =>
      .evaluate start (ctx, log) fun outcome held =>
        (next outcome held.1).recorded ended held.2

/-- A modifier whose hooks note their calls. -/
def Modifier.recorded (modifier : Modifier σ α) : Modifier (Recorded σ α) α :=
  { header := modifier.header
    hints := modifier.hints
    pre := fun told held =>
      (modifier.pre told held.1).recorded (.preReturn modifier)
        (held.2 ++ [.preCall modifier told held.1])
    post := fun told outcome held =>
      (modifier.post told outcome held.1).recorded (.postReturn modifier)
        (held.2 ++ [.postCall modifier told outcome held.1]) }

def Action.recorded (action : Action σ α) : Action (Recorded σ α) α :=
  { header := action.header
    eager := action.eager
    call := fun told held =>
      (action.call told held.1).recorded (.actionReturn action)
        (held.2 ++ [.actionCall action told held.1]) }

/-- A step that notes the calls of its hooks and of its action. -/
def Step.recorded (step : Step σ α μ) : Step (Recorded σ α) α μ :=
  { action := step.action.recorded
    modifiers := step.modifiers.map Modifier.recorded
    metadata := step.metadata
    address := step.address }

/-! ## Observations -/

/-- What came of a call, or of part of an evaluation. -/
structure Report (σ α β : Type) where
  answer : β
  ctx : σ
  events : List (Event σ α)

/-- Answers the requests of routines, and reports how. -/
abbrev Observation (σ α : Type) := Nat → σ → Option (Report σ α (Outcome α))

/-- What a routine answers, and the events of all that it has evaluated. -/
def Routine.observe (again : Observation σ α) : Routine σ α β → Option (Report σ α β)
  | .done answer ctx => some { answer, ctx, events := [] }
  | .evaluate start ctx next =>
      (again start ctx).bind fun inner =>
        ((next inner.answer inner.ctx).observe again).map fun rest =>
          { rest with events := inner.events ++ rest.events }

def Report.ofCall (report : Report σ α β) (began : Event σ α) (ended : β → σ → Event σ α) :
    Report σ α β :=
  { report with events := began :: report.events ++ [ended report.answer report.ctx] }

def Modifier.observePre (modifier : Modifier σ α) (again : Observation σ α) (told : PreCall)
    (ctx : σ) : Option (Report σ α (Except (Interrupt α) Unit)) :=
  ((modifier.pre told ctx).observe again).map fun report =>
    report.ofCall (.preCall modifier told ctx) (.preReturn modifier)

def Modifier.observePost (modifier : Modifier σ α) (again : Observation σ α) (told : PostCall)
    (outcome : Outcome α) (ctx : σ) : Option (Report σ α (Except Failure (Outcome α))) :=
  ((modifier.post told outcome ctx).observe again).map fun report =>
    report.ofCall (.postCall modifier told outcome ctx) (.postReturn modifier)

def Action.observeCall (action : Action σ α) (again : Observation σ α) (told : StepView)
    (ctx : σ) : Option (Report σ α (Except Failure α)) :=
  ((action.call told ctx).observe again).map fun report =>
    report.ofCall (.actionCall action told ctx) (.actionReturn action)

/-! ## From observations to runs -/

/-- A way to run modifiers and actions in another type of context that can keep
the events. -/
structure Embedding (σ τ α : Type) where
  put : σ → List (Event σ α) → τ
  modifier : Modifier σ α → Modifier τ α
  action : Action σ α → Action τ α

namespace Embedding

variable {τ : Type}

/-- A report in the other type of context, its events after those so far. -/
def place (embed : Embedding σ τ α) (log : List (Event σ α)) (report : Report σ α β) : β × τ :=
  (report.answer, embed.put report.ctx (log ++ report.events))

/-- Requests are answered as observed. -/
def Agrees (embed : Embedding σ τ α) (observe : Observation σ α) (again : Reentry τ α) : Prop :=
  ∀ start ctx log, again start (embed.put ctx log) = (observe start ctx).map (embed.place log)

/-- Calls run as observed, provided that their requests are answered so. -/
structure Lawful (embed : Embedding σ τ α) : Prop where
  modifier_name : ∀ modifier, (embed.modifier modifier).name = modifier.name
  action_name : ∀ action, (embed.action action).name = action.name
  pre : ∀ {observe again}, embed.Agrees observe again → ∀ modifier told ctx log,
    ((embed.modifier modifier).pre told (embed.put ctx log)).run again =
      (modifier.observePre observe told ctx).map (embed.place log)
  post : ∀ {observe again}, embed.Agrees observe again → ∀ modifier told outcome ctx log,
    ((embed.modifier modifier).post told outcome (embed.put ctx log)).run again =
      (modifier.observePost observe told outcome ctx).map (embed.place log)
  call : ∀ {observe again}, embed.Agrees observe again → ∀ action told ctx log,
    ((embed.action action).call told (embed.put ctx log)).run again =
      (action.observeCall observe told ctx).map (embed.place log)

def plain : Embedding σ σ α :=
  { put := fun ctx _ => ctx, modifier := id, action := id }

theorem run_plain {observe : Observation σ α} {again : Reentry σ α}
    (hagrees : plain.Agrees observe again) (routine : Routine σ α β) :
    routine.run again = (routine.observe observe).map fun report => (report.answer, report.ctx) := by
  induction routine with
  | done answer ctx => rfl
  | evaluate start ctx next ih =>
      have hagain : again start ctx =
          (observe start ctx).map fun report => (report.answer, report.ctx) :=
        hagrees start ctx []
      simp only [Routine.run, Routine.observe, hagain]
      cases observe start ctx with
      | none => rfl
      | some inner => simp [ih, Function.comp_def]

theorem plain_lawful : (plain : Embedding σ σ α).Lawful where
  modifier_name := fun _ => rfl
  action_name := fun _ => rfl
  pre := by
    intro observe again hagrees modifier told ctx log
    rw [Modifier.observePre, Option.map_map]
    exact run_plain hagrees (modifier.pre told ctx)
  post := by
    intro observe again hagrees modifier told outcome ctx log
    rw [Modifier.observePost, Option.map_map]
    exact run_plain hagrees (modifier.post told outcome ctx)
  call := by
    intro observe again hagrees action told ctx log
    rw [Action.observeCall, Option.map_map]
    exact run_plain hagrees (action.call told ctx)

/-- Contexts that keep the events, and recorded calls. -/
def recording : Embedding σ (Recorded σ α) α :=
  { put := fun ctx log => (ctx, log), modifier := Modifier.recorded, action := Action.recorded }

/-- A recorded routine appends the events of what it has evaluated, and its end. -/
theorem run_recorded {observe : Observation σ α} {again : Reentry (Recorded σ α) α}
    (hagrees : recording.Agrees observe again) (ended : β → σ → Event σ α) (began : Event σ α)
    (routine : Routine σ α β) (log : List (Event σ α)) :
    (routine.recorded ended (log ++ [began])).run again =
      (routine.observe observe).map fun report =>
        recording.place log (report.ofCall began ended) := by
  -- For any log, since that of the continuation holds the inner events too.
  have hrun : ∀ log, (routine.recorded ended log).run again =
      (routine.observe observe).map fun report =>
        (report.answer, report.ctx,
          log ++ report.events ++ [ended report.answer report.ctx]) := by
    induction routine with
    | done answer ctx => simp [Routine.recorded, Routine.run, Routine.observe]
    | evaluate start ctx next ih =>
        intro log
        have hagain : again start (ctx, log) =
            (observe start ctx).map fun report =>
              (report.answer, report.ctx, log ++ report.events) :=
          hagrees start ctx log
        simp only [Routine.recorded, Routine.run, Routine.observe, hagain]
        cases observe start ctx with
        | none => rfl
        | some inner => simp [ih, Function.comp_def]
  simp [hrun, Report.ofCall, place, recording]

theorem recording_lawful : (recording : Embedding σ (Recorded σ α) α).Lawful where
  modifier_name := fun _ => rfl
  action_name := fun _ => rfl
  pre := by
    intro observe again hagrees modifier told ctx log
    rw [Modifier.observePre, Option.map_map]
    exact run_recorded hagrees (.preReturn modifier) _ (modifier.pre told ctx) log
  post := by
    intro observe again hagrees modifier told outcome ctx log
    rw [Modifier.observePost, Option.map_map]
    exact run_recorded hagrees (.postReturn modifier) _ (modifier.post told outcome ctx) log
  call := by
    intro observe again hagrees action told ctx log
    rw [Action.observeCall, Option.map_map]
    exact run_recorded hagrees (.actionReturn action) _ (action.call told ctx) log

end Embedding

end StepChain
