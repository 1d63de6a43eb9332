import StepChain.Proofs.Evaluation.Ending

/-!
# Steps wherever they are

What addresses a step and its items have shows in messages only, as long as no hook asks for
them. A call of such a step gives the same when all addresses are forgotten.
-/

namespace StepChain

variable {σ α β μ : Type}

/-! ## Forgetting addresses -/

/-- A name without a place. -/
def Header.unplaced (header : Header) : Header :=
  { header with address := .root "" }

def Action.unplaced (action : Action σ α) : Action σ α :=
  { action with header := action.header.unplaced }

def Modifier.unplaced (modifier : Modifier σ α) : Modifier σ α :=
  { modifier with header := modifier.header.unplaced }

/-- A step that is nowhere, and neither are its items. -/
def Step.unplaced (step : Step σ α μ) : Step σ α μ :=
  { action := step.action.unplaced
    modifiers := step.modifiers.map Modifier.unplaced
    metadata := step.metadata
    address := .root "" }

@[simp] theorem Action.name_unplaced (action : Action σ α) :
    action.unplaced.name = action.name := rfl

@[simp] theorem Action.actionClass_unplaced (action : Action σ α) :
    action.unplaced.actionClass = action.actionClass := rfl

@[simp] theorem Modifier.name_unplaced (modifier : Modifier σ α) :
    modifier.unplaced.name = modifier.name := rfl

@[simp] theorem Modifier.hints_unplaced (modifier : Modifier σ α) :
    modifier.unplaced.hints = modifier.hints := rfl

@[simp] theorem Step.eager_unplaced (step : Step σ α μ) : step.unplaced.eager = step.eager := rfl

@[simp] theorem Step.modifierNames_unplaced (step : Step σ α μ) :
    modifierNames step.unplaced.modifiers = modifierNames step.modifiers := by
  simp [modifierNames, Step.unplaced, Function.comp_def]

/-! ## Items that do not ask -/

def StepView.movedTo (view : StepView) (addr : Address) : StepView :=
  { view with address := addr }

/-- What an action does is the same wherever its step is. -/
def Action.Placeless (action : Action σ α) : Prop :=
  ∀ view addr ctx, action.call (view.movedTo addr) ctx = action.call view ctx

structure Modifier.Placeless (modifier : Modifier σ α) : Prop where
  pre : ∀ told addr ctx,
    modifier.pre { told with step := told.step.movedTo addr } ctx = modifier.pre told ctx
  post : ∀ told addr outcome ctx,
    modifier.post { told with step := told.step.movedTo addr } outcome ctx =
      modifier.post told outcome ctx

namespace Chain

def movedTo (chain : Chain σ α) (addr : Address) : Chain σ α :=
  { chain with step := chain.step.movedTo addr }

variable {chain : Chain σ α} {completed handled pending : List (Modifier σ α)} {ctx : σ}

theorem advance_movedTo (hpending : ∀ modifier ∈ pending, modifier.Placeless) (addr : Address) :
    (chain.movedTo addr).advance completed pending ctx = chain.advance completed pending ctx := by
  induction pending generalizing completed ctx with
  | nil => rfl
  | cons modifier rest ih =>
      have hrest : ∀ other ∈ rest, other.Placeless :=
        fun other hother => hpending other (List.mem_cons_of_mem modifier hother)
      have hpre : modifier.pre ((chain.movedTo addr).preCall completed rest) ctx =
          modifier.pre (chain.preCall completed rest) ctx :=
        (hpending modifier List.mem_cons_self).pre (chain.preCall completed rest) addr ctx
      simp only [advance, hpre, ih hrest]
      rfl

theorem unwind_movedTo (hcompleted : ∀ modifier ∈ completed, modifier.Placeless)
    (outcome : Outcome α) (addr : Address) :
    (chain.movedTo addr).unwind completed handled outcome ctx =
      chain.unwind completed handled outcome ctx := by
  induction completed generalizing handled outcome ctx with
  | nil => rfl
  | cons modifier rest ih =>
      have hrest : ∀ other ∈ rest, other.Placeless :=
        fun other hother => hcompleted other (List.mem_cons_of_mem modifier hother)
      have hpost : modifier.post ((chain.movedTo addr).postCall rest handled) outcome ctx =
          modifier.post (chain.postCall rest handled) outcome ctx :=
        (hcompleted modifier List.mem_cons_self).post (chain.postCall rest handled) addr outcome ctx
      simp only [unwind, hpost, ih hrest]
      rfl

theorem evaluate_movedTo (chain : Chain σ α) (haction : chain.action.Placeless)
    (hpending : ∀ modifier ∈ pending, modifier.Placeless) (addr : Address) :
    (chain.movedTo addr).evaluate pending ctx = chain.evaluate pending ctx := by
  unfold evaluate
  rw [advance_movedTo hpending]
  cases hreached : chain.advance [] pending ctx with
  | none => rfl
  | some reached =>
      have hsplit : reached.completed.reverse ++ reached.untouched = pending :=
        (split_of_advance hreached).1
      have hcompleted : ∀ modifier ∈ reached.completed, modifier.Placeless := by
        intro modifier hmodifier
        apply hpending
        rw [← hsplit]
        exact List.mem_append_left _ (List.mem_reverse.mpr hmodifier)
      have hcall : (chain.movedTo addr).action.call (chain.movedTo addr).step reached.ctx =
          chain.action.call chain.step reached.ctx :=
        haction chain.step addr reached.ctx
      simp only [hcall, unwind_movedTo hcompleted]
      rfl

end Chain

/-! ## Calls -/

namespace Step

variable {step : Step σ α μ} {action : Action σ α}

theorem evaluateWithin_movedTo (haction : action.Placeless)
    (hmodifiers : ∀ modifier ∈ step.modifiers, modifier.Placeless) (addr : Address) (depth : Nat)
    (applied : List (Modifier σ α)) {pending : List (Modifier σ α)}
    (hpending : ∀ modifier ∈ pending, modifier.Placeless) (ctx : σ) :
    { step with address := addr }.evaluateWithin depth action applied pending ctx =
      step.evaluateWithin depth action applied pending ctx := by
  induction depth generalizing applied pending ctx with
  | zero => rfl
  | succ depth ih =>
      have hagain : ∀ start ctx,
          { step with address := addr }.evaluateWithin depth action (step.modifiers.take start)
              (step.modifiers.drop start) ctx =
            step.evaluateWithin depth action (step.modifiers.take start)
              (step.modifiers.drop start) ctx := by
        intro start ctx
        apply ih
        intro modifier hmodifier
        exact hmodifiers modifier (List.mem_of_mem_drop hmodifier)
      simp only [evaluateWithin, hagain]
      let chain : Chain σ α :=
        { step := step.view
          action
          applied
          again := fun start ctx =>
            step.evaluateWithin depth action (step.modifiers.take start)
              (step.modifiers.drop start) ctx }
      exact chain.evaluate_movedTo haction hpending addr

/-- Items that forget their addresses, and do what they did. -/
def unplacing : Embedding σ σ α :=
  { put := fun ctx _ => ctx, modifier := Modifier.unplaced, action := Action.unplaced }

theorem unplacing_lawful : (unplacing : Embedding σ σ α).Lawful where
  modifier_name := Modifier.name_unplaced
  action_name := Action.name_unplaced
  pre := Embedding.plain_lawful.pre
  post := Embedding.plain_lawful.post
  call := Embedding.plain_lawful.call

theorem evaluateWithin_unplaced (haction : step.action.Placeless)
    (hmodifiers : ∀ modifier ∈ step.modifiers, modifier.Placeless) (depth : Nat) (ctx : σ) :
    step.unplaced.evaluateWithin depth step.unplaced.action [] step.unplaced.modifiers ctx =
      step.evaluateWithin depth step.action [] step.modifiers ctx := by
  let nowhere : Step σ α μ := { step with address := .root "" }
  calc step.unplaced.evaluateWithin depth step.unplaced.action [] step.unplaced.modifiers ctx
      = (nowhere.nestWithin depth step.action [] step.modifiers ctx).map (unplacing.place []) :=
        Embedding.evaluateWithin_step unplacing_lawful nowhere depth step.action []
          step.modifiers ctx []
    _ = nowhere.evaluateWithin depth step.action [] step.modifiers ctx :=
        (nowhere.evaluateWithin_eq_nestWithin depth step.action [] step.modifiers ctx).symm
    _ = step.evaluateWithin depth step.action [] step.modifiers ctx :=
        evaluateWithin_movedTo haction hmodifiers _ depth [] hmodifiers ctx

/-- A call that ends does not depend on addresses that no item asks for. -/
theorem call_unplaced (hforward : step.Forward) (hplain : step.action.Plain)
    (haction : step.action.Placeless)
    (hmodifiers : ∀ modifier ∈ step.modifiers, modifier.Placeless) (ctx : σ) :
    step.unplaced.call ctx = step.call ctx := by
  obtain ⟨report, hnest⟩ := hforward.nestWithin_depth hplain ctx
  have hdepth : step.unplaced.depth = step.depth := by
    simp [depth, unplaced]
  have hends : step.evaluateWithin step.depth step.action [] step.modifiers ctx =
      some (report.answer, report.ctx) := by
    rw [step.evaluateWithin_eq_nestWithin, hnest]
    rfl
  have hunplaced := evaluateWithin_unplaced haction hmodifiers step.depth ctx
  rw [hends] at hunplaced
  unfold call evaluate
  rw [hdepth, hunplaced, hends]
  rfl

end Step

end StepChain
