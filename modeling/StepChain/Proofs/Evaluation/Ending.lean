import StepChain.Proofs.Evaluation.CallSequence

/-!
# Evaluations that end

When every modifier of a step only has later modifiers evaluated again, requests nest
no deeper than there are modifiers, and the evaluation of any rest of the step ends.
Loops over what comes after a modifier, told apart by its name, are of this kind.
-/

namespace StepChain

variable {σ α β μ : Type}

/-! ## Forward requests -/

/-- All requests of a routine start after a position. -/
def Routine.StartsAfter (position : Nat) : Routine σ α β → Prop
  | .done _ _ => True
  | .evaluate start _ next =>
      position < start ∧ ∀ outcome ctx, (next outcome ctx).StartsAfter position

theorem Routine.Plain.startsAfter {routine : Routine σ α β} (hplain : routine.Plain)
    (position : Nat) : routine.StartsAfter position := by
  cases routine with
  | done answer ctx => trivial
  | evaluate start ctx next => exact hplain.elim

def Routine.Answers (property : β → Prop) : Routine σ α β → Prop
  | .done answer _ => property answer
  | .evaluate _ _ next => ∀ outcome ctx, (next outcome ctx).Answers property

theorem Routine.Answers.observe {property : β → Prop} {routine : Routine σ α β}
    (hanswers : routine.Answers property) {again : Observation σ α} {report : Report σ α β}
    (hobserve : routine.observe again = some report) : property report.answer := by
  induction routine generalizing report with
  | done answer ctx =>
      cases hobserve
      exact hanswers
  | evaluate start ctx next ih =>
      obtain ⟨inner, -, hnext⟩ := Option.bind_eq_some_iff.mp hobserve
      obtain ⟨rest, hrest, rfl⟩ := Option.map_eq_some_iff.mp hnext
      have hproperty := ih inner.answer inner.ctx (hanswers inner.answer inner.ctx) hrest
      exact hproperty

/-- A modifier at a position of a step that only has later modifiers evaluated. When
its pre-hook always interrupts the step, its post-hook is not called and may do anything. -/
structure Modifier.Forward (view : StepView) (position : Nat) (modifier : Modifier σ α) :
    Prop where
  pre : ∀ told ctx, told.step = view → (modifier.pre told ctx).StartsAfter position
  post :
    (∀ told ctx, told.step = view →
        (modifier.pre told ctx).Answers fun answer => ∀ done, answer ≠ .ok done) ∨
      ∀ told outcome ctx, told.step = view →
        (modifier.post told outcome ctx).StartsAfter position

theorem Modifier.Plain.forward {modifier : Modifier σ α} (hplain : modifier.Plain)
    (view : StepView) (position : Nat) : modifier.Forward view position where
  pre := fun told ctx _ => (hplain.pre told ctx).startsAfter position
  post := .inr fun told outcome ctx _ => (hplain.post told outcome ctx).startsAfter position

def Step.Forward (step : Step σ α μ) : Prop :=
  ∀ (position : Nat) (modifier : Modifier σ α), step.modifiers[position]? = some modifier →
    modifier.Forward step.view position

/-! ## Observations that end -/

def Observation.AnswersAfter (again : Observation σ α) (position : Nat) : Prop :=
  ∀ start ctx, position < start → (again start ctx).isSome

theorem Routine.StartsAfter.observe_isSome {again : Observation σ α} {position : Nat}
    (hanswers : again.AnswersAfter position) {routine : Routine σ α β}
    (hafter : routine.StartsAfter position) : (routine.observe again).isSome := by
  induction routine with
  | done answer ctx => rfl
  | evaluate start ctx next ih =>
      obtain ⟨hstart, hnext⟩ := hafter
      obtain ⟨inner, hinner⟩ := Option.isSome_iff_exists.mp (hanswers start ctx hstart)
      have hrest := ih inner.answer inner.ctx (hnext inner.answer inner.ctx)
      simpa [Routine.observe, hinner] using hrest

section

variable {view : StepView} {action : Action σ α} {again : Observation σ α}

/-- The requests of a modifier concern what comes after it, so that they need only be
answered where there are modifiers at all. -/
theorem nest_isSome (haction : action.Plain) {applied pending : List (Modifier σ α)}
    (hanswers : pending ≠ [] → again.AnswersAfter applied.length)
    (hforward : ∀ (index : Nat) (modifier : Modifier σ α), pending[index]? = some modifier →
      modifier.Forward view (applied.length + index)) (ctx : σ) :
    (nest view action again applied pending ctx).isSome := by
  induction pending generalizing applied ctx with
  | nil =>
      obtain ⟨answer, left, hobserve⟩ := (haction view ctx).observe again
      simp [nest_nil_eq, Action.observeCall, hobserve]
  | cons modifier rest ih =>
      have hmodifier : modifier.Forward view applied.length := hforward 0 modifier rfl
      have hagain : again.AnswersAfter applied.length := hanswers (by simp)
      have hrest : ∀ ctx, (nest view action again (applied ++ [modifier]) rest ctx).isSome := by
        refine ih (fun _ start ctx hstart => hagain start ctx ?_) ?_
        · rw [List.length_append] at hstart
          omega
        · intro index other hother
          have hlater := hforward (index + 1) other (by simpa using hother)
          rwa [show applied.length + (index + 1) = (applied ++ [modifier]).length + index by
            simp; omega] at hlater
      have hpre := (hmodifier.pre (toldBefore view action applied rest) ctx rfl).observe_isSome
        hagain
      obtain ⟨before, hbefore⟩ := Option.isSome_iff_exists.mp hpre
      simp only [nest_cons_eq, Modifier.observePre, hbefore, Option.map_some, Option.bind_some,
        Report.ofCall]
      cases hanswer : before.answer with
      | error interrupt => rfl
      | ok done =>
          obtain ⟨inner, hinner⟩ := Option.isSome_iff_exists.mp (hrest before.ctx)
          rcases hmodifier.post with hinterrupts | hpost
          · exact absurd hanswer ((hinterrupts _ ctx rfl).observe hbefore done)
          · have hcall := (hpost (toldAfter view action applied rest) inner.answer inner.ctx
              rfl).observe_isSome hagain
            simpa [hinner, Modifier.observePost] using hcall

theorem nest_of_interrupts {applied rest : List (Modifier σ α)} {modifier : Modifier σ α} {ctx : σ}
    {report : Report σ α (Outcome α)}
    (hinterrupts : (modifier.pre (toldBefore view action applied rest) ctx).Answers
      fun answer => ∀ done, answer ≠ .ok done)
    (hnest : nest view action again applied (modifier :: rest) ctx = some report) :
    ∃ (observed : Report σ α (Except (Interrupt α) Unit)) (interrupt : Interrupt α),
      (modifier.pre (toldBefore view action applied rest) ctx).observe again = some observed ∧
        report =
          { answer := interrupt.outcome
            ctx := observed.ctx
            events :=
              .preCall modifier (toldBefore view action applied rest) ctx :: observed.events ++
                [.preReturn modifier (.error interrupt) observed.ctx] } := by
  rw [nest_cons_eq] at hnest
  obtain ⟨before, hpre, hnext⟩ := Option.bind_eq_some_iff.mp hnest
  obtain ⟨observed, hobserve, rfl⟩ := Option.map_eq_some_iff.mp hpre
  cases hanswer : observed.answer with
  | ok done => exact absurd hanswer (hinterrupts.observe hobserve done)
  | error interrupt =>
      refine ⟨observed, interrupt, hobserve, ?_⟩
      simpa [Report.ofCall, hanswer] using hnext.symm

end

/-- A depth greater than the number of modifiers to evaluate suffices. -/
theorem Step.Forward.nestWithin_isSome {step : Step σ α μ} (hforward : step.Forward)
    {action : Action σ α} (haction : action.Plain) {depth start : Nat}
    (hdepth : step.modifiers.length - start < depth) (ctx : σ) :
    (step.nestWithin depth action (step.modifiers.take start) (step.modifiers.drop start)
      ctx).isSome := by
  induction depth generalizing start ctx with
  | zero => omega
  | succ depth ih =>
      rw [nestWithin_succ]
      refine nest_isSome haction ?_ ?_ ctx
      · -- Each request leaves fewer modifiers to evaluate.
        intro hpending later ctx hlater
        have hlt : start < step.modifiers.length := by simpa using hpending
        rw [List.length_take_of_le (Nat.le_of_lt hlt)] at hlater
        exact ih (by omega) ctx
      · intro index modifier hmodifier
        rw [List.getElem?_drop] at hmodifier
        have hlt : start + index < step.modifiers.length :=
          (List.getElem?_eq_some_iff.mp hmodifier).choose
        rw [List.length_take_of_le (by omega)]
        exact hforward (start + index) modifier hmodifier

theorem Step.Forward.nestWithin_depth {step : Step σ α μ} (hforward : step.Forward)
    (haction : step.action.Plain) (ctx : σ) :
    ∃ report, step.nestWithin step.depth step.action [] step.modifiers ctx = some report := by
  have hdepth : step.modifiers.length - 0 < step.depth := Nat.lt_succ_self _
  exact Option.isSome_iff_exists.mp (hforward.nestWithin_isSome haction hdepth ctx)

/-! ## Calls that end -/

theorem Step.call_of_nestWithin {step : Step σ α μ} {ctx : σ}
    {report : Report σ α (Outcome α)}
    (hnest : step.nestWithin step.depth step.action [] step.modifiers ctx = some report)
    (log : List (Event σ α)) :
    step.call ctx = (report.answer.toExcept, report.ctx) ∧
      step.recorded.call (ctx, log) =
        (report.answer.toExcept, (report.ctx, log ++ report.events)) := by
  obtain ⟨hevaluate, hrecorded⟩ := Step.evaluate_of_nestWithin hnest log
  have hagain : step.recorded.evaluate step.recorded.action [] step.recorded.modifiers (ctx, log) =
      (report.answer, (report.ctx, log ++ report.events)) := hrecorded
  constructor
  · rw [Step.call, hevaluate]
  · rw [Step.call, hagain]

/-! ## Loops -/

/-- The name of a modifier tells its position when no modifier before it has the name. -/
theorem StepView.position?_of_split {view : StepView} {front back : List String} {name : String}
    (hview : view.modifiers = front ++ name :: back) (hfront : name ∉ front) :
    view.position? name = some front.length := by
  have hnone : front.findIdx? (· == name) = none := by
    rw [List.findIdx?_eq_none_iff]
    intro other hother
    simpa using fun heq : other = name => hfront (heq ▸ hother)
  rw [position?, hview, List.findIdx?_append, hnone]
  simp [List.findIdx?_cons]

theorem StepView.exists_position? {view : StepView} {name : String}
    (hmem : name ∈ view.modifiers) : ∃ position, view.position? name = some position := by
  refine Option.isSome_iff_exists.mp ?_
  simpa [position?] using hmem

theorem Step.position?_of_split {step : Step σ α μ} {front back : List (Modifier σ α)}
    {modifier : Modifier σ α} (hnames : (modifierNames step.modifiers).Nodup)
    (hsplit : step.modifiers = front ++ modifier :: back) :
    step.view.position? modifier.name = some front.length := by
  have hview : step.view.modifiers =
      modifierNames front ++ modifier.name :: modifierNames back := by
    simp [Step.view, hsplit, modifierNames]
  have hfront : modifier.name ∉ modifierNames front := by
    intro hmem
    have hnodup : step.view.modifiers.Nodup := hnames
    rw [hview] at hnodup
    exact (List.nodup_append.mp hnodup).2.2 _ hmem _ List.mem_cons_self rfl
  rw [StepView.position?_of_split hview hfront, modifierNames, List.length_map]

theorem Step.position?_of_getElem? {step : Step σ α μ} {position : Nat}
    {modifier : Modifier σ α} (hnames : (modifierNames step.modifiers).Nodup)
    (hmodifier : step.modifiers[position]? = some modifier) :
    step.view.position? modifier.name = some position := by
  obtain ⟨hlt, rfl⟩ := List.getElem?_eq_some_iff.mp hmodifier
  have hsplit : step.modifiers = step.modifiers.take position ++
      step.modifiers[position] :: step.modifiers.drop (position + 1) := by
    rw [List.getElem_cons_drop, List.take_append_drop]
  rw [step.position?_of_split hnames hsplit, List.length_take_of_le (Nat.le_of_lt hlt)]

/-- A modifier whose pre-hook is a loop over what comes after the modifier. How many
rounds there are, and what happens between them, may depend on anything. -/
def Modifier.Looping (modifier : Modifier σ α) : Prop :=
  ∀ told ctx, modifier.name ∈ told.step.modifiers →
    ∃ rounds again begun,
      Routine.loopAfter? told modifier.name rounds again begun = some (modifier.pre told ctx)

theorem Modifier.Looping.pre_eq_loopFrom {modifier : Modifier σ α} (hloop : modifier.Looping)
    {told : PreCall} {position : Nat}
    (hposition : told.step.position? modifier.name = some position) (ctx : σ) :
    ∃ rounds again begun,
      modifier.pre told ctx = Routine.loopFrom (position + 1) again rounds 1 .skipped begun := by
  have hmem : modifier.name ∈ told.step.modifiers := by
    obtain ⟨hlt, hname, -⟩ := List.findIdx?_eq_some_iff_getElem.mp hposition
    rw [beq_iff_eq] at hname
    exact hname ▸ List.getElem_mem hlt
  obtain ⟨rounds, again, begun, hpre⟩ := hloop told ctx hmem
  rw [Routine.loopAfter?, hposition, Option.map_some, Option.some.injEq] at hpre
  exact ⟨rounds, again, begun, hpre.symm⟩

section

variable {position start : Nat} (again : Nat → Outcome α → σ → Option σ)

theorem Routine.startsAfter_loopFrom (hstart : position < start) (rounds round : Nat)
    (last : Outcome α) (ctx : σ) :
    (loopFrom start again rounds round last ctx :
      Routine σ α (Except (Interrupt α) β)).StartsAfter position := by
  induction rounds generalizing round last ctx with
  | zero => trivial
  | succ rounds ih =>
      refine ⟨hstart, fun outcome ctx => ?_⟩
      beta_reduce
      split
      · exact ih _ _ _
      · trivial

theorem Routine.answers_loopFrom (rounds round : Nat) (last : Outcome α) (ctx : σ) :
    (loopFrom start again rounds round last ctx :
      Routine σ α (Except (Interrupt α) β)).Answers fun answer => ∀ done, answer ≠ .ok done := by
  induction rounds generalizing round last ctx with
  | zero => simp [loopFrom, Answers]
  | succ rounds ih =>
      intro outcome ctx
      beta_reduce
      split
      · exact ih _ _ _
      · simp [Answers]

end

theorem Modifier.Looping.forward {modifier : Modifier σ α} (hloop : modifier.Looping)
    {view : StepView} {position : Nat} (hposition : view.position? modifier.name = some position) :
    modifier.Forward view position where
  pre := by
    rintro told ctx rfl
    obtain ⟨rounds, again, begun, hpre⟩ := hloop.pre_eq_loopFrom hposition ctx
    rw [hpre]
    exact Routine.startsAfter_loopFrom again (Nat.lt_succ_self position) rounds 1 .skipped begun
  post := by
    left
    rintro told ctx rfl
    obtain ⟨rounds, again, begun, hpre⟩ := hloop.pre_eq_loopFrom hposition ctx
    rw [hpre]
    exact Routine.answers_loopFrom again rounds 1 .skipped begun

end StepChain
