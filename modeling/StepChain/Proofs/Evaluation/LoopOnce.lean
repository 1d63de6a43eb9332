import StepChain.Proofs.Evaluation.Ending
import StepChain.Scripted.Planned

/-!
# Looping once

A modifier that has what comes after it evaluated once, and aborts with the outcome,
changes nothing but its own calls: without its hooks the step comes to the same
outcome and context, through the same calls of all others. The loop leaves through the
abort path of the outer evaluation; what the plain modifier lets pass, it evaluates one
level deeper.
-/

namespace StepChain

variable {σ α β γ μ : Type}

/-! ## Reports up to one modifier -/

namespace Event

def modifier? : Event σ α → Option (Modifier σ α)
  | preCall modifier _ _ => some modifier
  | preReturn modifier _ _ => some modifier
  | actionCall _ _ _ => none
  | actionReturn _ _ _ => none
  | postCall modifier _ _ _ => some modifier
  | postReturn modifier _ _ => some modifier

/-- Whether an event belongs to the action or to a modifier of another name. -/
def foreign (name : String) (event : Event σ α) : Bool :=
  event.modifier?.all (·.name != name)

end Event

structure Report.AgreesBut (name : String) (report other : Report σ α β) : Prop where
  answer : report.answer = other.answer
  ctx : report.ctx = other.ctx
  events : report.events.filter (Event.foreign name) = other.events.filter (Event.foreign name)

theorem Report.AgreesBut.symm {name : String} {report other : Report σ α β}
    (hagrees : report.AgreesBut name other) : other.AgreesBut name report :=
  ⟨hagrees.answer.symm, hagrees.ctx.symm, hagrees.events.symm⟩

/-- What one side comes to, the other side does too, up to the calls of a modifier. -/
def Carries (name : String) (left right : Option (Report σ α β)) : Prop :=
  ∀ report, left = some report → ∃ other, right = some other ∧ report.AgreesBut name other

section

variable {name : String}

theorem carries_of_extends {left right : Option (Report σ α β)}
    (hextends : ∀ report, left = some report → right = some report) : Carries name left right :=
  fun report hleft => ⟨report, hextends report hleft, rfl, rfl, rfl⟩

theorem Carries.trans {left middle right : Option (Report σ α β)}
    (hfirst : Carries name left middle) (hsecond : Carries name middle right) :
    Carries name left right := by
  intro report hleft
  obtain ⟨between, hmiddle, hbetween⟩ := hfirst report hleft
  obtain ⟨other, hright, hother⟩ := hsecond between hmiddle
  exact ⟨other, hright, hbetween.answer.trans hother.answer, hbetween.ctx.trans hother.ctx,
    hbetween.events.trans hother.events⟩

theorem Carries.bind {left right : Option (Report σ α β)}
    {next next' : Report σ α β → Option (Report σ α γ)} (hcarries : Carries name left right)
    (hnext : ∀ report other, report.AgreesBut name other →
      Carries name (next report) (next' other)) :
    Carries name (left.bind next) (right.bind next') := by
  intro report hbind
  obtain ⟨inner, hleft, hreport⟩ := Option.bind_eq_some_iff.mp hbind
  obtain ⟨other, hright, hagrees⟩ := hcarries inner hleft
  rw [hright]
  exact hnext inner other hagrees report hreport

theorem Carries.map {left right : Option (Report σ α β)} {f g : Report σ α β → Report σ α γ}
    (hcarries : Carries name left right)
    (hmap : ∀ report other, report.AgreesBut name other → (f report).AgreesBut name (g other)) :
    Carries name (left.map f) (right.map g) := by
  rw [Option.map_eq_bind, Option.map_eq_bind]
  refine hcarries.bind fun inner other hagrees report hreport => ?_
  cases hreport
  exact ⟨g other, rfl, hmap inner other hagrees⟩

theorem Routine.carries_observe {again other : Observation σ α}
    (hagain : ∀ start ctx, Carries name (again start ctx) (other start ctx))
    (routine : Routine σ α β) : Carries name (routine.observe again) (routine.observe other) := by
  induction routine with
  | done answer ctx => exact carries_of_extends fun _ hreport => hreport
  | evaluate start ctx next ih =>
      refine (hagain start ctx).bind fun inner inner' hinner => ?_
      rw [← hinner.answer, ← hinner.ctx]
      refine (ih inner.answer inner.ctx).map fun rest rest' hrest => ?_
      exact ⟨hrest.answer, hrest.ctx, by simp [hinner.events, hrest.events]⟩

theorem Report.AgreesBut.ofCall {report other : Report σ α β}
    (hagrees : report.AgreesBut name other) (began : Event σ α) (ended : β → σ → Event σ α) :
    (report.ofCall began ended).AgreesBut name (other.ofCall began ended) where
  answer := hagrees.answer
  ctx := hagrees.ctx
  events := by
    simp [Report.ofCall, List.filter_cons, hagrees.events, hagrees.answer, hagrees.ctx]

variable {view : StepView} {action : Action σ α} {again other : Observation σ α}

theorem Routine.carries_ofCall
    (hagain : ∀ start ctx, Carries name (again start ctx) (other start ctx))
    (routine : Routine σ α β) (began : Event σ α) (ended : β → σ → Event σ α) :
    Carries name ((routine.observe again).map fun report => report.ofCall began ended)
      ((routine.observe other).map fun report => report.ofCall began ended) :=
  (routine.carries_observe hagain).map fun _ _ hagrees => hagrees.ofCall began ended

/-- Modifiers in front of two evaluations that end alike, when requests are answered
alike. The modifiers that count as applied only matter by their names. -/
theorem nest_carries (hagain : ∀ start ctx, Carries name (again start ctx) (other start ctx))
    {tail tail' : List (Modifier σ α)} (hnames : modifierNames tail = modifierNames tail')
    (front : List (Modifier σ α)) {applied applied' : List (Modifier σ α)}
    (happlied : modifierNames applied = modifierNames applied')
    (htail : ∀ ctx, Carries name (nest view action again (applied ++ front) tail ctx)
      (nest view action other (applied' ++ front) tail' ctx)) (ctx : σ) :
    Carries name (nest view action again applied (front ++ tail) ctx)
      (nest view action other applied' (front ++ tail') ctx) := by
  induction front generalizing applied applied' ctx with
  | nil => simpa using htail ctx
  | cons modifier rest ih =>
      have hrest : modifierNames (rest ++ tail) = modifierNames (rest ++ tail') := by
        simpa [modifierNames] using hnames
      have hbefore : toldBefore view action applied (rest ++ tail) =
          toldBefore view action applied' (rest ++ tail') := by
        rw [toldBefore_eq, toldBefore_eq, happlied, hrest]
      have hafter : toldAfter view action applied (rest ++ tail) =
          toldAfter view action applied' (rest ++ tail') := by
        rw [toldAfter_eq, toldAfter_eq, happlied, hrest]
      have hnext :
          modifierNames (applied ++ [modifier]) = modifierNames (applied' ++ [modifier]) := by
        simpa [modifierNames] using happlied
      have hinside := ih hnext (by simpa using htail)
      simp only [List.cons_append, nest_cons_eq, hbefore, hafter]
      have hpre : ∀ told, Carries name (modifier.observePre again told ctx)
          (modifier.observePre other told ctx) := fun told =>
        Routine.carries_ofCall hagain (modifier.pre told ctx) _ _
      refine (hpre _).bind fun before before' hbefore => ?_
      rw [← hbefore.answer, ← hbefore.ctx]
      cases before.answer with
      | error interrupt =>
          intro report hreport
          cases hreport
          exact ⟨_, rfl, rfl, rfl, hbefore.events⟩
      | ok done =>
          refine (hinside before.ctx).bind fun inner inner' hinner => ?_
          rw [← hinner.answer, ← hinner.ctx]
          have hpost : ∀ told, Carries name
              (modifier.observePost again told inner.answer inner.ctx)
              (modifier.observePost other told inner.answer inner.ctx) := fun told =>
            Routine.carries_ofCall hagain (modifier.post told inner.answer inner.ctx) _ _
          refine (hpost _).map fun after after' hafter => ?_
          exact ⟨congrArg Outcome.ofHook hafter.answer, hafter.ctx,
            by simp [hbefore.events, hinner.events, hafter.events]⟩

theorem nest_same_carries (hagain : ∀ start ctx, Carries name (again start ctx) (other start ctx))
    (pending : List (Modifier σ α)) {applied applied' : List (Modifier σ α)}
    (happlied : modifierNames applied = modifierNames applied') (ctx : σ) :
    Carries name (nest view action again applied pending ctx)
      (nest view action other applied' pending ctx) := by
  have haction : ∀ ctx, Carries name (nest view action again (applied ++ pending) [] ctx)
      (nest view action other (applied' ++ pending) [] ctx) := by
    intro ctx
    have hcall : Carries name (action.observeCall again view ctx)
        (action.observeCall other view ctx) :=
      Routine.carries_ofCall hagain (action.call view ctx) _ _
    refine hcall.map fun called called' hcalled => ?_
    exact ⟨congrArg Outcome.ofExcept hcalled.answer, hcalled.ctx, hcalled.events⟩
  have hall := nest_carries hagain rfl pending happlied haction ctx
  rwa [List.append_nil] at hall

end

/-! ## The modifier with and without its loop -/

/-- A modifier whose pre-hook has what comes after the modifier evaluated once, and
aborts with the outcome. -/
def Modifier.LoopsOnce (modifier : Modifier σ α) : Prop :=
  ∀ told ctx index, told.step.position? modifier.name = some index →
    modifier.pre told ctx =
      .evaluate (index + 1) ctx fun outcome ctx => .done (.error (.abort outcome)) ctx

def Modifier.withoutHooks (modifier : Modifier σ α) : Modifier σ α :=
  { header := modifier.header, hints := modifier.hints }

def Step.withoutHooksAt (step : Step σ α μ) (index : Nat) : Step σ α μ :=
  { step with modifiers := step.modifiers.modify index Modifier.withoutHooks }

@[simp] theorem Modifier.name_withoutHooks (modifier : Modifier σ α) :
    modifier.withoutHooks.name = modifier.name := rfl

def Report.insideLoop (modifier : Modifier σ α) (told : PreCall) (ctx : σ)
    (inner : Report σ α (Outcome α)) : Report σ α (Outcome α) :=
  { inner with
    events :=
      .preCall modifier told ctx :: inner.events ++
        [.preReturn modifier (.error (.abort inner.answer)) inner.ctx] }

def Report.insideDefaults (modifier : Modifier σ α) (before : PreCall) (after : PostCall) (ctx : σ)
    (inner : Report σ α (Outcome α)) : Report σ α (Outcome α) :=
  { inner with
    events :=
      [.preCall modifier before ctx, .preReturn modifier (.ok ()) ctx] ++ inner.events ++
        [.postCall modifier after inner.answer inner.ctx,
          .postReturn modifier (.ok inner.answer) inner.ctx] }

theorem Report.AgreesBut.inside {modifier : Modifier σ α} {inner inner' : Report σ α (Outcome α)}
    (hagrees : inner.AgreesBut modifier.name inner') (told before : PreCall) (after : PostCall)
    (ctx : σ) :
    (inner.insideLoop modifier told ctx).AgreesBut modifier.name
      (inner'.insideDefaults modifier.withoutHooks before after ctx) where
  answer := hagrees.answer
  ctx := hagrees.ctx
  events := by
    simp [insideLoop, insideDefaults, Event.foreign, Event.modifier?, hagrees.events]

section

variable {view : StepView} {action : Action σ α} {again : Observation σ α} {modifier : Modifier σ α}

theorem nest_loopOnce (hloop : modifier.LoopsOnce) {index : Nat}
    (hposition : view.position? modifier.name = some index) (applied rest : List (Modifier σ α))
    (ctx : σ) :
    nest view action again applied (modifier :: rest) ctx =
      (again (index + 1) ctx).map
        (Report.insideLoop modifier (toldBefore view action applied rest) ctx) := by
  have hpre := hloop (toldBefore view action applied rest) ctx index hposition
  cases hagain : again (index + 1) ctx with
  | none => simp [nest_cons_eq, Modifier.observePre, hpre, Routine.observe, hagain]
  | some inner =>
      simp [nest_cons_eq, Modifier.observePre, hpre, Routine.observe, hagain, Report.ofCall,
        Interrupt.outcome, Report.insideLoop]

theorem nest_withoutHooks (applied rest : List (Modifier σ α)) (ctx : σ) :
    nest view action again applied (modifier.withoutHooks :: rest) ctx =
      (nest view action again (applied ++ [modifier.withoutHooks]) rest ctx).map
        (Report.insideDefaults modifier.withoutHooks (toldBefore view action applied rest)
          (toldAfter view action applied rest) ctx) := by
  have hpre : ∀ told, modifier.withoutHooks.observePre again told ctx = some
      { answer := .ok ()
        ctx
        events := [.preCall modifier.withoutHooks told ctx, .preReturn _ (.ok ()) ctx] } :=
    fun _ => rfl
  have hpost : ∀ told outcome left, modifier.withoutHooks.observePost again told outcome left =
      some
        { answer := .ok outcome
          ctx := left
          events :=
            [.postCall modifier.withoutHooks told outcome left,
              .postReturn _ (.ok outcome) left] } :=
    fun _ _ _ => rfl
  simp only [nest_cons_eq, hpre, hpost, Option.bind_some, Option.map_eq_bind]
  rfl

end

/-! ## Rests of two lists that differ in one modifier -/

theorem drop_before_or_after {ι : Type} (front back : List ι) (start : Nat) :
    (∃ rest, front = front.take start ++ rest ∧ ∀ item,
        (front ++ item :: back).take start = front.take start ∧
          (front ++ item :: back).drop start = rest ++ item :: back) ∨
      ∃ rest, ∀ item, (front ++ item :: back).drop start = rest := by
  rcases Nat.lt_or_ge front.length start with hlt | hle
  · right
    refine ⟨back.drop (start - front.length - 1), fun item => ?_⟩
    obtain ⟨more, rfl⟩ : ∃ more, start = front.length + (more + 1) :=
      ⟨start - front.length - 1, by omega⟩
    simp [List.drop_append]
  · left
    refine ⟨front.drop start, (List.take_append_drop start front).symm, fun item => ⟨?_, ?_⟩⟩
    · exact List.take_append_of_le_length hle
    · exact List.drop_append_of_le_length hle

theorem nest_rest_carries {name : String} {view : StepView} {action : Action σ α}
    {again other : Observation σ α} {first second : Modifier σ α}
    (hagain : ∀ start ctx, Carries name (again start ctx) (other start ctx))
    (hname : first.name = second.name) (front back : List (Modifier σ α))
    (htail : ∀ ctx, Carries name (nest view action again front (first :: back) ctx)
      (nest view action other front (second :: back) ctx)) (start : Nat) (ctx : σ) :
    Carries name
      (nest view action again ((front ++ first :: back).take start)
        ((front ++ first :: back).drop start) ctx)
      (nest view action other ((front ++ second :: back).take start)
        ((front ++ second :: back).drop start) ctx) := by
  rcases drop_before_or_after front back start with ⟨rest, hfront, hrest⟩ | ⟨rest, hrest⟩
  · obtain ⟨htake, hdrop⟩ := hrest first
    obtain ⟨htake', hdrop'⟩ := hrest second
    rw [htake, hdrop, htake', hdrop']
    have hnames : modifierNames (first :: back) = modifierNames (second :: back) := by
      simp [modifierNames, hname]
    exact nest_carries hagain hnames rest rfl (hfront ▸ htail) ctx
  · have hnames : modifierNames ((front ++ first :: back).take start) =
        modifierNames ((front ++ second :: back).take start) := by
      simp [modifierNames, List.map_take, hname]
    rw [hrest first, hrest second]
    exact nest_same_carries hagain rest hnames ctx

/-! ## The step with and without the loop -/

theorem Step.requests_succ (step : Step σ α μ) (action : Action σ α) (depth start : Nat)
    (ctx : σ) :
    step.requests action (depth + 1) start ctx =
      nest step.view action (step.requests action depth) (step.modifiers.take start)
        (step.modifiers.drop start) ctx := rfl

theorem Step.requests_mono (step : Step σ α μ) (action : Action σ α) {depth more : Nat}
    (hle : depth ≤ more) (name : String) (start : Nat) (ctx : σ) :
    Carries name (step.requests action depth start ctx) (step.requests action more start ctx) :=
  carries_of_extends fun _ hreport => Step.nestWithin_mono hle hreport

theorem Step.view_withoutHooksAt (step : Step σ α μ) (index : Nat) :
    (step.withoutHooksAt index).view = step.view := by
  have hnames : modifierNames (step.modifiers.modify index Modifier.withoutHooks) =
      modifierNames step.modifiers := by
    refine List.ext_getElem? fun position => ?_
    by_cases heq : index = position
    · simp [modifierNames, heq, Function.comp_def]
    · simp [modifierNames, heq]
  simp [Step.view, withoutHooksAt, hnames]

/-- A step in which the modifier after those in front loops once. -/
structure Step.LoopsOnceAfter (step : Step σ α μ) (front : List (Modifier σ α))
    (modifier : Modifier σ α) (back : List (Modifier σ α)) : Prop where
  loops : modifier.LoopsOnce
  modifiers : step.modifiers = front ++ modifier :: back
  position : step.view.position? modifier.name = some front.length

namespace Step.LoopsOnceAfter

variable {step : Step σ α μ} {front back : List (Modifier σ α)} {modifier : Modifier σ α}

theorem modifiers_withoutHooksAt (hstep : step.LoopsOnceAfter front modifier back) :
    (step.withoutHooksAt front.length).modifiers = front ++ modifier.withoutHooks :: back := by
  simp [withoutHooksAt, hstep.modifiers, List.modify_eq_take_cons_drop]

theorem requests_back (hstep : step.LoopsOnceAfter front modifier back) (action : Action σ α)
    (depth : Nat) (ctx : σ) :
    step.requests action (depth + 1) (front.length + 1) ctx =
      nest step.view action (step.requests action depth) (front ++ [modifier]) back ctx := by
  have hmodifiers : step.modifiers = (front ++ [modifier]) ++ back := by simp [hstep.modifiers]
  rw [requests_succ, hmodifiers, List.take_left' (by simp), List.drop_left' (by simp)]

theorem names_front (front : List (Modifier σ α)) (modifier : Modifier σ α) :
    modifierNames (front ++ [modifier]) = modifierNames (front ++ [modifier.withoutHooks]) := by
  simp [modifierNames]

theorem carries_without (hstep : step.LoopsOnceAfter front modifier back) (action : Action σ α)
    (depth start : Nat) (ctx : σ) :
    Carries modifier.name (step.requests action depth start ctx)
      ((step.withoutHooksAt front.length).requests action depth start ctx) := by
  induction depth generalizing start ctx with
  | zero => exact carries_of_extends fun report hreport => nomatch hreport
  | succ depth ih =>
      rw [requests_succ, requests_succ, step.view_withoutHooksAt, hstep.modifiers,
        hstep.modifiers_withoutHooksAt]
      refine nest_rest_carries ih modifier.name_withoutHooks.symm front back (fun ctx => ?_)
        start ctx
      rw [nest_loopOnce hstep.loops hstep.position, nest_withoutHooks]
      refine Carries.map ?_ fun _ _ hagrees => hagrees.inside _ _ _ ctx
      -- The loop's level is one deeper; a greater depth changes nothing.
      refine (step.requests_mono action (Nat.le_succ depth) _ _ ctx).trans ?_
      rw [hstep.requests_back]
      exact nest_same_carries ih back (names_front front modifier) ctx

/-- The loop takes a level of its own around each level of the step without it. -/
theorem without_carries (hstep : step.LoopsOnceAfter front modifier back) (action : Action σ α)
    (depth start : Nat) (ctx : σ) :
    Carries modifier.name ((step.withoutHooksAt front.length).requests action depth start ctx)
      (step.requests action (2 * depth) start ctx) := by
  induction depth generalizing start ctx with
  | zero => exact carries_of_extends fun report hreport => nomatch hreport
  | succ depth ih =>
      have hdeeper : ∀ start ctx, Carries modifier.name
          ((step.withoutHooksAt front.length).requests action depth start ctx)
          (step.requests action (2 * depth + 1) start ctx) := fun start ctx =>
        (ih start ctx).trans (step.requests_mono action (Nat.le_succ _) _ start ctx)
      rw [Nat.mul_succ, requests_succ, requests_succ, step.view_withoutHooksAt, hstep.modifiers,
        hstep.modifiers_withoutHooksAt]
      refine nest_rest_carries hdeeper modifier.name_withoutHooks front back (fun ctx => ?_)
        start ctx
      rw [nest_loopOnce hstep.loops hstep.position, nest_withoutHooks, hstep.requests_back]
      refine Carries.map ?_ fun _ _ hagrees => (hagrees.symm.inside _ _ _ ctx).symm
      exact nest_same_carries ih back (names_front front modifier).symm ctx

end Step.LoopsOnceAfter

theorem Modifier.LoopsOnce.forward {modifier : Modifier σ α} (hloop : modifier.LoopsOnce)
    {view : StepView} {position : Nat} (hposition : view.position? modifier.name = some position) :
    modifier.Forward view position where
  pre := by
    rintro told ctx rfl
    rw [hloop told ctx position hposition]
    exact ⟨Nat.lt_succ_self position, fun _ _ => trivial⟩
  post := by
    left
    rintro told ctx rfl
    rw [hloop told ctx position hposition]
    exact fun _ _ done heq => nomatch heq

/-- What a call of a step comes to when requests may nest to any depth: an outcome and
a context, and the events, when calls are recorded. -/
def Step.ComesTo (step : Step σ α μ) (ctx : σ) (report : Report σ α (Outcome α)) : Prop :=
  ∃ depth,
    step.evaluateWithin depth step.action [] step.modifiers ctx =
        some (report.answer, report.ctx) ∧
      step.recorded.evaluateWithin depth step.recorded.action [] step.recorded.modifiers (ctx, []) =
        some (report.answer, (report.ctx, report.events))

theorem Step.comesTo_iff_requests {step : Step σ α μ} {ctx : σ}
    {report : Report σ α (Outcome α)} :
    step.ComesTo ctx report ↔ ∃ depth, step.requests step.action depth 0 ctx = some report := by
  refine exists_congr fun depth => ?_
  have hplain := step.evaluateWithin_eq_nestWithin depth step.action [] step.modifiers ctx
  have hrecorded := step.recorded_evaluateWithin_eq_nestWithin depth step.action []
    step.modifiers ctx []
  have hwhole : step.requests step.action depth 0 ctx =
      step.nestWithin depth step.action [] step.modifiers ctx := rfl
  rw [hwhole, hplain, show step.recorded.evaluateWithin depth step.recorded.action []
    step.recorded.modifiers (ctx, []) = _ from hrecorded]
  cases step.nestWithin depth step.action [] step.modifiers ctx with
  | none => simp
  | some found =>
      obtain ⟨answer, left, events⟩ := found
      obtain ⟨answer', left', events'⟩ := report
      simp only [Option.map_some, Option.some.injEq, Prod.mk.injEq, Report.mk.injEq,
        List.nil_append]
      exact ⟨fun hsame => hsame.2, fun hsame => ⟨⟨hsame.1, hsame.2.1⟩, hsame⟩⟩

/-- A modifier that loops once is transparent: whatever hooks and action do, the step
and the same step without the modifier's hooks come to the same outcome and context,
through the same calls of all others. When the other hooks only request what comes
after them, so that both calls end, the calls give the same. -/
theorem Step.loopOnce_transparent (step : Step σ α μ) (index : Nat) (modifier : Modifier σ α)
    (hmodifier : step.modifiers[index]? = some modifier)
    (hnames : (modifierNames step.modifiers).Nodup) (hloop : modifier.LoopsOnce) (ctx : σ) :
    (∀ report, step.ComesTo ctx report →
        ∃ other, (step.withoutHooksAt index).ComesTo ctx other ∧
          report.AgreesBut modifier.name other) ∧
      (∀ other, (step.withoutHooksAt index).ComesTo ctx other →
        ∃ report, step.ComesTo ctx report ∧ report.AgreesBut modifier.name other) ∧
      (step.action.Plain →
        (∀ (position : Nat) (other : Modifier σ α), position ≠ index →
          step.modifiers[position]? = some other → other.Forward step.view position) →
        step.call ctx = (step.withoutHooksAt index).call ctx ∧
          ∃ report other : Report σ α (Outcome α), report.AgreesBut modifier.name other ∧
            step.recorded.call (ctx, []) =
              (report.answer.toExcept, (report.ctx, report.events)) ∧
            (step.withoutHooksAt index).recorded.call (ctx, []) =
              (other.answer.toExcept, (other.ctx, other.events))) := by
  have hposition := Step.position?_of_getElem? hnames hmodifier
  obtain ⟨hlt, hget⟩ := List.getElem?_eq_some_iff.mp hmodifier
  have hlength : (step.modifiers.take index).length = index :=
    List.length_take_of_le (Nat.le_of_lt hlt)
  have hstep : step.LoopsOnceAfter (step.modifiers.take index) modifier
      (step.modifiers.drop (index + 1)) := by
    refine ⟨hloop, ?_, by rw [hposition, hlength]⟩
    rw [← hget, List.getElem_cons_drop, List.take_append_drop]
  have hwithout := hstep.carries_without step.action
  have hwith := hstep.without_carries step.action
  rw [hlength] at hwithout hwith
  refine ⟨?_, ?_, ?_⟩
  · intro report hreport
    obtain ⟨depth, hdepth⟩ := comesTo_iff_requests.mp hreport
    obtain ⟨other, hother, hagrees⟩ := hwithout depth 0 ctx report hdepth
    exact ⟨other, comesTo_iff_requests.mpr ⟨depth, hother⟩, hagrees⟩
  · intro other hother
    obtain ⟨depth, hdepth⟩ := comesTo_iff_requests.mp hother
    obtain ⟨report, hreport, hagrees⟩ := hwith depth 0 ctx other hdepth
    exact ⟨report, comesTo_iff_requests.mpr ⟨2 * depth, hreport⟩, hagrees.symm⟩
  · intro haction hothers
    have hforward : step.Forward := by
      intro position other hother
      by_cases heq : position = index
      · subst heq
        obtain rfl : modifier = other := by simpa [hmodifier] using hother
        exact hloop.forward hposition
      · exact hothers position other heq hother
    obtain ⟨report, hreport⟩ := hforward.nestWithin_depth haction ctx
    obtain ⟨other, hother, hagrees⟩ := hwithout step.depth 0 ctx report hreport
    have hdepth : (step.withoutHooksAt index).depth = step.depth := by
      simp [Step.depth, withoutHooksAt]
    have hquiet : (step.withoutHooksAt index).nestWithin (step.withoutHooksAt index).depth
        (step.withoutHooksAt index).action [] (step.withoutHooksAt index).modifiers ctx =
          some other := by
      rw [hdepth]
      exact hother
    obtain ⟨hcall, hrecorded⟩ := step.call_of_nestWithin hreport []
    obtain ⟨hcall', hrecorded'⟩ := Step.call_of_nestWithin hquiet []
    refine ⟨?_, report, other, hagrees, hrecorded, hrecorded'⟩
    rw [hcall, hcall', hagrees.answer, hagrees.ctx]

/-! ## A loop around a retry -/

def Modifier.loopingOnce (header : Header) : Modifier σ α :=
  { header
    pre := fun told ctx =>
      (Routine.loopAfter? told header.name 1 (fun _ _ _ => none) ctx).getD (.done (.ok ()) ctx) }

theorem Modifier.loopingOnce_loopsOnce (header : Header) :
    (loopingOnce header : Modifier σ α).LoopsOnce := by
  intro told ctx index hposition
  have hname : told.step.position? header.name = some index := hposition
  simp [loopingOnce, Routine.loopAfter?, hname, Routine.loopFrom]

/-- The second modifier loops once, the third until the action does not fail. -/
def onceAroundRetry : Step Recorder String Unit :=
  let planned (name : String) (pre : PrePlan) : PlannedModifier :=
    { header := ⟨name, plannedAddress name⟩, pre }
  let action : PlannedAction :=
    { header := ⟨"act", plannedAddress "act"⟩
      identity := "act"
      results := [.error (.ofMessage "no"), .ok "yes"] }
  { action := action.toAction
    modifiers :=
      [(planned "outer" .proceed).toModifier, .loopingOnce ⟨"once", plannedAddress "once"⟩,
        (planned "again" (.loop 2 true)).toModifier, (planned "inner" .proceed).toModifier]
    metadata := ()
    address := Address.root "custom" }

theorem PlannedModifier.toModifier_plain {modifier : PlannedModifier}
    (hpre : modifier.pre = .proceed) : modifier.toModifier.Plain where
  pre := by
    intro told log
    simp [toModifier, preRoutine, hpre, Routine.Plain]
  post := fun _ _ _ => trivial

theorem PlannedModifier.toModifier_looping {modifier : PlannedModifier} {rounds : Nat}
    {untilOk : Bool} (hpre : modifier.pre = .loop rounds untilOk) :
    modifier.toModifier.Looping := by
  intro told log hmem
  obtain ⟨position, hposition⟩ := StepView.exists_position? hmem
  have hname : told.step.position? modifier.header.name = some position := hposition
  refine ⟨rounds, fun _ outcome log => if again untilOk outcome then some log else none,
    log.record (modifier.preEntry told), ?_⟩
  simp [toModifier, preRoutine, hpre, Routine.loopAfter?, Modifier.name, hname]

theorem onceAroundRetry_transparent :
    onceAroundRetry.call {} = (onceAroundRetry.withoutHooksAt 1).call {} ∧
      onceAroundRetry.call {} =
        (.ok (some "yes"),
          { entries :=
              ["pre:outer(/once,again,inner)", "pre:again(outer,once/inner)",
                "pre:inner(outer,once,again/)", "call:act", "post:inner(act//outer,once,again)",
                "pre:inner(outer,once,again/)", "call:act", "post:inner(act//outer,once,again)",
                "post:outer(act/once,again,inner/)"]
            turns := [("act", 2), ("act", 1)] }) := by
  have hnames : (modifierNames onceAroundRetry.modifiers).Nodup := by decide +kernel
  obtain ⟨-, -, hcalls⟩ := onceAroundRetry.loopOnce_transparent 1 _ rfl hnames
    (Modifier.loopingOnce_loopsOnce _) {}
  have hothers : ∀ (position : Nat) (other : Modifier Recorder String), position ≠ 1 →
      onceAroundRetry.modifiers[position]? = some other →
        other.Forward onceAroundRetry.view position := by
    intro position other hne hother
    have hposition := Step.position?_of_getElem? hnames hother
    match position, hother with
    | 0, hother =>
        cases hother
        exact (PlannedModifier.toModifier_plain rfl).forward _ 0
    | 2, hother =>
        cases hother
        exact (PlannedModifier.toModifier_looping rfl).forward hposition
    | 3, hother =>
        cases hother
        exact (PlannedModifier.toModifier_plain rfl).forward _ 3
  have haction : onceAroundRetry.action.Plain := fun _ _ => trivial
  exact ⟨(hcalls haction hothers).1, rfl⟩

end StepChain
