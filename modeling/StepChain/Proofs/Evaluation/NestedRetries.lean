import Mathlib.Algebra.BigOperators.Ring.List
import Mathlib.Algebra.GroupWithZero.Nat
import StepChain.Attempts
import StepChain.Proofs.Evaluation.Ending

/-!
# Retries in retries

Retries around a flaky action, nested to any depth, come to as many attempts as the
product of their counts allows: all of them, or those up to the first one that reaches the
action's threshold. A count of zero anywhere leaves the action uncalled and the step skipped.
-/

namespace StepChain

variable {μ : Type}

namespace Attempts

/-! ## A limited number of attempts -/

def attemptFailure (number : Nat) : Failure :=
  { context := [], root := .message ("attempt " ++ number.repr ++ " failed") }

/-- What at most `limit` attempts come to, with the number of them that are made, when there
were `before` attempts so far. -/
inductive Tries (threshold before : Nat) : (limit : Nat) → Outcome Nat → (made : Nat) → Prop where
  | never : Tries threshold before 0 .skipped 0
  | reached {limit : Nat} (hlimit : 0 < limit) (henough : threshold ≤ before + limit) :
      Tries threshold before limit (.value (max (before + 1) threshold))
        (max 1 (threshold - before))
  | missed {limit : Nat} (hlimit : 0 < limit) (hmissed : before + limit < threshold) :
      Tries threshold before limit (.failed (attemptFailure (before + limit))) limit

section

variable {threshold before limit made : Nat} {outcome : Outcome Nat}

/-- More attempts are allowed than are needed. -/
theorem Tries.widen (htries : Tries threshold before limit outcome made)
    (hstops : outcome.isFailed = false) {wider : Nat} (hle : limit ≤ wider)
    (hzero : limit = 0 → wider = 0) : Tries threshold before wider outcome made := by
  cases htries with
  | never =>
      obtain rfl := hzero rfl
      exact .never
  | reached hlimit henough => exact .reached (by omega) (by omega)
  | missed hlimit hmissed => exact absurd hstops (by simp [Outcome.isFailed])

theorem Tries.limit_pos (htries : Tries threshold before limit outcome made)
    (hfailed : outcome.isFailed = true) : 0 < limit := by
  cases htries with
  | never => simp [Outcome.isFailed] at hfailed
  | reached hlimit _ => exact hlimit
  | missed hlimit _ => exact hlimit

/-- After attempts that all failed, or without any, further ones count on. -/
theorem Tries.append {further more : Nat} {last : Outcome Nat}
    (hfirst : Tries threshold before limit last made)
    (hlast : limit = 0 ∨ last.isFailed = true ∧ 0 < further)
    (hsecond : Tries threshold (before + made) further outcome more) :
    Tries threshold before (limit + further) outcome (made + more) := by
  cases hfirst with
  | never => simpa using hsecond
  | reached hlimit henough => simp [Outcome.isFailed, Nat.pos_iff_ne_zero.mp hlimit] at hlast
  | missed hlimit hmissed =>
      cases hsecond with
      | never => omega
      | reached _ henough =>
          have hvalue : max (before + limit + 1) threshold = max (before + 1) threshold := by omega
          have hmade :
              limit + max 1 (threshold - (before + limit)) = max 1 (threshold - before) := by omega
          rw [hvalue, hmade]
          exact .reached (by omega) (by omega)
      | missed _ hagain =>
          rw [Nat.add_assoc] at hagain ⊢
          exact .missed (by omega) hagain

theorem Tries.of_allowed (htries : Tries threshold before limit outcome made)
    (hlimit : limit ≠ 0) :
    made = min limit (max 1 (threshold - before)) ∧
      outcome =
        if threshold ≤ before + limit then .value (max (before + 1) threshold)
        else .failed (attemptFailure (before + limit)) := by
  cases htries with
  | never => exact absurd rfl hlimit
  | reached _ henough => exact ⟨by omega, (if_pos henough).symm⟩
  | missed _ hmissed => exact ⟨by omega, (if_neg (Nat.not_le_of_lt hmissed)).symm⟩

theorem Tries.not_allowed (htries : Tries threshold before 0 outcome made) :
    made = 0 ∧ outcome = .skipped := by
  cases htries with
  | never => exact ⟨rfl, rfl⟩
  | reached hlimit _ => exact absurd hlimit (Nat.lt_irrefl 0)
  | missed hlimit _ => exact absurd hlimit (Nat.lt_irrefl 0)

theorem Tries.before_add_le (htries : Tries threshold before limit outcome made) :
    before + made ≤ max (before + 1) threshold := by
  cases htries <;> omega

end

theorem tries_attempt (threshold : Nat) (run : Run) :
    Tries threshold run.attempts 1 (Outcome.ofExcept (attempt threshold run).1) 1 := by
  by_cases hmissed : run.attempts + 1 < threshold
  · simp only [attempt, hmissed, if_true]
    exact .missed Nat.one_pos hmissed
  · have hvalue : max (run.attempts + 1) threshold = run.attempts + 1 := by omega
    have hmade : max 1 (threshold - run.attempts) = 1 := by omega
    have hreached : Tries threshold run.attempts 1 (.value (max (run.attempts + 1) threshold))
        (max 1 (threshold - run.attempts)) := .reached Nat.one_pos (by omega)
    rw [hvalue, hmade] at hreached
    simp only [attempt, hmissed, if_false]
    exact hreached

theorem attempts_attempt (threshold : Nat) (run : Run) :
    (attempt threshold run).2.attempts = run.attempts + 1 := by
  simp only [attempt]
  split <;> rfl

/-! ## One retry -/

/-- From one run to another, the action is called for at most `limit` attempts. -/
structure Retried (threshold limit : Nat) (run : Run) (outcome : Outcome Nat) (left : Run)
    (events : List (Event Run Nat)) : Prop where
  attempts : left.attempts = run.attempts + actionCalls events
  tries : Tries threshold run.attempts limit outcome (actionCalls events)

theorem Retried.append {threshold tried limit : Nat} {begun run left : Run}
    {last outcome : Outcome Nat} {before events : List (Event Run Nat)}
    (hfirst : Retried threshold tried begun last run before)
    (hlast : tried = 0 ∨ last.isFailed = true ∧ 0 < limit)
    (hsecond : Retried threshold limit run outcome left events) :
    Retried threshold (tried + limit) begun outcome left (before ++ events) where
  attempts := by
    rw [hsecond.attempts, hfirst.attempts, actionCalls_append, Nat.add_assoc]
  tries := by
    have htries := hsecond.tries
    rw [hfirst.attempts] at htries
    rw [actionCalls_append]
    exact hfirst.tries.append hlast htries

/-- A loop whose rounds make at most `limit` attempts each, after `tried` attempts. -/
theorem observe_loopFrom {again : Observation Run Nat} {start threshold limit : Nat}
    (hround : ∀ run, ∃ inner, again start run = some inner ∧
      Retried threshold limit run inner.answer inner.ctx inner.events)
    (rounds round : Nat) {tried : Nat} {begun run : Run} {last : Outcome Nat}
    {before : List (Event Run Nat)} (htried : Retried threshold tried begun last run before)
    (hlast : tried = 0 ∨ last.isFailed = true ∧ 0 < limit) :
    ∃ report : Report Run Nat (Except (Interrupt Nat) Unit), ∃ outcome,
      (Routine.loopFrom start tryAgain rounds round last run).observe again = some report ∧
        report.answer = .error (.abort outcome) ∧
          Retried threshold (tried + rounds * limit) begun outcome report.ctx
            (before ++ report.events) := by
  induction rounds generalizing round tried run last before with
  | zero => exact ⟨_, last, rfl, rfl, by simpa using htried⟩
  | succ rounds ih =>
      obtain ⟨inner, hinner, hretried⟩ := hround run
      have hreach : Retried threshold (tried + limit) begun inner.answer inner.ctx
          (before ++ inner.events) := htried.append hlast hretried
      rw [Routine.loopFrom, Routine.observe, hinner, Option.bind_some]
      cases hfailed : inner.answer.isFailed with
      | true =>
          -- What is noted between two rounds leaves the counter alone.
          have hnoted : Retried threshold (tried + limit) begun inner.answer
              (inner.ctx.note ("retry " ++ round.repr ++ " failed")) (before ++ inner.events) :=
            ⟨hreach.attempts, hreach.tries⟩
          obtain ⟨rest, outcome, hrest, hanswer, hwhole⟩ :=
            ih (round + 1) hnoted (.inr ⟨hfailed, hretried.tries.limit_pos hfailed⟩)
          refine ⟨{ rest with events := inner.events ++ rest.events }, outcome, ?_, hanswer, ?_⟩
          · simp [tryAgain, hfailed, hrest]
          · rw [Nat.succ_mul, Nat.add_comm (rounds * limit), ← Nat.add_assoc, ← List.append_assoc]
            exact hwhole
      | false =>
          refine ⟨⟨.error (.abort inner.answer), inner.ctx, inner.events⟩, inner.answer, ?_, rfl,
            hreach.attempts, hreach.tries.widen hfailed ?_ ?_⟩
          · simp [tryAgain, hfailed, Routine.observe]
          · rw [Nat.succ_mul]
            omega
          · intro hnone
            obtain ⟨rfl, rfl⟩ := Nat.add_eq_zero_iff.mp hnone
            simp

theorem retry_pre {header : Header} {told : PreCall} {position : Nat}
    (hposition : told.step.position? header.name = some position) (count : Nat) (run : Run) :
    (retry header count).pre told run =
      Routine.loopFrom (position + 1) tryAgain count 1 .skipped run := by
  simp [retry, Routine.loopAfter?, hposition]

section

variable {view : StepView} {again : Observation Run Nat} {applied rest : List (Modifier Run Nat)}
  {threshold : Nat}

theorem nest_retry {action : Action Run Nat} {header : Header} {position limit : Nat}
    (hposition : view.position? header.name = some position)
    (hround : ∀ run, ∃ inner, again (position + 1) run = some inner ∧
      Retried threshold limit run inner.answer inner.ctx inner.events)
    (count : Nat) (run : Run) :
    ∃ report, nest view action again applied (retry header count :: rest) run = some report ∧
      Retried threshold (count * limit) run report.answer report.ctx report.events := by
  let told := toldBefore view action applied rest
  have htold : told.step.position? header.name = some position := hposition
  have hnone : Retried threshold 0 run .skipped run [] := ⟨rfl, .never⟩
  obtain ⟨observed, outcome, hobserve, hanswer, hattempts, htries⟩ :=
    observe_loopFrom hround count 1 hnone (.inl rfl)
  have hpre : (retry header count).observePre again told run =
      some (observed.ofCall (.preCall (retry header count) told run)
        (.preReturn (retry header count))) := by
    rw [Modifier.observePre, retry_pre htold, hobserve, Option.map_some]
  refine ⟨_, nest_interrupted hpre hanswer, ?_⟩
  have hcalls : actionCalls (.preCall (retry header count) told run :: observed.events ++
      [.preReturn (retry header count) observed.answer observed.ctx]) =
        actionCalls observed.events := by
    simp [actionCalls, Event.isActionCall]
  rw [List.nil_append, ← hcalls] at hattempts htries
  rw [Nat.zero_add] at htries
  exact ⟨hattempts, htries⟩

theorem nest_attempt (header : Header) (run : Run) :
    ∃ report, nest view (flaky header threshold) again applied [] run = some report ∧
      Retried threshold 1 run report.answer report.ctx report.events :=
  ⟨_, nest_nil rfl, attempts_attempt threshold run, tries_attempt threshold run⟩

end

/-! ## Nested retries -/

/-- A flaky action with retries around it, the outermost first. -/
def retriedStep (action : Header) (threshold : Nat) (retries : List (Header × Nat))
    (metadata : μ) (address : Address) : Step Run Nat μ :=
  { action := flaky action threshold
    modifiers := retries.map fun (header, count) => retry header count
    metadata
    address }

/-- How many attempts nested retries allow. -/
def allowed (retries : List (Header × Nat)) : Nat :=
  (retries.map Prod.snd).prod

theorem allowed_eq_zero_iff {retries : List (Header × Nat)} :
    allowed retries = 0 ↔ ∃ retry ∈ retries, retry.2 = 0 := by
  simp [allowed, List.prod_eq_zero_iff]

section

variable (action : Header) (threshold : Nat) {retries : List (Header × Nat)} (metadata : μ)
  (address : Address)

theorem retriedStep_names (hnames : (retries.map fun retry => retry.1.name).Nodup) :
    (modifierNames (retriedStep action threshold retries metadata address).modifiers).Nodup := by
  simpa [retriedStep, modifierNames, Modifier.name, retry, Function.comp_def] using hnames

theorem nestWithin_retried (hnames : (retries.map fun retry => retry.1.name).Nodup)
    {depth : Nat} {outer inner : List (Header × Nat)} (hsplit : retries = outer ++ inner)
    (hdepth : inner.length < depth) (run : Run) :
    let step := retriedStep action threshold retries metadata address
    ∃ report,
      step.nestWithin depth step.action (step.modifiers.take outer.length)
          (step.modifiers.drop outer.length) run = some report ∧
        Retried threshold (allowed inner) run report.answer report.ctx report.events := by
  intro step
  induction depth generalizing outer inner run with
  | zero => omega
  | succ depth ih =>
      have hmodifiers : step.modifiers =
          (outer.map fun (header, count) => retry header count) ++
            inner.map fun (header, count) => retry header count := by
        simp [step, retriedStep, hsplit]
      rw [Step.nestWithin, hmodifiers, List.take_left' (by simp), List.drop_left' (by simp)]
      cases inner with
      | nil => exact nest_attempt action run
      | cons first rest =>
          obtain ⟨header, count⟩ := first
          have hposition : step.view.position? header.name = some outer.length := by
            have hdistinct : (modifierNames step.modifiers).Nodup :=
              retriedStep_names action threshold metadata address hnames
            have hfront := step.position?_of_split hdistinct hmodifiers
            simpa [Modifier.name, retry] using hfront
          have hround : ∀ run, ∃ inner,
              step.nestWithin depth step.action (step.modifiers.take (outer.length + 1))
                  (step.modifiers.drop (outer.length + 1)) run = some inner ∧
                Retried threshold (allowed rest) run inner.answer inner.ctx inner.events := by
            intro run
            have hlater : retries = (outer ++ [(header, count)]) ++ rest := by simpa using hsplit
            have hrest := ih hlater (Nat.lt_of_succ_lt_succ hdepth) run
            simpa using hrest
          have hallowed : allowed ((header, count) :: rest) = count * allowed rest := by
            simp [allowed]
          rw [hallowed]
          exact nest_retry hposition (by simpa only [hmodifiers] using hround) count run

end

/-- Nested retries make one attempt after the other, as many as the product of their counts
allows, up to the first one that reaches the threshold. With a count of zero there are none. -/
theorem call_retried (action : Header) (threshold : Nat) (retries : List (Header × Nat))
    (hnames : (retries.map fun retry => retry.1.name).Nodup) (metadata : μ) (address : Address)
    (run : Run) (log : List (Event Run Nat)) :
    let step := retriedStep action threshold retries metadata address
    let limit := allowed retries
    ∃ answer left events,
      step.call run = (answer, left) ∧
      step.recorded.call (run, log) = (answer, (left, log ++ events)) ∧
      left.attempts = run.attempts + actionCalls events ∧
      ((∃ retry ∈ retries, retry.2 = 0) → answer = .ok none ∧ actionCalls events = 0) ∧
      ((∀ retry ∈ retries, retry.2 ≠ 0) →
        actionCalls events = min limit (max 1 (threshold - run.attempts)) ∧
        answer =
          if threshold ≤ run.attempts + limit then .ok (some (max (run.attempts + 1) threshold))
          else
            .error
              { context := []
                root := .message ("attempt " ++ (run.attempts + limit).repr ++ " failed") }) ∧
      -- A counter of 32 bits is enough for all attempts.
      (threshold < 2 ^ 32 → run.attempts < 2 ^ 32 - 1 → left.attempts < 2 ^ 32) := by
  intro step limit
  have hdepth : retries.length < step.depth := by simp [Step.depth, step, retriedStep]
  have hsplit : retries = [] ++ retries := rfl
  obtain ⟨report, hnest, hattempts, htries⟩ :=
    nestWithin_retried action threshold metadata address hnames hsplit hdepth run
  obtain ⟨hcall, hrecorded⟩ := step.call_of_nestWithin hnest log
  refine ⟨_, _, _, hcall, hrecorded, hattempts, ?_, ?_, ?_⟩
  · intro hzero
    rw [allowed_eq_zero_iff.mpr hzero] at htries
    obtain ⟨hcalls, houtcome⟩ := htries.not_allowed
    exact ⟨by rw [houtcome]; rfl, hcalls⟩
  · intro hcounts
    have hsome : allowed retries ≠ 0 := by
      rw [Ne, allowed_eq_zero_iff]
      rintro ⟨retry, hretry, hzero⟩
      exact hcounts retry hretry hzero
    obtain ⟨hcalls, houtcome⟩ := htries.of_allowed hsome
    refine ⟨hcalls, ?_⟩
    rw [houtcome]
    split <;> rfl
  · intro hthreshold hbefore
    have hle := htries.before_add_le
    omega

/-- Two rounds of three attempts each. -/
def sixfoldRetries : List (Header × Nat) :=
  let header (name : String) : Header := ⟨name, (Address.root "steps.yaml").key name⟩
  [(header "outer", 2), (header "inner", 3)]

/-- A call after three attempts makes some more, and leaves their number in the counter. -/
def SixfoldRetried (threshold : Nat) (answer : Except Failure (Option Nat)) (calls : Nat) : Prop :=
  ∃ (left : Run) (events : List (Event Run Nat)),
    (retriedStep ⟨"flaky", Address.root "steps.yaml"⟩ threshold sixfoldRetries ()
        (Address.root "steps.yaml")).recorded.call ({ attempts := 3 }, []) =
      (answer, (left, events)) ∧
    actionCalls events = calls ∧ left.attempts = 3 + calls

theorem sixfoldRetries_call_retried :
    (sixfoldRetries.map fun retry => retry.1.name).Nodup ∧
      SixfoldRetried 8 (.ok (some 8)) 5 ∧
      SixfoldRetried 10 (.error { context := [], root := .message "attempt 9 failed" }) 6 := by
  have hnames : (sixfoldRetries.map fun retry => retry.1.name).Nodup := by decide +kernel
  have hcounts : ∀ retry ∈ sixfoldRetries, retry.2 ≠ 0 := by decide +kernel
  have hruns : ∀ threshold,
      SixfoldRetried threshold
        (if threshold ≤ 9 then .ok (some (max 4 threshold))
        else .error { context := [], root := .message ("attempt " ++ (9).repr ++ " failed") })
        (min 6 (max 1 (threshold - 3))) := by
    intro threshold
    obtain ⟨answer, left, events, -, hcall, hattempts, -, hretried, -⟩ :=
      call_retried ⟨"flaky", Address.root "steps.yaml"⟩ threshold sixfoldRetries hnames ()
        (Address.root "steps.yaml") { attempts := 3 } []
    obtain ⟨hcalls, rfl⟩ := hretried hcounts
    exact ⟨left, events, hcall, hcalls, by rw [hattempts, hcalls]; rfl⟩
  exact ⟨hnames, hruns 8, hruns 10⟩

end Attempts

end StepChain
