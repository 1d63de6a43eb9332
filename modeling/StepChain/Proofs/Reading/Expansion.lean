import StepChain.Scripted.Dialect
import Mathlib

/-!
# Expansions

The value of an eager step is a document with a list of descriptions. Each of them is read
at its position below the step, and the first one that cannot be read is the failure of the
expansion.
-/

namespace StepChain.Scripted

variable {value : String} {addr : Address} {start : Nat} {item : Yaml} {items : List Yaml}
  {steps : List TextStep} {error : StepError} {failure : Failure}

/-- The step that a description in an expansion stands for. -/
def readIncluded (raw : Yaml) (addr : Address) : Except StepError TextStep :=
  vocabulary.readStep builtins.resolver .lenient raw addr

theorem expandItems_cons :
    expandItems addr start (item :: items) =
      (readIncluded item (addr.idx start)).bind fun step =>
        (expandItems addr (start + 1) items).map (step :: ·) := by
  rw [expandItems]
  unfold readIncluded
  cases vocabulary.readStep builtins.resolver .lenient item (addr.idx start) with
  | error error => rfl
  | ok step => cases expandItems addr (start + 1) items <;> rfl

theorem expandItems_cons_eq_ok_iff :
    expandItems addr start (item :: items) = .ok steps ↔
      ∃ step rest, readIncluded item (addr.idx start) = .ok step ∧
        expandItems addr (start + 1) items = .ok rest ∧ steps = step :: rest := by
  rw [expandItems_cons]
  cases readIncluded item (addr.idx start) with
  | error error => simp [Except.bind]
  | ok step =>
      cases expandItems addr (start + 1) items with
      | error error => simp [Except.bind, Except.map]
      | ok rest => simp [Except.bind, Except.map, eq_comm]

theorem expandItems_cons_eq_error_iff :
    expandItems addr start (item :: items) = .error error ↔
      readIncluded item (addr.idx start) = .error error ∨
        (∃ step, readIncluded item (addr.idx start) = .ok step) ∧
          expandItems addr (start + 1) items = .error error := by
  rw [expandItems_cons]
  cases readIncluded item (addr.idx start) with
  | error error => simp [Except.bind]
  | ok step => cases expandItems addr (start + 1) items <;> simp [Except.bind, Except.map]

theorem readIncluded_of_expandItems (hexpand : expandItems addr start items = .ok steps)
    {inner : Nat} {step : TextStep} (hstep : steps[inner]? = some step) :
    ∃ item, items[inner]? = some item ∧
      readIncluded item (addr.idx (start + inner)) = .ok step := by
  induction items generalizing start steps inner with
  | nil =>
      cases hexpand
      cases hstep
  | cons item rest ih =>
      obtain ⟨first, more, hfirst, hrest, rfl⟩ := expandItems_cons_eq_ok_iff.mp hexpand
      cases inner with
      | zero =>
          obtain rfl : first = step := by simpa using hstep
          exact ⟨item, rfl, hfirst⟩
      | succ inner =>
          have hlater := ih hrest (by simpa using hstep)
          rwa [Nat.add_right_comm, Nat.add_assoc] at hlater

/-- Some descriptions cannot all be read: the one at a position is the first that is at
fault. -/
structure FirstAtFault (addr : Address) (start : Nat) (items : List Yaml) (error : StepError)
    (inner : Nat) : Prop where
  fault : ∃ item, items[inner]? = some item ∧
    readIncluded item (addr.idx (start + inner)) = .error error
  earlier : ∀ {before item}, before < inner → items[before]? = some item →
    ∃ step, readIncluded item (addr.idx (start + before)) = .ok step

theorem firstAtFault_of_expandItems (hexpand : expandItems addr start items = .error error) :
    ∃ inner, FirstAtFault addr start items error inner := by
  induction items generalizing start with
  | nil => cases hexpand
  | cons item rest ih =>
      rcases expandItems_cons_eq_error_iff.mp hexpand with hfirst | ⟨hfirst, hrest⟩
      · exact ⟨0, ⟨item, rfl, hfirst⟩, fun hlt => absurd hlt (Nat.not_lt_zero _)⟩
      · obtain ⟨inner, ⟨last, hlast, hfault⟩, hearlier⟩ := ih hrest
        have hshift : ∀ position, start + (position + 1) = start + 1 + position := by omega
        refine ⟨inner + 1, ⟨last, by simpa using hlast, by rwa [hshift]⟩, ?_⟩
        intro before other hlt hother
        cases before with
        | zero =>
            obtain rfl : item = other := by simpa using hother
            exact hfirst
        | succ before =>
            rw [hshift]
            exact hearlier (by omega) (by simpa using hother)

theorem expand_eq_ok_iff :
    expand value addr = .ok steps ↔
      ∃ raw items, Yaml.ofText value = .ok raw ∧ raw.items? = some items ∧
        expandItems addr 0 items = .ok steps := by
  unfold expand
  cases Yaml.ofText value with
  | error fault => simp
  | ok raw =>
      cases hitems : raw.items? with
      | none => simp [hitems]
      | some items =>
          cases hexpand : expandItems addr 0 items <;> simp [hitems, hexpand, Except.mapError]

/-- An expansion reports a problem of a description only for one of its own. -/
theorem expandItems_of_expand_error (hexpand : expand value addr = .error failure)
    (hproblem : failure.stepError? = some error) :
    failure = .ofStepError error ∧
      ∃ raw items, Yaml.ofText value = .ok raw ∧ raw.items? = some items ∧
        expandItems addr 0 items = .error error := by
  unfold expand at hexpand
  cases htext : Yaml.ofText value with
  | error fault =>
      simp only [htext] at hexpand
      cases hexpand
      cases hproblem
  | ok raw =>
      cases hitems : raw.items? with
      | none =>
          simp only [htext, hitems] at hexpand
          cases hexpand
          cases hproblem
      | some items =>
          simp only [htext, hitems] at hexpand
          cases hsteps : expandItems addr 0 items with
          | ok steps => simp [hsteps, Except.mapError] at hexpand
          | error found =>
              simp only [hsteps, Except.mapError] at hexpand
              cases hexpand
              cases hproblem
              exact ⟨rfl, raw, items, rfl, hitems, hsteps⟩

end StepChain.Scripted
