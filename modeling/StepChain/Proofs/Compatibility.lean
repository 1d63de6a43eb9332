import StepChain.Compatibility

/-!
# Compatible modifiers

The modifiers of a step are accepted exactly when each of them allows the class of the
action, meets none that it prohibits and finds all that it requires. Otherwise the least
name at fault is reported, with all the names that it clashes with or misses.
-/

namespace StepChain

/-- A restriction names the class of an action as one that it allows. -/
def Restriction.Includes (restriction : Restriction) (actionClass : ActionClass) : Prop :=
  (actionClass = .lazy → restriction.lazy = true) ∧
    (actionClass = .eager → restriction.eager = true)

theorem Restriction.allows_iff_includes {restriction : Restriction} {actionClass : ActionClass} :
    restriction.allows actionClass = true ↔ restriction.Includes actionClass := by
  cases actionClass <;> simp [allows, Includes]

theorem Restriction.allows_eq_false_iff {restriction : Restriction} {actionClass : ActionClass} :
    restriction.allows actionClass = false ↔ ¬ restriction.Includes actionClass := by
  rw [← allows_iff_includes, Bool.not_eq_true]

/-- What one modifier asks of the action and of the present modifiers. -/
structure Hints.Satisfied (hints : Hints) (actionClass : ActionClass) (present : String → Prop) :
    Prop where
  allowed : hints.restriction.Includes actionClass
  apart : ∀ other ∈ hints.prohibited, ¬ present other
  together : ∀ other ∈ hints.required, present other

/-- The map has a value for a name. -/
def NameMap.Present {β : Type} (map : NameMap β) (name : String) : Prop :=
  ∃ value, map.get? name = some value

theorem NameMap.mem_nameSet_iff {β : Type} {map : NameMap β} {name : String} :
    name ∈ map.nameSet ↔ map.Present name :=
  mem_names_iff_get?

/-- Every present modifier is satisfied. -/
def Compatible (actionClass : ActionClass) (modifiers : NameMap Hints) : Prop :=
  ∀ name hints, modifiers.get? name = some hints →
    hints.Satisfied actionClass modifiers.Present

theorem Hints.problem?_eq_none_iff {hints : Hints} {name action : String}
    {actionClass : ActionClass} {modifiers : NameMap Hints} :
    hints.problem? name action actionClass modifiers.nameSet = none ↔
      hints.Satisfied actionClass modifiers.Present := by
  have hprohibited :
      (hints.prohibited.toList.filter (· ∈ modifiers.nameSet)).isEmpty = true ↔
        ∀ other ∈ hints.prohibited, ¬ modifiers.Present other := by
    simp [NameSet.mem_toList, NameMap.mem_nameSet_iff]
  have hrequired :
      (hints.required.toList.filter (· ∉ modifiers.nameSet)).isEmpty = true ↔
        ∀ other ∈ hints.required, modifiers.Present other := by
    simp [NameSet.mem_toList, NameMap.mem_nameSet_iff]
  have hnone : hints.problem? name action actionClass modifiers.nameSet = none ↔
      hints.restriction.allows actionClass = true ∧
        (hints.prohibited.toList.filter (· ∈ modifiers.nameSet)).isEmpty = true ∧
        (hints.required.toList.filter (· ∉ modifiers.nameSet)).isEmpty = true := by
    simp only [Hints.problem?]
    cases hints.restriction.allows actionClass <;>
      cases (hints.prohibited.toList.filter (· ∈ modifiers.nameSet)).isEmpty <;>
      cases (hints.required.toList.filter (· ∉ modifiers.nameSet)).isEmpty <;> simp
  rw [hnone, hprohibited, hrequired, Restriction.allows_iff_includes]
  exact ⟨fun ⟨hallowed, hapart, htogether⟩ => ⟨hallowed, hapart, htogether⟩,
    fun ⟨hallowed, hapart, htogether⟩ => ⟨hallowed, hapart, htogether⟩⟩

theorem compatibilityProblem?_eq_none_iff {action : String} {actionClass : ActionClass}
    {modifiers : NameMap Hints} :
    compatibilityProblem? action actionClass modifiers = none ↔
      Compatible actionClass modifiers := by
  simp only [compatibilityProblem?, List.findSome?_eq_none_iff, Hints.problem?_eq_none_iff,
    Compatible, ← NameMap.mem_entries_iff_get?, Prod.forall]

theorem checkCompatibility_eq_ok_iff {addr : Address} {action : String}
    {actionClass : ActionClass} {modifiers : NameMap Hints} :
    checkCompatibility addr action actionClass modifiers = .ok () ↔
      Compatible actionClass modifiers := by
  have hnone : compatibilityProblem? action actionClass modifiers = none ↔
      Compatible actionClass modifiers := compatibilityProblem?_eq_none_iff
  rw [← hnone]
  unfold checkCompatibility
  cases compatibilityProblem? action actionClass modifiers <;> simp

/-! ## The reported problem -/

/-- What is reported about one modifier, and under which code: the first of its hints that
is broken, in the order of the restriction, the prohibited and the required names, and all
the names that break it. -/
inductive Hints.Faults (hints : Hints) (name action : String) (actionClass : ActionClass)
    (present : String → Prop) : ErrorCode → (message : String) → Prop where
  | unsuitable (hrefused : ¬ hints.restriction.Includes actionClass) :
      Faults hints name action actionClass present 2001
        ("Modifier " ++ ("\"" ++ name ++ "\"") ++ " is incompatible with action " ++
          ("\"" ++ action ++ "\""))
  | clashing {names : List String} (hallowed : hints.restriction.Includes actionClass)
      (hsome : names ≠ []) (hascending : names.Pairwise (· < ·))
      (hmem : ∀ other, other ∈ names ↔ other ∈ hints.prohibited ∧ present other) :
      Faults hints name action actionClass present 2002
        ("Modifier " ++ ("\"" ++ name ++ "\"") ++ " cannot be used with modifier(s): " ++
          String.intercalate ", " (names.map fun other => "\"" ++ other ++ "\""))
  | missing {names : List String} (hallowed : hints.restriction.Includes actionClass)
      (hapart : ∀ other ∈ hints.prohibited, ¬ present other)
      (hsome : names ≠ []) (hascending : names.Pairwise (· < ·))
      (hmem : ∀ other, other ∈ names ↔ other ∈ hints.required ∧ ¬ present other) :
      Faults hints name action actionClass present 2003
        ("Modifier " ++ ("\"" ++ name ++ "\"") ++ " requires the use of modifier(s): " ++
          String.intercalate ", " (names.map fun other => "\"" ++ other ++ "\""))

section

variable {hints : Hints} {name action : String} {actionClass : ActionClass}
  {modifiers : NameMap Hints}

theorem Hints.Faults.exists_problem {code : ErrorCode} {message : String}
    (hfaults : hints.Faults name action actionClass modifiers.Present code message) :
    ∃ problem, hints.problem? name action actionClass modifiers.nameSet = some problem ∧
      problem.code = code ∧ problem.message = message := by
  cases hfaults with
  | unsuitable hrefused =>
      have hrefuses := Restriction.allows_eq_false_iff.mpr hrefused
      exact ⟨.unsuitableModifier name action, by simp [Hints.problem?, hrefuses], rfl, rfl⟩
  | @clashing names hallowed hsome hascending hmem =>
      have hallows := Restriction.allows_iff_includes.mpr hallowed
      have hlisted : hints.prohibited.toList.filter (· ∈ modifiers.nameSet) = names := by
        refine eq_of_ascending (hints.prohibited.ascending.filter _) hascending fun other => ?_
        simp [hmem, NameSet.mem_toList, NameMap.mem_nameSet_iff]
      exact ⟨.clashingModifiers name names, by simp [Hints.problem?, hallows, hlisted, hsome],
        rfl, rfl⟩
  | @missing names hallowed hapart hsome hascending hmem =>
      have hallows := Restriction.allows_iff_includes.mpr hallowed
      have hnone : hints.prohibited.toList.filter (· ∈ modifiers.nameSet) = [] := by
        simpa [NameSet.mem_toList, NameMap.mem_nameSet_iff] using hapart
      have hlisted : hints.required.toList.filter (· ∉ modifiers.nameSet) = names := by
        refine eq_of_ascending (hints.required.ascending.filter _) hascending fun other => ?_
        simp [hmem, NameSet.mem_toList, NameMap.mem_nameSet_iff]
      refine ⟨.missingModifiers name names, ?_, rfl, rfl⟩
      simp only [Hints.problem?, hallows, hnone, hlisted]
      simp [hsome]

/-- A modifier that is not satisfied is at fault in one of the three ways. -/
theorem Hints.satisfied_or_faults (hints : Hints) (name action : String)
    (actionClass : ActionClass) (modifiers : NameMap Hints) :
    hints.Satisfied actionClass modifiers.Present ∨
      ∃ code message, hints.Faults name action actionClass modifiers.Present code message := by
  by_cases hallowed : hints.restriction.Includes actionClass
  · by_cases hclash : hints.prohibited.toList.filter (· ∈ modifiers.nameSet) = []
    · have hapart : ∀ other ∈ hints.prohibited, ¬ modifiers.Present other := by
        simpa [NameSet.mem_toList, NameMap.mem_nameSet_iff] using hclash
      by_cases hmiss : hints.required.toList.filter (· ∉ modifiers.nameSet) = []
      · have htogether : ∀ other ∈ hints.required, modifiers.Present other := by
          simpa [NameSet.mem_toList, NameMap.mem_nameSet_iff] using hmiss
        exact Or.inl ⟨hallowed, hapart, htogether⟩
      · refine Or.inr ⟨_, _, .missing hallowed hapart hmiss
          (hints.required.ascending.filter _) fun other => ?_⟩
        simp [NameSet.mem_toList, NameMap.mem_nameSet_iff]
    · refine Or.inr ⟨_, _, .clashing hallowed hclash
        (hints.prohibited.ascending.filter _) fun other => ?_⟩
      simp [NameSet.mem_toList, NameMap.mem_nameSet_iff]
  · exact Or.inr ⟨_, _, .unsuitable hallowed⟩

theorem Hints.faults_of_problem? {problem : Problem}
    (hproblem : hints.problem? name action actionClass modifiers.nameSet = some problem) :
    hints.Faults name action actionClass modifiers.Present problem.code problem.message := by
  rcases hints.satisfied_or_faults name action actionClass modifiers with hsatisfied | hfaults
  · rw [Hints.problem?_eq_none_iff.mpr hsatisfied] at hproblem
    cases hproblem
  · obtain ⟨code, message, hfaults⟩ := hfaults
    obtain ⟨other, hother, rfl, rfl⟩ := hfaults.exists_problem
    obtain rfl : other = problem := Option.some.inj (hother.symm.trans hproblem)
    exact hfaults

end

theorem NameMap.lt_of_split {β : Type} {map : NameMap β} {front back : List (String × β)}
    {entry : String × β} (hsplit : map.entries = front ++ entry :: back) :
    (∀ earlier ∈ front, earlier.1 < entry.1) ∧ ∀ later ∈ back, entry.1 < later.1 := by
  have hascending := map.ascending
  rw [hsplit, List.map_append, List.map_cons] at hascending
  obtain ⟨-, hback, hfront⟩ := List.pairwise_append.mp hascending
  constructor
  · exact fun earlier hearlier =>
      hfront earlier.1 (List.mem_map_of_mem hearlier) entry.1 List.mem_cons_self
  · exact fun later hlater =>
      (List.pairwise_cons.mp hback).1 later.1 (List.mem_map_of_mem hlater)

/-- The least name whose modifier is not satisfied. -/
structure LeastUnsatisfied (actionClass : ActionClass) (modifiers : NameMap Hints)
    (name : String) (hints : Hints) : Prop where
  present : modifiers.get? name = some hints
  unsatisfied : ¬ hints.Satisfied actionClass modifiers.Present
  least : ∀ other others, modifiers.get? other = some others →
    ¬ others.Satisfied actionClass modifiers.Present → name ≤ other

/-- Modifiers are checked in ascending order, so that the first problem is about the least
name at fault. -/
theorem compatibilityProblem?_eq_some_iff {action : String} {actionClass : ActionClass}
    {modifiers : NameMap Hints} {problem : Problem} :
    compatibilityProblem? action actionClass modifiers = some problem ↔
      ∃ name hints, LeastUnsatisfied actionClass modifiers name hints ∧
        hints.problem? name action actionClass modifiers.nameSet = some problem := by
  rw [compatibilityProblem?, List.findSome?_eq_some_iff]
  constructor
  · rintro ⟨front, ⟨name, hints⟩, back, hsplit, hproblem, hfront⟩
    refine ⟨name, hints, ⟨?_, ?_, ?_⟩, hproblem⟩
    · rw [← NameMap.mem_entries_iff_get?, hsplit]
      simp
    · intro hsatisfied
      rw [Hints.problem?_eq_none_iff.mpr hsatisfied] at hproblem
      cases hproblem
    · intro other others hget hunsatisfied
      rw [← NameMap.mem_entries_iff_get?, hsplit] at hget
      rcases List.mem_append.mp hget with hearlier | hlater
      · exact absurd (Hints.problem?_eq_none_iff.mp (hfront _ hearlier)) hunsatisfied
      rcases List.mem_cons.mp hlater with heq | hlater
      · obtain ⟨rfl, -⟩ := Prod.mk.inj heq
        exact String.le_refl other
      · exact Std.le_of_lt ((NameMap.lt_of_split hsplit).2 _ hlater)
  · rintro ⟨name, hints, ⟨hpresent, -, hleast⟩, hproblem⟩
    obtain ⟨front, back, hsplit⟩ :=
      List.append_of_mem (NameMap.mem_entries_iff_get?.mpr hpresent)
    refine ⟨front, (name, hints), back, hsplit, hproblem, ?_⟩
    rintro ⟨other, others⟩ hearlier
    have hless : other < name := (NameMap.lt_of_split hsplit).1 _ hearlier
    have hget : modifiers.get? other = some others := by
      rw [← NameMap.mem_entries_iff_get?, hsplit]
      exact List.mem_append_left _ hearlier
    rw [Hints.problem?_eq_none_iff]
    by_cases hsatisfied : others.Satisfied actionClass modifiers.Present
    · exact hsatisfied
    · exact absurd hless (String.not_lt.mpr (hleast other others hget hsatisfied))

/-- Modifiers are accepted exactly when they are compatible. Otherwise the one error at the
address is about the least name at fault. -/
theorem checkCompatibility_reports_least (addr : Address) (action : String)
    (actionClass : ActionClass) (modifiers : NameMap Hints) :
    (checkCompatibility addr action actionClass modifiers = .ok () ↔
        Compatible actionClass modifiers) ∧
      ∀ error, checkCompatibility addr action actionClass modifiers = .error error ↔
        ∃ name hints code message, LeastUnsatisfied actionClass modifiers name hints ∧
          hints.Faults name action actionClass modifiers.Present code message ∧
          error = { code, message, address := some addr, causes := [] } := by
  refine ⟨checkCompatibility_eq_ok_iff, fun error => ?_⟩
  have hreport : checkCompatibility addr action actionClass modifiers = .error error ↔
      ∃ problem, compatibilityProblem? action actionClass modifiers = some problem ∧
        problem.foundAt addr = error := by
    unfold checkCompatibility
    cases compatibilityProblem? action actionClass modifiers <;> simp
  rw [hreport]
  constructor
  · rintro ⟨problem, hproblem, rfl⟩
    obtain ⟨name, hints, hleast, hproblem⟩ := compatibilityProblem?_eq_some_iff.mp hproblem
    exact ⟨name, hints, _, _, hleast, Hints.faults_of_problem? hproblem, rfl⟩
  · rintro ⟨name, hints, code, message, hleast, hfaults, rfl⟩
    obtain ⟨problem, hproblem, rfl, rfl⟩ := hfaults.exists_problem
    exact ⟨problem, compatibilityProblem?_eq_some_iff.mpr ⟨name, hints, hleast, hproblem⟩, rfl⟩

/-- Modifiers of an eager action are reported under a code and with a text, which is about the
least of them that is not satisfied. -/
def ReportedAs (modifiers : NameMap Hints) (code : ErrorCode) (message : String) : Prop :=
  let addr := Address.root "steps.yaml"
  checkCompatibility addr "run" .eager modifiers =
      .error { code, message, address := some addr, causes := [] } ∧
    ∃ name hints, LeastUnsatisfied .eager modifiers name hints ∧
      hints.Faults name "run" .eager modifiers.Present code message

/-- A modifier counts as present for itself: what prohibits its own name is always at fault,
also where it misses other names and a greater one breaks its restriction. -/
theorem selfProhibiting_reported :
    ReportedAs
        (.ofList
          [("b", .declare [.restriction .lazyOnly]),
            ("a", .declare [.required ["gone"], .prohibited ["b", "absent", "a"]])])
        2002 "Modifier \"a\" cannot be used with modifier(s): \"a\", \"b\"" ∧
      ReportedAs
        (.ofList
          [("b", .declare [.restriction .lazyOnly]),
            ("a", .declare [.required ["gone", "b", "away"], .prohibited ["absent"]])])
        2003 "Modifier \"a\" requires the use of modifier(s): \"away\", \"gone\"" ∧
      ReportedAs
        (.ofList
          [("c", .declare [.prohibited ["c"]]),
            ("b", .declare [.restriction .lazyOnly, .prohibited ["b"]]), ("a", {})])
        2001 "Modifier \"b\" is incompatible with action \"run\"" := by
  have hreported : ∀ modifiers code message,
      checkCompatibility (.root "steps.yaml") "run" .eager modifiers =
          .error { code, message, address := some (.root "steps.yaml"), causes := [] } →
        ReportedAs modifiers code message := by
    intro modifiers code message herror
    obtain ⟨-, hleast⟩ :=
      checkCompatibility_reports_least (.root "steps.yaml") "run" .eager modifiers
    obtain ⟨name, hints, found, text, hname, hfaults, heq⟩ := (hleast _).mp herror
    obtain ⟨rfl, rfl, -, -⟩ := StepError.mk.inj heq
    exact ⟨herror, name, hints, hname, hfaults⟩
  exact ⟨hreported _ _ _ rfl, hreported _ _ _ rfl, hreported _ _ _ rfl⟩

end StepChain
