import StepChain.Order.Constraints
import Mathlib.Logic.Relation

/-!
# What hints say about order

`Precedes` reads the hints of the present modifiers directly. The constraints
that an ordering works with say the same: no link is lost or added, whichever
of its two ends declares it.
-/

namespace StepChain

/-- The hints of two present modifiers put the first directly before the second:
the first declares it, or the second does. -/
structure Precedes (modifiers : HintMap) (first second : String) : Prop where
  first_mem : first ∈ modifiers.names
  second_mem : second ∈ modifiers.names
  ne : first ≠ second
  hinted :
    (∃ hints, modifiers.get? first = some hints ∧ second ∈ hints.before) ∨
      ∃ hints, modifiers.get? second = some hints ∧ first ∈ hints.after

namespace Constraints

/-! ## Single links -/

theorem mem_successors {constraints : Constraints} {first second : String} :
    second ∈ constraints.successors first ↔
      ∃ targets, constraints.get? first = some targets ∧ second ∈ targets := by
  unfold successors
  cases constraints.get? first <;> simp [NameSet.mem_toList]

@[simp] theorem names_link (constraints : Constraints) (first second : String) :
    (constraints.link first second).names = constraints.names := by
  unfold link
  split <;> simp

def Admits (constraints : Constraints) (first second : String) : Prop :=
  first ∈ constraints.names ∧ second ∈ constraints.names ∧ first ≠ second

theorem mem_successors_link {constraints : Constraints} {first second name other : String} :
    other ∈ (constraints.link first second).successors name ↔
      other ∈ constraints.successors name ∨
        (name = first ∧ other = second ∧ constraints.Admits first second) := by
  unfold link Admits
  split
  · rename_i hadmits
    have hadmitted : first ∈ constraints.names ∧ second ∈ constraints.names ∧ first ≠ second := by
      simpa [and_assoc] using hadmits
    obtain ⟨targets, htargets⟩ := NameMap.mem_names_iff_get?.mp hadmitted.1
    rw [mem_successors, mem_successors, NameMap.get?_adjust]
    by_cases hname : name = first
    · subst hname
      simp [htargets, hadmitted, or_comm]
    · simp [hname]
  · rename_i hrefused
    have hrefused' : ¬ (first ∈ constraints.names ∧ second ∈ constraints.names ∧
        first ≠ second) := by
      simpa [and_assoc] using hrefused
    simp [hrefused']

/-! ## All links -/

/-- The pairs of names that one modifier's hints mention, the first to precede
the second. -/
def hintedPairs (name : String) (hints : Hints) : List (String × String) :=
  hints.before.toList.map (fun other => (name, other)) ++
    hints.after.toList.map (fun other => (other, name))

def linkAll (constraints : Constraints) (pairs : List (String × String)) : Constraints :=
  pairs.foldl (fun acc pair => acc.link pair.1 pair.2) constraints

theorem names_linkAll (constraints : Constraints) (pairs : List (String × String)) :
    (constraints.linkAll pairs).names = constraints.names := by
  induction pairs generalizing constraints with
  | nil => rfl
  | cons pair rest ih => exact (ih (constraints.link pair.1 pair.2)).trans (names_link ..)

theorem mem_successors_linkAll {constraints : Constraints} {pairs : List (String × String)}
    {first second : String} :
    second ∈ (constraints.linkAll pairs).successors first ↔
      second ∈ constraints.successors first ∨
        ((first, second) ∈ pairs ∧ constraints.Admits first second) := by
  induction pairs generalizing constraints with
  | nil => simp [linkAll]
  | cons pair rest ih =>
      obtain ⟨left, right⟩ := pair
      have hstep : constraints.linkAll ((left, right) :: rest) =
          (constraints.link left right).linkAll rest := rfl
      rw [hstep, ih, mem_successors_link]
      simp only [Admits, names_link, List.mem_cons, Prod.mk.injEq]
      constructor
      · rintro ((hold | ⟨rfl, rfl, hadmits⟩) | ⟨hmem, hadmits⟩)
        · exact Or.inl hold
        · exact Or.inr ⟨Or.inl ⟨rfl, rfl⟩, hadmits⟩
        · exact Or.inr ⟨Or.inr hmem, hadmits⟩
      · rintro (hold | ⟨⟨rfl, rfl⟩ | hmem, hadmits⟩)
        · exact Or.inl (Or.inl hold)
        · exact Or.inl (Or.inr ⟨rfl, rfl, hadmits⟩)
        · exact Or.inr ⟨hmem, hadmits⟩

theorem addHints_eq_linkAll (constraints : Constraints) (name : String) (hints : Hints) :
    constraints.addHints name hints = constraints.linkAll (hintedPairs name hints) := by
  simp [addHints, linkAll, hintedPairs, List.foldl_append, List.foldl_map]

theorem ofHints_eq_linkAll (modifiers : HintMap) :
    ofHints modifiers =
      (free modifiers).linkAll
        (modifiers.entries.flatMap fun entry => hintedPairs entry.1 entry.2) := by
  simp only [ofHints, addHints_eq_linkAll, linkAll, List.foldl_flatMap]

@[simp] theorem names_ofHints (modifiers : HintMap) :
    (ofHints modifiers).names = modifiers.names := by
  rw [ofHints_eq_linkAll, names_linkAll]
  exact NameMap.names_mapValues ..

theorem successors_free (modifiers : HintMap) (name : String) :
    (free modifiers).successors name = [] := by
  unfold successors free
  rw [NameMap.get?_mapValues]
  cases modifiers.get? name <;> rfl

theorem mem_hintedPairs {modifiers : HintMap} {first second : String} :
    ((first, second) ∈ modifiers.entries.flatMap fun entry => hintedPairs entry.1 entry.2) ↔
      (∃ hints, modifiers.get? first = some hints ∧ second ∈ hints.before) ∨
        ∃ hints, modifiers.get? second = some hints ∧ first ∈ hints.after := by
  simp only [hintedPairs, List.mem_flatMap, List.mem_append, List.mem_map, Prod.mk.injEq,
    Prod.exists, NameMap.mem_entries_iff_get?, NameSet.mem_toList]
  constructor
  · rintro ⟨name, hints, hget, ⟨other, hmem, rfl, rfl⟩ | ⟨other, hmem, rfl, rfl⟩⟩
    · exact Or.inl ⟨hints, hget, hmem⟩
    · exact Or.inr ⟨hints, hget, hmem⟩
  · rintro (⟨hints, hget, hmem⟩ | ⟨hints, hget, hmem⟩)
    · exact ⟨first, hints, hget, Or.inl ⟨second, hmem, rfl, rfl⟩⟩
    · exact ⟨second, hints, hget, Or.inr ⟨first, hmem, rfl, rfl⟩⟩

/-- The constraints of some hints are those that the hints state. -/
theorem mem_successors_ofHints {modifiers : HintMap} {first second : String} :
    second ∈ (ofHints modifiers).successors first ↔ Precedes modifiers first second := by
  rw [ofHints_eq_linkAll, mem_successors_linkAll, successors_free, mem_hintedPairs]
  have hnames : (free modifiers).names = modifiers.names := NameMap.names_mapValues ..
  simp only [List.not_mem_nil, false_or, Admits, hnames]
  constructor
  · rintro ⟨hinted, hfirst, hsecond, hne⟩
    exact ⟨hfirst, hsecond, hne, hinted⟩
  · rintro ⟨hfirst, hsecond, hne, hinted⟩
    exact ⟨hinted, hfirst, hsecond, hne⟩

theorem mem_of_get?_ofHints {modifiers : HintMap} {name other : String} {targets : NameSet}
    (hget : (ofHints modifiers).get? name = some targets) :
    other ∈ targets ↔ Precedes modifiers name other := by
  rw [← mem_successors_ofHints, mem_successors]
  simp [hget]

end Constraints

instance (modifiers : HintMap) (first second : String) :
    Decidable (Precedes modifiers first second) :=
  decidable_of_iff _ Constraints.mem_successors_ofHints

end StepChain
