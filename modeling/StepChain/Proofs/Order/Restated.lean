import StepChain.Order.Cycle
import StepChain.Proofs.Order.Precedence
import Mathlib

/-!
# Hints restated

The constraints that an ordering works with are exactly what the hints of the present
modifiers state. They do not tell which of two modifiers declares that one precedes the
other, nor what hints say about absent names or their own. Hints that state the same are
therefore ordered, found contradictory or refused alike.
-/

namespace StepChain

/-- Two maps of hints have the same modifiers, and put the same ones directly before
one another. -/
structure HintMap.Restates (left right : HintMap) : Prop where
  names : left.names = right.names
  precedes : ∀ first second, Precedes left first second ↔ Precedes right first second

namespace Constraints

/-- Hints restate others exactly when they amount to the same constraints. -/
theorem ofHints_eq_iff {left right : HintMap} :
    ofHints left = ofHints right ↔ left.Restates right := by
  constructor
  · intro heq
    have hnames : left.names = right.names := by
      rw [← names_ofHints, heq, names_ofHints]
    refine ⟨hnames, fun first second => ?_⟩
    rw [← mem_successors_ofHints, heq, mem_successors_ofHints]
  · rintro ⟨hnames, hprecedes⟩
    have hsame : (ofHints left).names = (ofHints right).names := by simpa using hnames
    refine NameMap.ext_of_get? fun name => ?_
    by_cases hpresent : name ∈ (ofHints left).names
    · obtain ⟨targets, htargets⟩ := NameMap.mem_names_iff_get?.mp hpresent
      obtain ⟨others, hothers⟩ := NameMap.mem_names_iff_get?.mp (hsame ▸ hpresent)
      have hequal : targets = others := by
        refine NameSet.ext_of_mem fun other => ?_
        rw [mem_of_get?_ofHints htargets, mem_of_get?_ofHints hothers, hprecedes]
      rw [htargets, hothers, hequal]
    · have habsent : name ∉ (ofHints right).names := hsame ▸ hpresent
      rw [NameMap.get?_eq_none_iff.mpr hpresent, NameMap.get?_eq_none_iff.mpr habsent]

end Constraints

section

variable {left right : HintMap} (hrestates : left.Restates right)

include hrestates

theorem applicationOrder_of_restates : applicationOrder left = applicationOrder right := by
  rw [applicationOrder, applicationOrder, Constraints.ofHints_eq_iff.mpr hrestates]

theorem contradictionBy?_of_restates (list : ComponentLister) :
    contradictionBy? list left = contradictionBy? list right := by
  rw [contradictionBy?, contradictionBy?, Constraints.ofHints_eq_iff.mpr hrestates]

theorem CyclePolicy.orderBy_of_restates (list : ComponentLister) (policy : CyclePolicy) :
    policy.orderBy list left = policy.orderBy list right := by
  have horder := applicationOrder_of_restates hrestates
  cases policy with
  | lenient => simp only [orderBy, horder]
  | strict => simp only [orderBy, horder, contradictionBy?_of_restates hrestates list]

end

/-- Constraints are kept for just the present modifiers, and one must precede another
exactly when the hints of either say so. So hints that restate others have the same order,
the same contradiction, however components are listed, and the same answer under each
policy. -/
theorem constraints_state_precedence (modifiers : HintMap) :
    (Constraints.ofHints modifiers).names = modifiers.names ∧
      (∀ first second,
        (∃ targets, (Constraints.ofHints modifiers).get? first = some targets ∧
            second ∈ targets) ↔
          Precedes modifiers first second) ∧
      ∀ other : HintMap, modifiers.Restates other →
        applicationOrder modifiers = applicationOrder other ∧
          ∀ list : ComponentLister,
            contradictionBy? list modifiers = contradictionBy? list other ∧
              ∀ policy : CyclePolicy,
                policy.orderBy list modifiers = policy.orderBy list other := by
  refine ⟨Constraints.names_ofHints modifiers, fun first second => ?_, fun other hrestates => ?_⟩
  · rw [← Constraints.mem_successors, Constraints.mem_successors_ofHints]
  · refine ⟨applicationOrder_of_restates hrestates, fun list => ?_⟩
    exact ⟨contradictionBy?_of_restates hrestates list,
      CyclePolicy.orderBy_of_restates hrestates list⟩

/-- Two modifiers that each precede the other, and one that follows the first. -/
def mutualHints : HintMap :=
  .ofList
    [("a", .declare [.before ["b", "c", "ghost"]]), ("b", .declare [.before ["a", "b"]]),
      ("c", .declare [])]

/-- The same, declared at the other ends. -/
def mutualHintsReversed : HintMap :=
  .ofList
    [("a", .declare [.after ["b"]]), ("b", .declare [.after ["a", "phantom"]]),
      ("c", .declare [.after ["a", "c"]])]

theorem mutualHints_restated :
    mutualHints.Restates mutualHintsReversed ∧
      applicationOrder mutualHintsReversed = ["b", "a", "c"] ∧
      contradiction? mutualHintsReversed = some ["a", "b"] ∧
      CyclePolicy.strict.order mutualHintsReversed = .error ["a", "b"] := by
  have hentries : (Constraints.ofHints mutualHints).entries =
      (Constraints.ofHints mutualHintsReversed).entries := by
    decide +kernel
  have hrestates : mutualHints.Restates mutualHintsReversed :=
    Constraints.ofHints_eq_iff.mp (NameMap.ext_of_perm (.of_eq hentries))
  have horder : applicationOrder mutualHints = ["b", "a", "c"] := by cbv
  have hcycle : contradictionBy? Constraints.components mutualHints = some ["a", "b"] := by cbv
  have hstrict : CyclePolicy.strict.orderBy Constraints.components mutualHints =
      .error ["a", "b"] := by
    cbv
  obtain ⟨-, -, halike⟩ := constraints_state_precedence mutualHints
  obtain ⟨hsameOrder, hlisted⟩ := halike mutualHintsReversed hrestates
  obtain ⟨hsameCycle, hsameAnswer⟩ := hlisted Constraints.components
  exact ⟨hrestates, hsameOrder.symm.trans horder, hsameCycle.symm.trans hcycle,
    (hsameAnswer .strict).symm.trans hstrict⟩

end StepChain
