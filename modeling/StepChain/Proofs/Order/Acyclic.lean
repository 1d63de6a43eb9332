import StepChain.Proofs.Order.Components

/-!
# Contradictory hints

There is a cycle among the components of the constraints exactly when no order
honours all constraints, and then the depth-first order does not honour them
either. The strict policy therefore refuses just the hints that cannot be
honoured.
-/

namespace StepChain

open Relation

/-! ## Cycles -/

theorem leastNames?_eq_none_iff {lists : List (List String)} :
    leastNames? lists = none ↔ lists = [] := by
  cases lists <;> simp [leastNames?]

/-- A contradiction is found exactly when there is one, however components are listed. -/
theorem contradictionBy?_eq_none_iff {list : ComponentLister} {modifiers : HintMap}
    (hlists : ListsComponents (Precedes modifiers) modifiers.names
      (list (Constraints.ofHints modifiers))) :
    contradictionBy? list modifiers = none ↔
      ∀ name, ¬ TransGen (Precedes modifiers) name name := by
  have hcycle := hlists.exists_cycle_iff modifiers.names_nodup
    (fun hdirect => hdirect.first_mem) (fun name hdirect => hdirect.ne rfl)
  rw [contradictionBy?, leastNames?_eq_none_iff, cyclesAmong, List.map_eq_nil_iff,
    List.filter_eq_nil_iff, ← not_exists, ← hcycle]
  simp

/-! ## Orders that honour hints -/

/-- An order puts the two ends of every constraint in order. -/
def Honours (modifiers : HintMap) (order : List String) : Prop :=
  ∀ first second, Precedes modifiers first second → order.idxOf first < order.idxOf second

theorem idxOf_lt_of_chain {modifiers : HintMap} {order : List String} {first second : String}
    (hhonours : Honours modifiers order) (hchain : TransGen (Precedes modifiers) first second) :
    order.idxOf first < order.idxOf second := by
  induction hchain with
  | single hdirect => exact hhonours _ _ hdirect
  | tail _ hdirect ih => exact Nat.lt_trans ih (hhonours _ _ hdirect)

theorem acyclic_of_honours {modifiers : HintMap} {order : List String}
    (hhonours : Honours modifiers order) (name : String) :
    ¬ TransGen (Precedes modifiers) name name :=
  fun hcycle => Nat.lt_irrefl _ (idxOf_lt_of_chain hhonours hcycle)

theorem honours_of_acyclic {modifiers : HintMap}
    (hacyclic : ∀ name, ¬ TransGen (Precedes modifiers) name name) :
    Honours modifiers (applicationOrder modifiers) := by
  intro first second hdirect
  refine (honoured_or_cyclic hdirect).resolve_right ?_
  exact fun hback => hacyclic first (TransGen.head hdirect hback)

theorem acyclic_iff_honours (modifiers : HintMap) :
    (∀ name, ¬ TransGen (Precedes modifiers) name name) ↔
      Honours modifiers (applicationOrder modifiers) :=
  ⟨honours_of_acyclic, acyclic_of_honours⟩

namespace CyclePolicy

theorem orderBy_strict_eq_ok_iff {list : ComponentLister} {modifiers : HintMap}
    {names : List String} :
    strict.orderBy list modifiers = .ok names ↔
      contradictionBy? list modifiers = none ∧ applicationOrder modifiers = names := by
  unfold orderBy
  cases contradictionBy? list modifiers <;> simp

theorem order_eq_error_iff {policy : CyclePolicy} {modifiers : HintMap} {names : List String} :
    policy.order modifiers = .error names ↔
      policy = strict ∧ contradiction? modifiers = some names := by
  cases policy with
  | lenient => simp [order, orderBy]
  | strict =>
      unfold order orderBy contradiction?
      cases contradictionBy? Constraints.components modifiers <;> simp

theorem order_eq_ok_iff {policy : CyclePolicy} {modifiers : HintMap} {names : List String} :
    policy.order modifiers = .ok names ↔
      (policy = strict → ∀ name, ¬ TransGen (Precedes modifiers) name name) ∧
        applicationOrder modifiers = names := by
  have hacyclic := contradictionBy?_eq_none_iff (Constraints.lists_components modifiers)
  cases policy with
  | lenient => simp [order, orderBy]
  | strict => simp [order, orderBy_strict_eq_ok_iff, hacyclic]

/-- The strict policy accepts hints exactly when the lenient order honours them
all, which is when any order does; it then gives the lenient order. This does not
depend on how the strongly connected components are listed. -/
theorem strict_ok_iff_lenient_honours (modifiers : HintMap) (list : ComponentLister)
    (hlists : ListsComponents (Precedes modifiers) modifiers.names
      (list (Constraints.ofHints modifiers))) :
    ((∃ names, strict.orderBy list modifiers = .ok names) ↔
        Honours modifiers (applicationOrder modifiers)) ∧
      (Honours modifiers (applicationOrder modifiers) ↔
        ∃ names, names.Perm modifiers.names ∧ Honours modifiers names) ∧
      ∀ names, strict.orderBy list modifiers = .ok names →
        lenient.orderBy list modifiers = .ok names := by
  refine ⟨?_, ⟨?_, ?_⟩, ?_⟩
  · rw [← acyclic_iff_honours, ← contradictionBy?_eq_none_iff hlists]
    simp [orderBy_strict_eq_ok_iff]
  · exact fun hhonours => ⟨_, applicationOrder_perm modifiers, hhonours⟩
  · rintro ⟨names, -, hhonours⟩
    exact honours_of_acyclic (acyclic_of_honours hhonours)
  · intro names hstrict
    obtain ⟨-, horder⟩ := orderBy_strict_eq_ok_iff.mp hstrict
    rw [← horder]
    rfl

/-- Hints that can be honoured; one names an absent modifier, one its own. -/
def honourableHints : HintMap :=
  .ofList
    [("a", .declare [.after ["b"]]), ("b", .declare []),
      ("z", .declare [.before ["a", "ghost", "z"]])]

theorem honourableHints_order :
    ListsComponents (Precedes honourableHints) honourableHints.names
        (Constraints.ofHints honourableHints).components ∧
      strict.order honourableHints = .ok ["b", "z", "a"] ∧
      lenient.order honourableHints = .ok ["b", "z", "a"] := by
  have hlists := Constraints.lists_components honourableHints
  have hstrict : strict.orderBy Constraints.components honourableHints = .ok ["b", "z", "a"] := by
    cbv
  obtain ⟨-, -, hlenient⟩ :=
    strict_ok_iff_lenient_honours honourableHints Constraints.components hlists
  exact ⟨hlists, hstrict, hlenient _ hstrict⟩

end CyclePolicy

end StepChain
