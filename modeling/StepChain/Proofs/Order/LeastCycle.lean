import StepChain.Proofs.Order.Acyclic

/-!
# The cycle that is reported

Of all strongly connected components with several names the least one is reported, each
of them listed in ascending order. Components share no names, so that this is the
component of the least name on any cycle, whatever the order in which they are found.
-/

namespace StepChain

open Relation

/-! ## The least of several lists -/

theorem leastNames?_spec {lists : List (List String)} {least : List String}
    (hleast : leastNames? lists = some least) :
    least ∈ lists ∧ ∀ names ∈ lists, ¬ names < least := by
  -- The least list so far varies; it only gets less.
  have hfold : ∀ (rest : List (List String)) (first : List String),
      let last := rest.foldl (fun least names => if names < least then names else least) first
      last ∈ first :: rest ∧ ∀ names ∈ first :: rest, ¬ names < last := by
    intro rest
    induction rest with
    | nil =>
        intro first
        refine ⟨List.mem_cons_self, fun names hnames => ?_⟩
        rw [List.mem_singleton.mp hnames]
        exact List.lt_irrefl first
    | cons next rest ih =>
        intro first
        rw [List.foldl_cons]
        by_cases hlt : next < first
        · rw [if_pos hlt]
          obtain ⟨hmem, hle⟩ := ih next
          refine ⟨List.mem_cons_of_mem first hmem, fun names hnames => ?_⟩
          rcases List.mem_cons.mp hnames with rfl | hnames
          · exact fun h => hle next List.mem_cons_self (List.lt_trans hlt h)
          · exact hle names hnames
        · rw [if_neg hlt]
          obtain ⟨hmem, hle⟩ := ih first
          refine ⟨?_, fun names hnames => ?_⟩
          · rcases List.mem_cons.mp hmem with hfirst | hrest
            · exact List.mem_cons.mpr (Or.inl hfirst)
            · exact List.mem_cons_of_mem _ (List.mem_cons_of_mem _ hrest)
          · rcases List.mem_cons.mp hnames with rfl | hnames
            · exact hle names List.mem_cons_self
            · rcases List.mem_cons.mp hnames with rfl | hrest
              · have hfirst := hle first List.mem_cons_self
                exact fun h => hfirst (List.lt_of_le_of_lt (List.not_lt.mp hlt) h)
              · exact hle names (List.mem_cons_of_mem _ hrest)
  cases lists with
  | nil => cases hleast
  | cons first rest =>
      obtain rfl := Option.some.inj hleast
      exact hfold rest first

theorem mergeSort_ascending {names : List String} (hnodup : names.Nodup) :
    (names.mergeSort (· ≤ ·)).Pairwise (· < ·) := by
  have hsorted : (names.mergeSort (· ≤ ·)).Pairwise (· ≤ ·) := by
    have h := @List.pairwise_mergeSort String (fun first second => decide (first ≤ second))
      (fun first second third hfirst hsecond => by
        simpa using String.le_trans (by simpa using hfirst) (by simpa using hsecond))
      (fun first second => by simpa using String.le_total first second) names
    simpa using h
  have hdistinct : (names.mergeSort (· ≤ ·)).Nodup :=
    (List.mergeSort_perm names _).nodup_iff.mpr hnodup
  exact hsorted.imp₂ (fun _ _ hle hne => Std.lt_of_le_of_ne hle hne) hdistinct

/-! ## Cycles among components -/

/-- Some names are a strongly connected component in ascending order, the one of the least
name that lies on any cycle. -/
structure LeastCycle (modifiers : HintMap) (names : List String) : Prop where
  ascending : names.Pairwise (· < ·)
  component : ∃ least, TransGen (Precedes modifiers) least least ∧
    (∀ name, TransGen (Precedes modifiers) name name → ¬ name < least) ∧
    ∀ name, name ∈ names ↔ Connected (Precedes modifiers) least name

/-- There is only one such list. -/
theorem LeastCycle.unique {modifiers : HintMap} {names others : List String}
    (hnames : LeastCycle modifiers names) (hothers : LeastCycle modifiers others) :
    names = others := by
  obtain ⟨hascending, least, hcycle, hleast, hmem⟩ := hnames
  obtain ⟨hascending', least', hcycle', hleast', hmem'⟩ := hothers
  have heq : least = least' :=
    String.le_antisymm (String.not_lt.mp (hleast least' hcycle'))
      (String.not_lt.mp (hleast' least hcycle))
  refine eq_of_ascending hascending hascending' fun name => ?_
  rw [hmem, hmem', heq]

section

variable {modifiers : HintMap} {components : List (List String)} {names : List String}

/-- What is listed of the components of hints: those of several names, sorted. -/
theorem mem_cyclesAmong_iff
    (hlists : ListsComponents (Precedes modifiers) modifiers.names components) :
    names ∈ cyclesAmong components ↔
      names.Pairwise (· < ·) ∧
        ∃ component ∈ components, 1 < component.length ∧ names.Perm component := by
  have hnodup : ∀ component ∈ components, component.Nodup := fun component hcomponent =>
    hlists.nodup modifiers.names_nodup hcomponent
  simp only [cyclesAmong, List.mem_map, List.mem_filter, decide_eq_true_eq]
  constructor
  · rintro ⟨component, ⟨hcomponent, hlength⟩, rfl⟩
    exact ⟨mergeSort_ascending (hnodup component hcomponent), component, hcomponent, hlength,
      List.mergeSort_perm ..⟩
  · rintro ⟨hascending, component, hcomponent, hlength, hperm⟩
    refine ⟨component, ⟨hcomponent, hlength⟩, ?_⟩
    refine eq_of_ascending (mergeSort_ascending (hnodup component hcomponent)) hascending ?_
    intro name
    rw [List.mem_mergeSort, hperm.mem_iff]

/-- Every name on a cycle stands in a list of its own component. -/
theorem exists_mem_cyclesAmong
    (hlists : ListsComponents (Precedes modifiers) modifiers.names components) {name : String}
    (hcycle : TransGen (Precedes modifiers) name name) :
    ∃ names ∈ cyclesAmong components, name ∈ names := by
  obtain ⟨component, hcomponent, hname⟩ :=
    hlists.exists_component (fun hdirect => hdirect.first_mem) hcycle
  have hlength : 1 < component.length :=
    (hlists.one_lt_length_iff modifiers.names_nodup (fun name hdirect => hdirect.ne rfl)
      hcomponent hname).mpr hcycle
  have hdistinct : component.Nodup := hlists.nodup modifiers.names_nodup hcomponent
  refine ⟨component.mergeSort (· ≤ ·), ?_, List.mem_mergeSort.mpr hname⟩
  exact (mem_cyclesAmong_iff hlists).mpr ⟨mergeSort_ascending hdistinct, component, hcomponent,
    hlength, List.mergeSort_perm ..⟩

/-- Lists that start with lesser names are less, so that the least list starts with the
least name on any cycle. -/
theorem leastCycle_of_least
    (hlists : ListsComponents (Precedes modifiers) modifiers.names components)
    (hmem : names ∈ cyclesAmong components)
    (hleast : ∀ others ∈ cyclesAmong components, ¬ others < names) :
    LeastCycle modifiers names := by
  obtain ⟨hascending, component, hcomponent, hlength, hperm⟩ :=
    (mem_cyclesAmong_iff hlists).mp hmem
  obtain ⟨least, later, rfl⟩ : ∃ least later, names = least :: later := by
    cases names with
    | nil => simp [← hperm.length_eq] at hlength
    | cons least later => exact ⟨least, later, rfl⟩
  have hin : least ∈ component := hperm.mem_iff.mp List.mem_cons_self
  refine ⟨hascending, least, ?_, ?_, ?_⟩
  · exact (hlists.one_lt_length_iff modifiers.names_nodup
      (fun name hdirect => hdirect.ne rfl) hcomponent hin).mp hlength
  · intro name hcycle hlt
    obtain ⟨others, hothers, hname⟩ := exists_mem_cyclesAmong hlists hcycle
    obtain ⟨hsorted, -⟩ := (mem_cyclesAmong_iff hlists).mp hothers
    match others, hothers, hname, hsorted with
    | first :: rest, hothers, hname, hsorted =>
        have hfirst : first < least := by
          rcases List.mem_cons.mp hname with rfl | hrest
          · exact hlt
          · exact String.lt_trans ((List.pairwise_cons.mp hsorted).1 name hrest) hlt
        exact hleast _ hothers (List.cons_lt_cons_iff.mpr (Or.inl hfirst))
  · intro name
    rw [hperm.mem_iff]
    exact hlists.together component hcomponent least hin name

end

/-! ## The reported cycle -/

/-- No cycle is reported exactly when there is none. What is reported else is the component
of the least name on any cycle, and the least of all components of several names. Neither
depends on how the strongly connected components are listed. -/
theorem contradictionBy?_least (modifiers : HintMap) (list : ComponentLister)
    (hlists : ListsComponents (Precedes modifiers) modifiers.names
      (list (Constraints.ofHints modifiers))) :
    (contradictionBy? list modifiers = none ↔
        ∀ name, ¬ TransGen (Precedes modifiers) name name) ∧
      (∀ names, contradictionBy? list modifiers = some names ↔ LeastCycle modifiers names) ∧
      ∀ names, contradictionBy? list modifiers = some names →
        (∃ component ∈ list (Constraints.ofHints modifiers),
          1 < component.length ∧ names.Perm component) ∧
        ∀ component ∈ list (Constraints.ofHints modifiers), 1 < component.length →
          ∀ sorted : List String, sorted.Perm component → sorted.Pairwise (· < ·) →
            ¬ sorted < names := by
  have hfound : ∀ names, contradictionBy? list modifiers = some names →
      names ∈ cyclesAmong (list (Constraints.ofHints modifiers)) ∧
        ∀ others ∈ cyclesAmong (list (Constraints.ofHints modifiers)), ¬ others < names :=
    fun names hnames => leastNames?_spec hnames
  have hleast : ∀ names, contradictionBy? list modifiers = some names →
      LeastCycle modifiers names := fun names hnames =>
    leastCycle_of_least hlists (hfound names hnames).1 (hfound names hnames).2
  refine ⟨contradictionBy?_eq_none_iff hlists, fun names => ⟨hleast names, ?_⟩, ?_⟩
  · intro hcycle
    cases hreport : contradictionBy? list modifiers with
    | none =>
        obtain ⟨least, honcycle, -⟩ := hcycle.component
        exact absurd honcycle ((contradictionBy?_eq_none_iff hlists).mp hreport least)
    | some others => rw [(hleast others hreport).unique hcycle]
  · intro names hnames
    obtain ⟨hmem, hless⟩ := hfound names hnames
    obtain ⟨-, component, hcomponent, hlength, hperm⟩ := (mem_cyclesAmong_iff hlists).mp hmem
    refine ⟨⟨component, hcomponent, hlength, hperm⟩, ?_⟩
    intro other hother hseveral sorted hsorted hascending
    exact hless sorted
      ((mem_cyclesAmong_iff hlists).mpr ⟨hascending, other, hother, hseveral, hsorted⟩)

/-- Two cycles that share a name, one that leads into them and one apart from them. -/
def tangledHints : HintMap :=
  .ofList
    [("a", .declare [.before ["b"]]), ("b", .declare [.before ["d"]]),
      ("c", .declare [.after ["d"], .before ["d"]]), ("d", .declare [.before ["b"]]),
      ("x", .declare [.before ["y"]]), ("y", .declare [.before ["x"]])]

theorem tangledHints_contradiction :
    ListsComponents (Precedes tangledHints) tangledHints.names
        (Constraints.ofHints tangledHints).components ∧
      contradiction? tangledHints = some ["b", "c", "d"] ∧
      LeastCycle tangledHints ["b", "c", "d"] ∧
      ¬ ["x", "y"] < ["b", "c", "d"] := by
  have hlists := Constraints.lists_components tangledHints
  have hreport : contradictionBy? Constraints.components tangledHints = some ["b", "c", "d"] := by
    cbv
  have hcomponents : (Constraints.ofHints tangledHints).components =
      [["a"], ["b", "c", "d"], ["x", "y"]] := by
    cbv
  obtain ⟨-, hleast, hless⟩ :=
    contradictionBy?_least tangledHints Constraints.components hlists
  obtain ⟨-, hothers⟩ := hless _ hreport
  refine ⟨hlists, hreport, (hleast _).mp hreport, ?_⟩
  exact hothers ["x", "y"] (by simp [hcomponents]) (by decide) _ (List.Perm.refl _) (by decide)

end StepChain
