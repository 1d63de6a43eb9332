import StepChain.Order.Cycle
import StepChain.Proofs.Order.DepthFirst

/-!
# Components of constraints

Reachability is computed from the constraints alone, without an order, and finds
what chains of constraints lead to. Names that lead to each other are put in one
list. In any such listing a component of several names stands for a cycle.
-/

namespace StepChain

open Relation

/-! ## Reached nodes -/

namespace Pool

/-- A property that links hand on, and that the frontier has, is had by all that
is collected. -/
theorem collect_induction (property : String → Prop) {frontier found : List String} {pool : Pool}
    (hlink : ∀ {node successor}, pool.Leads node successor → property node → property successor)
    (hfrontier : ∀ node ∈ frontier, property node) (hfound : ∀ node ∈ found, property node) :
    ∀ node ∈ collect frontier pool found, property node := by
  fun_induction collect frontier pool found with
  | case1 pool found => exact hfound
  | case2 pool found node later hgone ih =>
      exact ih hlink (fun other hother => hfrontier other (List.mem_cons_of_mem _ hother)) hfound
  | case3 pool found node later successors rest hextract ih =>
      obtain ⟨hget, rfl⟩ := NameMap.extract?_eq_some_iff.mp hextract
      have hnode : property node := hfrontier node List.mem_cons_self
      refine ih ?_ ?_ ?_
      · rintro other successor ⟨others, hother, hmem⟩ hproperty
        exact hlink ⟨others, NameMap.get?_of_get?_erase hother, hmem⟩ hproperty
      · intro other hother
        rcases List.mem_append.mp hother with hmem | hmem
        · exact hlink ⟨successors, hget, hmem⟩ hnode
        · exact hfrontier other (List.mem_cons_of_mem _ hmem)
      · intro other hother
        rcases List.mem_cons.mp hother with rfl | hmem
        · exact hnode
        · exact hfound other hmem

/-- What is found and not yet followed up. Each node is in the pool or found, and
found nodes lead to found ones or into the frontier. -/
structure Pending (whole pool : Pool) (frontier found : List String) : Prop where
  places : ∀ node ∈ whole.names, node ∈ pool.names ∨ node ∈ found
  unreached : ∀ {node successors}, pool.get? node = some successors →
    whole.get? node = some successors
  followed : ∀ node ∈ found, ∀ successor, whole.Leads node successor →
    successor ∈ found ∨ successor ∈ frontier

section

variable {whole pool : Pool} {node : String} {later successors found : List String}

theorem Pending.skip (hclosed : whole.Closed) (hpending : Pending whole pool (node :: later) found)
    (hfound : node ∈ whole.names → node ∈ found) : Pending whole pool later found := by
  refine ⟨hpending.places, hpending.unreached, ?_⟩
  intro other hother successor hleads
  rcases hpending.followed other hother successor hleads with hmem | hmem
  · exact Or.inl hmem
  · rcases List.mem_cons.mp hmem with rfl | hmem
    · exact Or.inl (hfound (hclosed hleads))
    · exact Or.inr hmem

theorem Pending.follow (hpending : Pending whole pool (node :: later) found)
    (hget : pool.get? node = some successors) :
    Pending whole (pool.erase node) (successors ++ later) (node :: found) := by
  refine ⟨?_, ?_, ?_⟩
  · intro other hother
    by_cases heq : other = node
    · exact Or.inr (heq ▸ List.mem_cons_self)
    · rcases hpending.places other hother with hmem | hmem
      · exact Or.inl (by simpa [heq] using hmem)
      · exact Or.inr (List.mem_cons_of_mem _ hmem)
  · intro other others hother
    exact hpending.unreached (NameMap.get?_of_get?_erase hother)
  · intro other hother successor hleads
    rcases List.mem_cons.mp hother with rfl | hmem
    · obtain ⟨others, hwhole, hmem⟩ := hleads
      rw [hpending.unreached hget] at hwhole
      cases hwhole
      exact Or.inr (List.mem_append_left later hmem)
    · rcases hpending.followed other hmem successor hleads with hfound | hfrontier
      · exact Or.inl (List.mem_cons_of_mem _ hfound)
      · rcases List.mem_cons.mp hfrontier with rfl | hlater
        · exact Or.inl List.mem_cons_self
        · exact Or.inr (List.mem_append_right successors hlater)

end

/-- Everything that the frontier leads to is collected. -/
theorem collect_closed {whole pool : Pool} {frontier found : List String} (hclosed : whole.Closed)
    (hpending : Pending whole pool frontier found) :
    (∀ node ∈ found, node ∈ collect frontier pool found) ∧
      (∀ node ∈ frontier, node ∈ whole.names → node ∈ collect frontier pool found) ∧
      ∀ node ∈ collect frontier pool found, ∀ successor, whole.Leads node successor →
        successor ∈ collect frontier pool found := by
  fun_induction collect frontier pool found with
  | case1 pool found =>
      refine ⟨fun node hnode => hnode, fun node hnode => absurd hnode List.not_mem_nil, ?_⟩
      intro node hnode successor hleads
      exact (hpending.followed node hnode successor hleads).resolve_right List.not_mem_nil
  | case2 pool found node later hgone ih =>
      -- A node that is neither in the pool nor new was found before.
      have hfound : node ∈ whole.names → node ∈ found := fun hnode =>
        (hpending.places node hnode).resolve_left (NameMap.extract?_eq_none_iff.mp hgone)
      obtain ⟨hkept, hreached, hfollowed⟩ := ih (hpending.skip hclosed hfound)
      refine ⟨hkept, ?_, hfollowed⟩
      intro other hother hnode
      rcases List.mem_cons.mp hother with rfl | hmem
      · exact hkept other (hfound hnode)
      · exact hreached other hmem hnode
  | case3 pool found node later successors rest hextract ih =>
      obtain ⟨hget, rfl⟩ := NameMap.extract?_eq_some_iff.mp hextract
      obtain ⟨hkept, hreached, hfollowed⟩ := ih (hpending.follow hget)
      refine ⟨fun other hother => hkept other (List.mem_cons_of_mem _ hother), ?_, hfollowed⟩
      intro other hother hnode
      rcases List.mem_cons.mp hother with rfl | hmem
      · exact hkept other List.mem_cons_self
      · exact hreached other (List.mem_append_right successors hmem) hnode

end Pool

namespace Constraints

variable {constraints : Constraints}

theorem mem_reach_iff (hclosed : (Pool.ofConstraints constraints).Closed) {start name : String} :
    name ∈ constraints.reach start ↔
      TransGen (Pool.ofConstraints constraints).Leads start name := by
  have hpending : Pool.Pending (Pool.ofConstraints constraints) (Pool.ofConstraints constraints)
      (constraints.successors start) [] :=
    ⟨fun _ hnode => Or.inl hnode, fun hget => hget, fun _ hnode => absurd hnode List.not_mem_nil⟩
  obtain ⟨-, hreached, hfollowed⟩ := Pool.collect_closed hclosed hpending
  constructor
  · intro hmem
    refine Pool.collect_induction (TransGen (Pool.ofConstraints constraints).Leads start)
      ?_ ?_ ?_ name hmem
    · exact fun hlink hchain => TransGen.tail hchain hlink
    · exact fun node hnode => TransGen.single (Pool.leads_ofConstraints.mpr hnode)
    · exact fun node hnode => absurd hnode List.not_mem_nil
  · intro hchain
    induction hchain with
    | single hleads =>
        exact hreached _ (Pool.leads_ofConstraints.mp hleads) (hclosed hleads)
    | tail _ hleads ih => exact hfollowed _ ih _ hleads

end Constraints

/-! ## Components -/

/-- Two nodes lead to each other, or are the same. -/
def Connected (leads : String → String → Prop) (name other : String) : Prop :=
  ReflTransGen leads name other ∧ ReflTransGen leads other name

theorem connected_equivalence (leads : String → String → Prop) : Equivalence (Connected leads) where
  refl := fun _ => ⟨ReflTransGen.refl, ReflTransGen.refl⟩
  symm := fun h => ⟨h.2, h.1⟩
  trans := fun h h' => ⟨h.1.trans h'.1, h'.2.trans h.2⟩

/-- Some lists of nodes are the strongly connected components of a graph: each node
is in one of them, once, and shares it with the nodes that it is connected with. -/
structure ListsComponents (leads : String → String → Prop) (nodes : List String)
    (components : List (List String)) : Prop where
  places : components.flatten.Perm nodes
  together : ∀ component ∈ components, ∀ name ∈ component, ∀ other,
    other ∈ component ↔ Connected leads name other

section

variable {leads : String → String → Prop} {nodes component : List String}
  {components : List (List String)} {name : String}

theorem ListsComponents.nodup (hlists : ListsComponents leads nodes components)
    (hnodup : nodes.Nodup) (hcomponent : component ∈ components) : component.Nodup :=
  (List.nodup_flatten.mp (hlists.places.nodup_iff.mpr hnodup)).1 component hcomponent

theorem exists_ne_of_nodup {names : List String} (hnodup : names.Nodup)
    (hlength : 1 < names.length) (name : String) : ∃ other ∈ names, other ≠ name := by
  match names, hlength with
  | first :: second :: rest, _ =>
      by_cases heq : first = name
      · refine ⟨second, by simp, ?_⟩
        rintro rfl
        exact (List.nodup_cons.mp hnodup).1 (heq ▸ List.mem_cons_self)
      · exact ⟨first, List.mem_cons_self, heq⟩

theorem one_lt_length_of_ne {names : List String} {first second : String}
    (hfirst : first ∈ names) (hsecond : second ∈ names) (hne : first ≠ second) :
    1 < names.length := by
  match names with
  | [] => cases hfirst
  | [only] =>
      rw [List.mem_singleton] at hfirst hsecond
      exact absurd (hfirst.trans hsecond.symm) hne
  | _ :: _ :: rest => simp

/-- When no node leads to itself directly, the nodes on cycles are those of the components
of several nodes. -/
theorem ListsComponents.one_lt_length_iff (hlists : ListsComponents leads nodes components)
    (hnodup : nodes.Nodup) (hirrefl : ∀ name, ¬ leads name name)
    (hcomponent : component ∈ components) (hname : name ∈ component) :
    1 < component.length ↔ TransGen leads name name := by
  constructor
  · intro hlength
    obtain ⟨other, hother, hne⟩ :=
      exists_ne_of_nodup (hlists.nodup hnodup hcomponent) hlength name
    obtain ⟨hforth, hback⟩ := (hlists.together component hcomponent name hname other).mp hother
    have hchain : TransGen leads name other :=
      (reflTransGen_iff_eq_or_transGen.mp hforth).resolve_left hne
    exact hchain.trans_left hback
  · intro hcycle
    obtain ⟨next, hleads, hback⟩ := TransGen.head'_iff.mp hcycle
    have hnext : next ∈ component :=
      (hlists.together component hcomponent name hname next).mpr
        ⟨ReflTransGen.single hleads, hback⟩
    have hne : name ≠ next := by
      rintro rfl
      exact hirrefl name hleads
    exact one_lt_length_of_ne hname hnext hne

theorem ListsComponents.exists_component (hlists : ListsComponents leads nodes components)
    (hnodes : ∀ {first second}, leads first second → first ∈ nodes)
    (hcycle : TransGen leads name name) : ∃ component ∈ components, name ∈ component := by
  obtain ⟨next, hleads, -⟩ := TransGen.head'_iff.mp hcycle
  exact List.mem_flatten.mp (hlists.places.mem_iff.mpr (hnodes hleads))

theorem ListsComponents.exists_cycle_iff (hlists : ListsComponents leads nodes components)
    (hnodup : nodes.Nodup) (hnodes : ∀ {first second}, leads first second → first ∈ nodes)
    (hirrefl : ∀ name, ¬ leads name name) :
    (∃ component ∈ components, 1 < component.length) ↔ ∃ name, TransGen leads name name := by
  constructor
  · rintro ⟨component, hcomponent, hlength⟩
    have hmem : component[0] ∈ component := List.getElem_mem _
    exact ⟨_, (hlists.one_lt_length_iff hnodup hirrefl hcomponent hmem).mp hlength⟩
  · rintro ⟨name, hcycle⟩
    obtain ⟨component, hcomponent, hname⟩ := hlists.exists_component hnodes hcycle
    exact ⟨component, hcomponent,
      (hlists.one_lt_length_iff hnodup hirrefl hcomponent hname).mpr hcycle⟩

end

/-! ## Classes -/

theorem flatten_classes_perm (related : String → String → Bool) (names : List String) :
    (classes related names).flatten.Perm names := by
  fun_induction classes related names with
  | case1 => exact List.Perm.refl _
  | case2 name later ih =>
      rw [List.flatten_cons, List.cons_append]
      refine List.Perm.cons name ?_
      refine List.Perm.trans (List.Perm.append_left _ ih) ?_
      exact List.filter_append_perm (related name) later

section

variable {related : String → String → Bool} {equivalent : String → String → Prop}
  {first : String} {later : List String}

theorem mem_first_class_iff (hequivalence : Equivalence equivalent)
    (hrelated : ∀ other ∈ later, related first other = true ↔ equivalent first other) :
    ∀ other ∈ first :: later,
      other ∈ first :: later.filter (related first) ↔ equivalent first other := by
  intro other hother
  rw [List.mem_cons, List.mem_filter]
  constructor
  · rintro (rfl | ⟨hmem, htest⟩)
    · exact hequivalence.refl other
    · exact (hrelated other hmem).mp htest
  · intro hequivalent
    rcases List.mem_cons.mp hother with rfl | hmem
    · exact Or.inl rfl
    · exact Or.inr ⟨hmem, (hrelated other hmem).mpr hequivalent⟩

theorem mem_unrelated_iff
    (hrelated : ∀ other ∈ later, related first other = true ↔ equivalent first other)
    {other : String} :
    other ∈ unrelated related first later ↔ other ∈ later ∧ ¬ equivalent first other := by
  rw [unrelated, List.mem_filter]
  refine and_congr_right fun hmem => ?_
  rw [← hrelated other hmem]
  simp

end

/-- Grouped by a test for an equivalence, names are together when they are equivalent. -/
theorem mem_classes_iff (related : String → String → Bool) {equivalent : String → String → Prop}
    (hequivalence : Equivalence equivalent) {names : List String} (hnodup : names.Nodup)
    (hrelated : ∀ first ∈ names, ∀ second ∈ names, first ≠ second →
      (related first second = true ↔ equivalent first second)) :
    ∀ group ∈ classes related names, ∀ name ∈ group, ∀ other ∈ names,
      other ∈ group ↔ equivalent name other := by
  fun_induction classes related names with
  | case1 => exact fun group hgroup => absurd hgroup List.not_mem_nil
  | case2 first later ih =>
      obtain ⟨hfirst, hlater⟩ := List.nodup_cons.mp hnodup
      have htest : ∀ other ∈ later, related first other = true ↔ equivalent first other := by
        intro other hmem
        have hne : first ≠ other := fun heq => hfirst (heq ▸ hmem)
        exact hrelated first List.mem_cons_self other (List.mem_cons_of_mem _ hmem) hne
      have hsplit : ∀ {other}, other ∈ unrelated related first later ↔
          other ∈ later ∧ ¬ equivalent first other := mem_unrelated_iff htest
      have htail := ih (hlater.filter _) fun one hone two htwo hne =>
        hrelated one (List.mem_cons_of_mem _ (hsplit.mp hone).1) two
          (List.mem_cons_of_mem _ (hsplit.mp htwo).1) hne
      intro group hgroup name hname other hother
      rcases List.mem_cons.mp hgroup with rfl | hgroup
      · have hclass := mem_first_class_iff hequivalence htest
        have hmem : name ∈ first :: later := by
          rcases List.mem_cons.mp hname with rfl | hmem
          · exact List.mem_cons_self
          · exact List.mem_cons_of_mem _ (List.mem_filter.mp hmem).1
        have hequivalent : equivalent first name := (hclass name hmem).mp hname
        rw [hclass other hother]
        constructor
        · exact hequivalence.trans (hequivalence.symm hequivalent)
        · exact hequivalence.trans hequivalent
      · have hmember : ∀ {member}, member ∈ group → member ∈ unrelated related first later :=
          fun hmem => (flatten_classes_perm related _).mem_iff.mp
            (List.mem_flatten_of_mem hgroup hmem)
        constructor
        · intro hmem
          exact (htail group hgroup name hname other (hmember hmem)).mp hmem
        · intro hequivalent
          -- The other name cannot be in the first class, where its equivalents are.
          have hapart : ¬ equivalent first other := fun h =>
            (hsplit.mp (hmember hname)).2 (hequivalence.trans h (hequivalence.symm hequivalent))
          rcases List.mem_cons.mp hother with rfl | hmem
          · exact absurd (hequivalence.refl other) hapart
          · exact (htail group hgroup name hname other (hsplit.mpr ⟨hmem, hapart⟩)).mpr
              hequivalent

namespace Constraints

theorem mem_reachTable_iff {constraints : Constraints}
    (hclosed : (Pool.ofConstraints constraints).Closed) {first : String}
    (hfirst : first ∈ constraints.names) (second : String) :
    ((constraints.reachTable.get? first).getD []).contains second = true ↔
      TransGen (Pool.ofConstraints constraints).Leads first second := by
  obtain ⟨targets, hget⟩ := NameMap.mem_names_iff_get?.mp hfirst
  rw [reachTable, NameMap.get?_mapValues, hget, ← mem_reach_iff hclosed]
  simp

theorem lists_components (modifiers : HintMap) :
    ListsComponents (Precedes modifiers) modifiers.names (ofHints modifiers).components := by
  have hclosed : (Pool.ofConstraints (ofHints modifiers)).Closed := Pool.closed_ofHints modifiers
  have hplaces : (ofHints modifiers).components.flatten.Perm modifiers.names := by
    rw [← names_ofHints modifiers]
    exact flatten_classes_perm ..
  have htogether : ∀ component ∈ (ofHints modifiers).components, ∀ name ∈ component,
      ∀ other ∈ (ofHints modifiers).names,
        other ∈ component ↔ Connected (Precedes modifiers) name other := by
    refine mem_classes_iff _ (connected_equivalence _) (ofHints modifiers).names_nodup ?_
    intro first hfirst second hsecond hne
    rw [Bool.and_eq_true, mem_reachTable_iff hclosed hfirst, mem_reachTable_iff hclosed hsecond,
      Pool.leads_ofHints]
    simp [Connected, reflTransGen_iff_eq_or_transGen, hne, hne.symm]
  rw [names_ofHints] at htogether
  refine ⟨hplaces, ?_⟩
  intro component hcomponent name hname other
  have hmem : ∀ {member}, member ∈ component → member ∈ modifiers.names := fun hmember =>
    hplaces.mem_iff.mp (List.mem_flatten_of_mem hcomponent hmember)
  constructor
  · intro hother
    exact (htogether component hcomponent name hname other (hmem hother)).mp hother
  · intro hconnected
    have hother : other ∈ modifiers.names := by
      rcases hconnected.1.cases_tail with rfl | ⟨_, -, hlast⟩
      · exact hmem hname
      · exact hlast.second_mem
    exact (htogether component hcomponent name hname other hother).mpr hconnected

end Constraints

end StepChain
