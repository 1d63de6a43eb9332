import StepChain.Proofs.Order.Recursive

/-!
# Unrelated modifiers

A group of modifiers that no constraint leads into or out of is ordered as if it were
alone. A traversal of all modifiers, seen with the nodes of the group only, is a traversal
of the group: some of its moves are moves of the group, the others change nothing that
is seen.
-/

namespace StepChain

/-! ## Maps cut down to some names -/

namespace NameMap

variable {β : Type}

def restrict (map : NameMap β) (group : NameSet) : NameMap β :=
  ⟨map.entries.filter fun entry => entry.1 ∈ group,
    map.ascending.sublist (List.Sublist.map _ List.filter_sublist)⟩

/-- The entries of two maps; of two values for a name the second map's is kept. -/
def union (left right : NameMap β) : NameMap β :=
  ofList (left.entries ++ right.entries)

theorem names_restrict (map : NameMap β) (group : NameSet) :
    (map.restrict group).names = map.names.filter (· ∈ group) := by
  simp [names, restrict, List.filter_map, Function.comp_def]

theorem mem_names_restrict {map : NameMap β} {group : NameSet} {name : String} :
    name ∈ (map.restrict group).names ↔ name ∈ map.names ∧ name ∈ group := by
  simp [names_restrict]

theorem get?_restrict (map : NameMap β) (group : NameSet) (name : String) :
    (map.restrict group).get? name = if name ∈ group then map.get? name else none := by
  refine Option.ext fun value => ?_
  rw [← mem_entries_iff_get?]
  have hmem : (name, value) ∈ (map.restrict group).entries ↔
      map.get? name = some value ∧ name ∈ group := by
    simp [restrict, mem_entries_iff_get?]
  rw [hmem]
  by_cases hgroup : name ∈ group <;> simp [hgroup]

theorem get?_restrict_of_mem {map : NameMap β} {group : NameSet} {name : String}
    (hgroup : name ∈ group) : (map.restrict group).get? name = map.get? name := by
  rw [get?_restrict, if_pos hgroup]

theorem restrict_erase (map : NameMap β) (group : NameSet) (name : String) :
    (map.erase name).restrict group = (map.restrict group).erase name := by
  simp only [restrict, erase, List.filter_filter, Bool.and_comm]

theorem restrict_erase_of_not_mem {map : NameMap β} {group : NameSet} {name : String}
    (houtside : name ∉ group) : (map.erase name).restrict group = map.restrict group := by
  refine ext_of_get? fun other => ?_
  rw [get?_restrict, get?_restrict, get?_erase]
  by_cases hother : other = name
  · rw [hother, if_neg houtside, if_neg houtside]
  · rw [if_neg hother]

theorem restrict_of_popLast? {map rest : NameMap β} {entry : String × β} {group : NameSet}
    (hpop : map.popLast? = some (entry, rest)) (houtside : entry.1 ∉ group) :
    map.restrict group = rest.restrict group := by
  simp [restrict, entries_of_popLast? hpop, houtside]

theorem popLast?_restrict {map rest : NameMap β} {entry : String × β} {group : NameSet}
    (hpop : map.popLast? = some (entry, rest)) (hgroup : entry.1 ∈ group) :
    (map.restrict group).popLast? = some (entry, rest.restrict group) := by
  refine popLast?_of_entries ?_
  simp [restrict, entries_of_popLast? hpop, hgroup]

section

variable {left right : NameMap β} (hapart : ∀ name ∈ left.names, name ∉ right.names)

include hapart

theorem entries_union_perm :
    (left.union right).entries.Perm (left.entries ++ right.entries) := by
  refine entries_ofList_perm ?_
  rw [List.map_append]
  refine List.nodup_append.mpr ⟨left.names_nodup, right.names_nodup, ?_⟩
  rintro name hleft _ hright rfl
  exact hapart name hleft hright

theorem get?_union_eq_some_iff {name : String} {value : β} :
    (left.union right).get? name = some value ↔
      left.get? name = some value ∨ right.get? name = some value := by
  rw [← mem_entries_iff_get?, (entries_union_perm hapart).mem_iff, List.mem_append,
    mem_entries_iff_get?, mem_entries_iff_get?]

theorem mem_names_union {name : String} :
    name ∈ (left.union right).names ↔ name ∈ left.names ∨ name ∈ right.names := by
  simp only [mem_names_iff_get?, get?_union_eq_some_iff hapart, exists_or]

/-- Of two maps without common names the first is found again in their union. -/
theorem restrict_union :
    (left.union right).restrict left.nameSet = left := by
  refine ext_of_get? fun name => Option.ext fun value => ?_
  rw [get?_restrict]
  by_cases hleft : name ∈ left.names
  · have hright : right.get? name = none := get?_eq_none_iff.mpr (hapart name hleft)
    have hmem : name ∈ left.nameSet := hleft
    rw [if_pos hmem, get?_union_eq_some_iff hapart, hright]
    simp
  · have hmem : name ∉ left.nameSet := hleft
    rw [if_neg hmem, get?_eq_none_iff.mpr hleft]

end

end NameMap

/-! ## Constraints within a group -/

/-- The names of a group are constrained among themselves only, and so are the others. -/
def HintMap.Separates (modifiers : HintMap) (group : NameSet) : Prop :=
  ∀ first second, Precedes modifiers first second → (first ∈ group ↔ second ∈ group)

theorem precedes_restrict {modifiers : HintMap} {group : NameSet} {first second : String} :
    Precedes (modifiers.restrict group) first second ↔
      Precedes modifiers first second ∧ first ∈ group ∧ second ∈ group := by
  constructor
  · rintro ⟨hfirst, hsecond, hne, hinted⟩
    obtain ⟨hfirst, hingroup⟩ := NameMap.mem_names_restrict.mp hfirst
    obtain ⟨hsecond, hingroup'⟩ := NameMap.mem_names_restrict.mp hsecond
    rw [NameMap.get?_restrict_of_mem hingroup, NameMap.get?_restrict_of_mem hingroup'] at hinted
    exact ⟨⟨hfirst, hsecond, hne, hinted⟩, hingroup, hingroup'⟩
  · rintro ⟨⟨hfirst, hsecond, hne, hinted⟩, hingroup, hingroup'⟩
    refine ⟨NameMap.mem_names_restrict.mpr ⟨hfirst, hingroup⟩,
      NameMap.mem_names_restrict.mpr ⟨hsecond, hingroup'⟩, hne, ?_⟩
    rwa [NameMap.get?_restrict_of_mem hingroup, NameMap.get?_restrict_of_mem hingroup']

theorem followers_restrict {modifiers : HintMap} {group : NameSet}
    (hseparates : modifiers.Separates group) {name : String} (hname : name ∈ group) :
    HintMap.followers (modifiers.restrict group) name = modifiers.followers name := by
  have hsame : ∀ other ∈ modifiers.names.reverse,
      (decide (Precedes (modifiers.restrict group) name other) && decide (other ∈ group)) =
        decide (Precedes modifiers name other) := by
    intro other _
    refine Bool.eq_iff_iff.mpr ?_
    simp only [Bool.and_eq_true, decide_eq_true_eq, precedes_restrict]
    constructor
    · exact fun h => h.1.1
    · intro hdirect
      have hother : other ∈ group := (hseparates name other hdirect).mp hname
      exact ⟨⟨hdirect, hname, hother⟩, hother⟩
  simp only [HintMap.followers, NameMap.names_restrict, ← List.filter_reverse,
    List.filter_filter]
  exact List.filter_congr hsame

theorem Pool.get?_ofHints_eq_ite (modifiers : HintMap) (name : String) :
    (ofConstraints (Constraints.ofHints modifiers)).get? name =
      if name ∈ modifiers.names then some (modifiers.followers name) else none := by
  have hnames : (ofConstraints (Constraints.ofHints modifiers)).names = modifiers.names := by simp
  split
  · rename_i hpresent
    rw [← hnames] at hpresent
    obtain ⟨successors, hget⟩ := NameMap.mem_names_iff_get?.mp hpresent
    rw [hget, get?_ofHints hget]
  · rename_i habsent
    rw [← hnames] at habsent
    exact NameMap.get?_eq_none_iff.mpr habsent

/-- The nodes of a group have the same successors whether the others are there or not. -/
theorem Pool.restrict_ofHints {modifiers : HintMap} {group : NameSet}
    (hseparates : modifiers.Separates group) :
    NameMap.restrict (ofConstraints (Constraints.ofHints modifiers)) group =
      ofConstraints (Constraints.ofHints (modifiers.restrict group)) := by
  refine NameMap.ext_of_get? fun name => ?_
  rw [NameMap.get?_restrict, get?_ofHints_eq_ite, get?_ofHints_eq_ite]
  by_cases hgroup : name ∈ group
  · rw [if_pos hgroup, followers_restrict hseparates hgroup]
    simp [NameMap.mem_names_restrict, hgroup]
  · simp [NameMap.mem_names_restrict, hgroup]

namespace Traversal

/-! ## What is seen of a traversal -/

def restrict (group : NameSet) (traversal : Traversal) : Traversal where
  pool := traversal.pool.restrict group
  stack := traversal.stack.filter fun frame => frame.1 ∈ group
  finished := traversal.finished.filter (· ∈ group)

/-- No node of the group has a successor outside of it, nor the other way round. -/
structure Separated (group : NameSet) (traversal : Traversal) : Prop where
  unreached : ∀ node successors, traversal.pool.get? node = some successors →
    ∀ successor ∈ successors, (node ∈ group ↔ successor ∈ group)
  pending : ∀ frame ∈ traversal.stack, ∀ successor ∈ frame.2,
    (frame.1 ∈ group ↔ successor ∈ group)

/-- Going on to the next successor leaves the open nodes with fewer ones to visit. -/
theorem Separated.pending_next {group : NameSet} {pool : Pool} {node next : String}
    {later finished : List String} {frames : List (String × List String)}
    (hseparated : Separated group ⟨pool, (node, next :: later) :: frames, finished⟩) :
    ∀ frame ∈ (node, later) :: frames, ∀ successor ∈ frame.2,
      (frame.1 ∈ group ↔ successor ∈ group) := by
  intro frame hframe successor hmem
  rcases List.mem_cons.mp hframe with rfl | hframe
  · exact hseparated.pending (node, next :: later) List.mem_cons_self successor
      (List.mem_cons_of_mem next hmem)
  · exact hseparated.pending frame (List.mem_cons_of_mem _ hframe) successor hmem

theorem Separated.move {group : NameSet} {before after : Traversal} (hmove : Move before after)
    (hseparated : Separated group before) : Separated group after := by
  cases hmove with
  | root hpop =>
      refine ⟨fun other others hget => ?_, fun frame hframe => ?_⟩
      · exact hseparated.unreached other others (NameMap.get?_of_get?_popLast? hpop hget)
      · obtain rfl := List.mem_singleton.mp hframe
        exact hseparated.unreached _ _ (NameMap.get?_of_popLast? hpop)
  | finish =>
      exact ⟨hseparated.unreached,
        fun frame hframe => hseparated.pending frame (List.mem_cons_of_mem _ hframe)⟩
  | skip hgone => exact ⟨hseparated.unreached, hseparated.pending_next⟩
  | descend hget =>
      refine ⟨fun other others hother => ?_, fun frame hframe => ?_⟩
      · exact hseparated.unreached other others (NameMap.get?_of_get?_erase hother)
      · rcases List.mem_cons.mp hframe with rfl | hframe
        · exact hseparated.unreached _ _ hget
        · exact hseparated.pending_next frame hframe

/-- A move of a node in the group is seen as a move, another one is not seen. -/
theorem move_restrict {group : NameSet} {before after : Traversal} (hmove : Move before after)
    (hseparated : Separated group before) :
    restrict group before = restrict group after ∨
      Move (restrict group before) (restrict group after) := by
  cases hmove with
  | @root pool rest node successors finished hpop =>
      by_cases hnode : node ∈ group
      · right
        have hseen := NameMap.popLast?_restrict hpop hnode
        simpa [restrict, hnode] using Move.root hseen
      · left
        simp [restrict, hnode, NameMap.restrict_of_popLast? hpop hnode]
  | @finish pool node frames finished =>
      by_cases hnode : node ∈ group
      · right
        simpa [restrict, hnode] using Move.finish
      · left
        simp [restrict, hnode]
  | @skip pool node next later frames finished hgone =>
      by_cases hnode : node ∈ group
      · right
        have hunseen : next ∉ (pool.restrict group).names :=
          fun hmem => hgone (NameMap.mem_names_restrict.mp hmem).1
        simpa [restrict, hnode] using Move.skip hunseen
      · left
        simp [restrict, hnode]
  | @descend pool node next later successors frames finished hget =>
      have hsame : node ∈ group ↔ next ∈ group :=
        hseparated.pending (node, next :: later) List.mem_cons_self next List.mem_cons_self
      by_cases hnode : node ∈ group
      · right
        have hnext : next ∈ group := hsame.mp hnode
        have hseen : (pool.restrict group).get? next = some successors := by
          rw [NameMap.get?_restrict_of_mem hnext, hget]
        simpa [restrict, hnode, hnext, NameMap.restrict_erase] using Move.descend hseen
      · left
        have hnext : next ∉ group := fun hmem => hnode (hsame.mpr hmem)
        simp [restrict, hnode, hnext, NameMap.restrict_erase_of_not_mem hnext]

theorem run_restrict {group : NameSet} {traversal : Traversal}
    (hseparated : Separated group traversal) :
    (restrict group traversal).run = traversal.run.filter (· ∈ group) := by
  -- All moments of the traversal are seen as moments of one run.
  have hmove : ∀ {before after}, Move before after →
      (Separated group before ∧ (restrict group before).run = (restrict group traversal).run) →
        Separated group after ∧ (restrict group after).run = (restrict group traversal).run := by
    rintro before after hmove ⟨hbefore, hrun⟩
    refine ⟨hbefore.move hmove, ?_⟩
    rcases move_restrict hmove hbefore with hsame | hseen
    · rw [← hsame, hrun]
    · rw [← run_of_move hseen, hrun]
  obtain ⟨last, ⟨-, hlast⟩, hstack, hpool, hrun⟩ :=
    run_preserves hmove traversal ⟨hseparated, rfl⟩
  have hended : (restrict group last).run = (restrict group last).finished := by
    refine run_of_ended (by simp [restrict, hstack]) ?_
    simp [restrict, NameMap.names_restrict, hpool]
  calc (restrict group traversal).run
      = (restrict group last).run := hlast.symm
    _ = last.finished.filter (· ∈ group) := hended
    _ = traversal.run.filter (· ∈ group) := by rw [hrun]

end Traversal

/-! ## The order of a group -/

theorem separated_start {modifiers : HintMap} {group : NameSet}
    (hseparates : modifiers.Separates group) :
    Traversal.Separated group
      (Traversal.start (Pool.ofConstraints (Constraints.ofHints modifiers))) where
  unreached := by
    intro node successors hget successor hmem
    have hleads : Precedes modifiers node successor := by
      rw [← Pool.leads_ofHints]
      exact ⟨successors, hget, hmem⟩
    exact hseparates node successor hleads
  pending := fun _ hframe => absurd hframe List.not_mem_nil

/-- A group that no constraint crosses is ordered among other modifiers as it is alone. -/
theorem applicationOrder_restrict {modifiers : HintMap} {group : NameSet}
    (hseparates : modifiers.Separates group) :
    applicationOrder (modifiers.restrict group) =
      (applicationOrder modifiers).filter (· ∈ group) := by
  have hstart : Traversal.restrict group
      (Traversal.start (Pool.ofConstraints (Constraints.ofHints modifiers))) =
        Traversal.start (Pool.ofConstraints (Constraints.ofHints (modifiers.restrict group))) := by
    simp [Traversal.restrict, Traversal.start, Pool.restrict_ofHints hseparates]
  rw [applicationOrder, applicationOrder, ← hstart,
    Traversal.run_restrict (separated_start hseparates)]

/-! ## Two maps -/

/-- No hint of the first map names a modifier of the second. -/
def HintMap.Ignores (left right : HintMap) : Prop :=
  ∀ name hints, left.get? name = some hints →
    ∀ other ∈ right.names, other ∉ hints.before ∧ other ∉ hints.after

section

variable {left right : HintMap} (hapart : ∀ name ∈ left.names, name ∉ right.names)
  (hleft : left.Ignores right) (hright : right.Ignores left)

include hapart hleft hright

/-- A modifier of the union and one that its hints name are from the same map. -/
theorem mem_left_iff_of_hint {name other : String} {hints : Hints}
    (hget : (left.union right).get? name = some hints)
    (hother : other ∈ (left.union right).names)
    (hnamed : other ∈ hints.before ∨ other ∈ hints.after) :
    name ∈ left.names ↔ other ∈ left.names := by
  rcases (NameMap.get?_union_eq_some_iff hapart).mp hget with hget | hget
  · have hname : name ∈ left.names := NameMap.mem_names_iff_get?.mpr ⟨hints, hget⟩
    have hoff : other ∉ right.names := by
      intro hmem
      obtain ⟨hbefore, hafter⟩ := hleft name hints hget other hmem
      exact hnamed.elim hbefore hafter
    have hin : other ∈ left.names :=
      ((NameMap.mem_names_union hapart).mp hother).resolve_right hoff
    exact iff_of_true hname hin
  · have hname : name ∉ left.names := by
      intro hmem
      exact hapart name hmem (NameMap.mem_names_iff_get?.mpr ⟨hints, hget⟩)
    have hoff : other ∉ left.names := by
      intro hmem
      obtain ⟨hbefore, hafter⟩ := hright name hints hget other hmem
      exact hnamed.elim hbefore hafter
    exact iff_of_false hname hoff

theorem separates_union : HintMap.Separates (left.union right) left.nameSet := by
  rintro first second ⟨hfirst, hsecond, -, ⟨hints, hget, hmem⟩ | ⟨hints, hget, hmem⟩⟩
  · exact mem_left_iff_of_hint hapart hleft hright hget hsecond (Or.inl hmem)
  · exact (mem_left_iff_of_hint hapart hleft hright hget hfirst (Or.inr hmem)).symm

end

/-- Modifiers that no hint relates to others are ordered in a step with the others as they
are ordered without them, also where hints contradict each other. -/
theorem applicationOrder_union_filter (left right : HintMap)
    (hapart : ∀ name ∈ left.names, name ∉ right.names)
    (hleft : left.Ignores right) (hright : right.Ignores left) :
    (applicationOrder (left.union right)).filter (· ∈ left.names) = applicationOrder left := by
  have hseparates := separates_union hapart hleft hright
  have hgroup := applicationOrder_restrict hseparates
  rw [NameMap.restrict_union hapart] at hgroup
  exact hgroup.symm

/-- A cycle with a name that it leads to. -/
def ownCycle : HintMap :=
  .ofList
    [("a", .declare [.after ["e"]]), ("c", .declare [.before ["e"]]),
      ("e", .declare [.before ["c"]])]

/-- Another cycle, whose names stand between those of the first. -/
def otherCycle : HintMap :=
  .ofList
    [("b", .declare [.before ["d"]]), ("d", .declare [.before ["b"]]),
      ("f", .declare [.after ["b"], .before ["ghost"]])]

theorem ownCycle_beside_otherCycle :
    (∀ name ∈ ownCycle.names, name ∉ otherCycle.names) ∧
      ownCycle.Ignores otherCycle ∧ otherCycle.Ignores ownCycle ∧
      (applicationOrder (ownCycle.union otherCycle)).filter (· ∈ ownCycle.names) =
        ["e", "a", "c"] := by
  have hapart : ∀ name ∈ ownCycle.names, name ∉ otherCycle.names := by decide +kernel
  have hown : ∀ entry ∈ ownCycle.entries, ∀ other ∈ otherCycle.names,
      other ∉ entry.2.before ∧ other ∉ entry.2.after := by
    decide +kernel
  have hother : ∀ entry ∈ otherCycle.entries, ∀ other ∈ ownCycle.names,
      other ∉ entry.2.before ∧ other ∉ entry.2.after := by
    decide +kernel
  have hleft : ownCycle.Ignores otherCycle :=
    fun name hints hget => hown (name, hints) (NameMap.mem_entries_iff_get?.mpr hget)
  have hright : otherCycle.Ignores ownCycle :=
    fun name hints hget => hother (name, hints) (NameMap.mem_entries_iff_get?.mpr hget)
  have horder : applicationOrder ownCycle = ["e", "a", "c"] := by cbv
  refine ⟨hapart, hleft, hright, ?_⟩
  rw [applicationOrder_union_filter ownCycle otherCycle hapart hleft hright, horder]

end StepChain
