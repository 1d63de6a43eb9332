import StepChain.Proofs.Order.DepthFirst

/-!
# The order as a recursion

The traversal keeps its open nodes on a stack. Here the order is defined as a recursion: a
visit of a node first visits those it must precede, then lists the node. The open nodes of
a traversal stand for the calls that the recursion is in, so that both list the same
names in the same order, also where constraints contradict each other.
-/

namespace StepChain

/-! ## Pools of names -/

namespace NameSet

/-- The set without one name. -/
def erase (names : NameSet) (name : String) : NameSet :=
  ⟨names.toList.filter (· ≠ name), names.ascending.filter _⟩

def size (names : NameSet) : Nat :=
  names.toList.length

def greatest? (names : NameSet) : Option String :=
  names.toList.getLast?

theorem size_erase_lt {names : NameSet} {name : String} (hmem : name ∈ names) :
    (names.erase name).size < names.size :=
  List.length_filter_lt_length_iff_exists.mpr ⟨name, hmem, by simp⟩

theorem greatest?_spec {names : NameSet} {name : String} (hgreatest : names.greatest? = some name) :
    name ∈ names ∧ ∀ other ∈ names, ¬ name < other := by
  obtain ⟨front, hfront⟩ := List.getLast?_eq_some_iff.mp hgreatest
  have hascending := names.ascending
  rw [hfront] at hascending
  have hless := (List.pairwise_append.mp hascending).2.2
  have hmem : ∀ other, other ∈ names ↔ other ∈ front ∨ other = name := by
    simp [← mem_toList, hfront]
  refine ⟨(hmem name).mpr (Or.inr rfl), fun other hother => ?_⟩
  rcases (hmem other).mp hother with hother | rfl
  · exact String.lt_asymm (hless other hother name List.mem_cons_self)
  · exact String.lt_irrefl other

end NameSet

namespace NameMap

variable {β : Type}

theorem erase_nameSet (map : NameMap β) (name : String) :
    map.nameSet.erase name = (map.erase name).nameSet := by
  simp [NameSet.erase, nameSet]

theorem greatest?_of_popLast? {map rest : NameMap β} {entry : String × β}
    (hpop : map.popLast? = some (entry, rest)) : map.nameSet.greatest? = some entry.1 := by
  have hnames : map.nameSet.toList = rest.names ++ [entry.1] := names_of_popLast? hpop
  rw [NameSet.greatest?, hnames]
  exact List.getLast?_concat

end NameMap

/-! ## The recursion -/

/-- The present modifiers that one must directly precede, in descending order. -/
def HintMap.followers (modifiers : HintMap) (name : String) : List String :=
  modifiers.names.reverse.filter fun other => Precedes modifiers name other

/-- How far the recursion has come. -/
structure Progress where
  /-- The names that no visit has taken yet. -/
  pool : NameSet
  /-- The names whose visits have ended, in this order. -/
  visited : List String

namespace Progress

def take (progress : Progress) (name : String) : Progress :=
  { progress with pool := progress.pool.erase name }

def append (progress : Progress) (name : String) : Progress :=
  { progress with visited := progress.visited ++ [name] }

end Progress

mutual

/-- Visit a name of the pool: take it, visit those that it must precede, append it. -/
def visit (modifiers : HintMap) (name : String) (progress : Progress)
    (hmem : name ∈ progress.pool) :
    { after : Progress // after.pool.size < progress.pool.size } :=
  have hless : (progress.take name).pool.size < progress.pool.size := NameSet.size_erase_lt hmem
  let inner := visitEach modifiers (modifiers.followers name) (progress.take name)
  ⟨inner.1.append name, Nat.lt_of_le_of_lt inner.2 hless⟩
termination_by (progress.pool.size, 0)

/-- Visit one name after the other, those that are still in the pool when it is their turn. -/
def visitEach (modifiers : HintMap) (names : List String) (progress : Progress) :
    { after : Progress // after.pool.size ≤ progress.pool.size } :=
  match names with
  | [] => ⟨progress, Nat.le_refl _⟩
  | name :: later =>
      if hmem : name ∈ progress.pool then
        let first := visit modifiers name progress hmem
        let rest := visitEach modifiers later first.1
        ⟨rest.1, Nat.le_trans rest.2 (Nat.le_of_lt first.2)⟩
      else visitEach modifiers later progress
termination_by (progress.pool.size, names.length)
decreasing_by
  · exact Prod.Lex.right _ (by simp)
  · exact Prod.Lex.left _ _ first.2
  · exact Prod.Lex.right _ (by simp)

end

/-- Visit the greatest name of the pool until the pool is empty, and list what was visited. -/
def visitAll (modifiers : HintMap) (progress : Progress) : List String :=
  match hgreatest : progress.pool.greatest? with
  | none => progress.visited
  | some name =>
      visitAll modifiers (visit modifiers name progress (NameSet.greatest?_spec hgreatest).1).1
termination_by progress.pool.size
decreasing_by exact (visit modifiers name progress _).2

/-- The names of the present modifiers, each in front of those that were visited before. -/
def recursiveOrder (modifiers : HintMap) : List String :=
  (visitAll modifiers { pool := modifiers.nameSet, visited := [] }).reverse

section

variable {modifiers : HintMap} {name : String} {later : List String} {progress : Progress}

theorem visit_eq (hmem : name ∈ progress.pool) :
    (visit modifiers name progress hmem).1 =
      (visitEach modifiers (modifiers.followers name) (progress.take name)).1.append name := by
  rw [visit]

theorem visitEach_nil : (visitEach modifiers [] progress).1 = progress := by
  rw [visitEach]

theorem visitEach_cons_of_mem (hmem : name ∈ progress.pool) :
    (visitEach modifiers (name :: later) progress).1 =
      (visitEach modifiers later (visit modifiers name progress hmem).1).1 := by
  rw [visitEach, dif_pos hmem]

theorem visitEach_cons_of_not_mem (hgone : name ∉ progress.pool) :
    (visitEach modifiers (name :: later) progress).1 =
      (visitEach modifiers later progress).1 := by
  rw [visitEach, dif_neg hgone]

theorem visitAll_of_empty (hempty : progress.pool.toList = []) :
    visitAll modifiers progress = progress.visited := by
  unfold visitAll
  split
  · rfl
  · rename_i name hgreatest
    have hmem := (NameSet.greatest?_spec hgreatest).1
    rw [← NameSet.mem_toList, hempty] at hmem
    exact absurd hmem List.not_mem_nil

theorem visitAll_of_greatest (hmem : name ∈ progress.pool)
    (hgreatest : progress.pool.greatest? = some name) :
    visitAll modifiers progress =
      visitAll modifiers (visit modifiers name progress hmem).1 := by
  rw [visitAll]
  split
  · rename_i hnone
    rw [hnone] at hgreatest
    cases hgreatest
  · rename_i other hother
    obtain rfl : other = name := Option.some.inj (hother.symm.trans hgreatest)
    rfl

end

/-! ## Successors in descending order -/

theorem Pool.get?_ofHints {modifiers : HintMap} {name : String} {successors : List String}
    (hget : (ofConstraints (Constraints.ofHints modifiers)).get? name = some successors) :
    successors = modifiers.followers name := by
  rw [ofConstraints, NameMap.get?_mapValues] at hget
  obtain ⟨targets, htargets, rfl⟩ := Option.map_eq_some_iff.mp hget
  rw [HintMap.followers, List.filter_reverse]
  refine congrArg List.reverse ?_
  refine eq_of_ascending targets.ascending (modifiers.names_ascending.filter _) fun other => ?_
  calc other ∈ targets.toList
      ↔ Precedes modifiers name other := Constraints.mem_of_get?_ofHints htargets
    _ ↔ other ∈ modifiers.names.filter fun other => Precedes modifiers name other := by
        rw [List.mem_filter, decide_eq_true_iff]
        exact ⟨fun h => ⟨h.second_mem, h⟩, fun h => h.2⟩

namespace Traversal

/-! ## Open nodes as pending calls -/

/-- The progress of the recursion with the pool and the finished nodes of a traversal. -/
def progress (pool : Pool) (finished : List String) : Progress :=
  { pool := pool.nameSet, visited := finished.reverse }

/-- The progress when the pending calls have returned: each visits the rest of its names
and then appends its node. -/
def returned (modifiers : HintMap) : List (String × List String) → Progress → Progress
  | [], progress => progress
  | (node, later) :: frames, progress =>
      returned modifiers frames ((visitEach modifiers later progress).1.append node)

/-- All that the recursion visits when it goes on from a moment of a traversal. -/
def outcome (modifiers : HintMap) (traversal : Traversal) : List String :=
  visitAll modifiers
    (returned modifiers traversal.stack (progress traversal.pool traversal.finished))

theorem take_progress (pool : Pool) (finished : List String) (name : String) :
    (progress pool finished).take name = progress (pool.erase name) finished := by
  simp [progress, Progress.take, NameMap.erase_nameSet]

theorem append_progress (pool : Pool) (finished : List String) (name : String) :
    (progress pool finished).append name = progress pool (name :: finished) := by
  simp [progress, Progress.append]

section

variable {modifiers : HintMap} {pool : Pool} {node next : String}
  {later successors finished : List String} {frames : List (String × List String)}

theorem outcome_root {rest : Pool} (hpop : pool.popLast? = some ((node, successors), rest))
    (hsuccessors : successors = modifiers.followers node) :
    outcome modifiers ⟨rest, [(node, successors)], finished⟩ =
      outcome modifiers ⟨pool, [], finished⟩ := by
  have hmem : node ∈ (progress pool finished).pool :=
    NameMap.mem_names_iff_get?.mpr ⟨successors, NameMap.get?_of_popLast? hpop⟩
  have hgreatest : (progress pool finished).pool.greatest? = some node :=
    NameMap.greatest?_of_popLast? hpop
  simp only [outcome, returned]
  rw [visitAll_of_greatest hmem hgreatest, visit_eq, take_progress,
    NameMap.erase_of_popLast? hpop, hsuccessors]

theorem outcome_finish :
    outcome modifiers ⟨pool, frames, node :: finished⟩ =
      outcome modifiers ⟨pool, (node, []) :: frames, finished⟩ := by
  simp only [outcome, returned, visitEach_nil, append_progress]

theorem outcome_skip (hgone : next ∉ pool.names) :
    outcome modifiers ⟨pool, (node, later) :: frames, finished⟩ =
      outcome modifiers ⟨pool, (node, next :: later) :: frames, finished⟩ := by
  have hgone : next ∉ (progress pool finished).pool := hgone
  simp only [outcome, returned]
  rw [visitEach_cons_of_not_mem hgone]

theorem outcome_descend (hget : pool.get? next = some successors)
    (hsuccessors : successors = modifiers.followers next) :
    outcome modifiers ⟨pool.erase next, (next, successors) :: (node, later) :: frames, finished⟩ =
      outcome modifiers ⟨pool, (node, next :: later) :: frames, finished⟩ := by
  have hmem : next ∈ (progress pool finished).pool :=
    NameMap.mem_names_iff_get?.mpr ⟨successors, hget⟩
  simp only [outcome, returned]
  rw [visitEach_cons_of_mem hmem, visit_eq, take_progress, hsuccessors]

end

/-- A moment of the traversal of some modifiers from which the recursion would go on to
visit what it visits in all. -/
structure Recurs (modifiers : HintMap) (traversal : Traversal) : Prop where
  follows : ∀ {node successors}, traversal.pool.get? node = some successors →
    successors = modifiers.followers node
  outcome_eq : outcome modifiers traversal =
    visitAll modifiers { pool := modifiers.nameSet, visited := [] }

theorem Recurs.start (modifiers : HintMap) :
    Recurs modifiers (start (Pool.ofConstraints (Constraints.ofHints modifiers))) where
  follows := Pool.get?_ofHints
  outcome_eq := by
    have hpool : (Pool.ofConstraints (Constraints.ofHints modifiers)).nameSet =
        modifiers.nameSet := by
      simp [NameMap.nameSet]
    simp only [outcome, Traversal.start, returned, progress, hpool, List.reverse_nil]

/-- A move changes how far the recursion is, not what it visits in all. -/
theorem Recurs.move {modifiers : HintMap} {before after : Traversal}
    (hmove : Move before after) (hrecurs : Recurs modifiers before) : Recurs modifiers after := by
  obtain ⟨hfollows, houtcome⟩ := hrecurs
  cases hmove with
  | root hpop =>
      exact ⟨fun hget => hfollows (NameMap.get?_of_get?_popLast? hpop hget),
        (outcome_root hpop (hfollows (NameMap.get?_of_popLast? hpop))).trans houtcome⟩
  | finish => exact ⟨hfollows, outcome_finish.trans houtcome⟩
  | skip hgone => exact ⟨hfollows, (outcome_skip hgone).trans houtcome⟩
  | descend hget =>
      exact ⟨fun hother => hfollows (NameMap.get?_of_get?_erase hother),
        (outcome_descend hget (hfollows hget)).trans houtcome⟩

end Traversal

/-- The traversal with a stack lists the modifiers in the order of the recursion. -/
theorem applicationOrder_eq_recursiveOrder (modifiers : HintMap) :
    applicationOrder modifiers = recursiveOrder modifiers := by
  obtain ⟨last, hrecurs, hstack, hpool, hrun⟩ :=
    Traversal.run_preserves Traversal.Recurs.move _ (Traversal.Recurs.start modifiers)
  have hlast : last.outcome modifiers = last.finished.reverse := by
    rw [Traversal.outcome, hstack]
    exact visitAll_of_empty hpool
  calc applicationOrder modifiers
      = last.finished := hrun
    _ = (last.outcome modifiers).reverse := by rw [hlast, List.reverse_reverse]
    _ = recursiveOrder modifiers := by rw [hrecurs.outcome_eq, recursiveOrder]

end StepChain
