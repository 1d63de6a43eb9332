import StepChain.Order.Traversal
import StepChain.Proofs.Order.Precedence
import Mathlib

/-!
# Depth-first order honours what it can

At every moment of a traversal each node is in one place, open nodes lie on a
path, and the constraints of a finished node lead to nodes finished before it
or back to it. When the traversal ends, only constraints on a cycle can be
violated.
-/

namespace StepChain

open Relation

/-! ## Pools as graphs -/

namespace Pool

/-- One node has another among its successors. -/
def Leads (pool : Pool) (node successor : String) : Prop :=
  ∃ successors, pool.get? node = some successors ∧ successor ∈ successors

/-- Successors are nodes. -/
def Closed (pool : Pool) : Prop :=
  ∀ {node successor}, pool.Leads node successor → successor ∈ pool.names

@[simp] theorem names_ofConstraints (constraints : Constraints) :
    (ofConstraints constraints).names = constraints.names :=
  NameMap.names_mapValues ..

theorem leads_ofConstraints {constraints : Constraints} {first second : String} :
    (ofConstraints constraints).Leads first second ↔ second ∈ constraints.successors first := by
  simp only [Leads, ofConstraints, NameMap.get?_mapValues, Constraints.mem_successors,
    Option.map_eq_some_iff]
  constructor
  · rintro ⟨_, ⟨targets, hget, rfl⟩, hmem⟩
    exact ⟨targets, hget, List.mem_reverse.mp hmem⟩
  · rintro ⟨targets, hget, hmem⟩
    exact ⟨_, ⟨targets, hget, rfl⟩, List.mem_reverse.mpr hmem⟩

theorem leads_ofHints (modifiers : HintMap) :
    (ofConstraints (Constraints.ofHints modifiers)).Leads = Precedes modifiers := by
  funext first second
  exact propext (leads_ofConstraints.trans Constraints.mem_successors_ofHints)

theorem closed_ofHints (modifiers : HintMap) :
    (ofConstraints (Constraints.ofHints modifiers)).Closed := by
  intro first second hleads
  rw [leads_ofHints] at hleads
  rw [names_ofConstraints, Constraints.names_ofHints]
  exact hleads.second_mem

end Pool

namespace Traversal

/-! ## Moves -/

/-- What one step of a traversal does. -/
inductive Move : Traversal → Traversal → Prop where
  | root {pool rest : Pool} {node : String} {successors finished : List String}
      (hpop : pool.popLast? = some ((node, successors), rest)) :
      Move ⟨pool, [], finished⟩ ⟨rest, [(node, successors)], finished⟩
  | finish {pool : Pool} {node : String} {frames : List (String × List String)}
      {finished : List String} :
      Move ⟨pool, (node, []) :: frames, finished⟩ ⟨pool, frames, node :: finished⟩
  | skip {pool : Pool} {node next : String} {later : List String}
      {frames : List (String × List String)} {finished : List String}
      (hgone : next ∉ pool.names) :
      Move ⟨pool, (node, next :: later) :: frames, finished⟩
        ⟨pool, (node, later) :: frames, finished⟩
  | descend {pool : Pool} {node next : String} {later successors : List String}
      {frames : List (String × List String)} {finished : List String}
      (hget : pool.get? next = some successors) :
      Move ⟨pool, (node, next :: later) :: frames, finished⟩
        ⟨pool.erase next, (next, successors) :: (node, later) :: frames, finished⟩

theorem move_of_step? {traversal next : Traversal} (hstep : traversal.step? = some next) :
    Move traversal next := by
  obtain ⟨pool, stack, finished⟩ := traversal
  match stack with
  | [] =>
      simp only [step?, Option.map_eq_some_iff] at hstep
      obtain ⟨⟨⟨node, successors⟩, rest⟩, hpop, rfl⟩ := hstep
      exact Move.root hpop
  | (node, []) :: frames =>
      simp only [step?, Option.some.injEq] at hstep
      subst hstep
      exact Move.finish
  | (node, name :: later) :: frames =>
      simp only [step?] at hstep
      split at hstep
      · rename_i hgone
        cases hstep
        exact Move.skip (NameMap.extract?_eq_none_iff.mp hgone)
      · rename_i successors rest hextract
        cases hstep
        obtain ⟨hget, rfl⟩ := NameMap.extract?_eq_some_iff.mp hextract
        exact Move.descend hget

theorem ended_of_step? {traversal : Traversal} (hstep : traversal.step? = none) :
    traversal.stack = [] ∧ traversal.pool.names = [] := by
  obtain ⟨pool, stack, finished⟩ := traversal
  match stack with
  | [] =>
      simp only [step?, Option.map_eq_none_iff] at hstep
      exact ⟨rfl, NameMap.popLast?_eq_none_iff.mp hstep⟩
  | (node, []) :: frames => simp [step?] at hstep
  | (node, name :: later) :: frames =>
      simp only [step?] at hstep
      split at hstep <;> exact absurd hstep (by simp)

theorem step?_of_move {before after : Traversal} (hmove : Move before after) :
    before.step? = some after := by
  cases hmove with
  | root hpop => simp [step?, hpop]
  | finish => rfl
  | skip hgone => simp [step?, NameMap.extract?_eq_none_iff.mpr hgone]
  | descend hget => simp [step?, NameMap.extract?_eq_some_iff.mpr ⟨hget, rfl⟩]

theorem run_of_move {before after : Traversal} (hmove : Move before after) :
    before.run = after.run := by
  rw [run]
  split
  · rename_i hstep
    rw [step?_of_move hmove] at hstep
    cases hstep
  · rename_i next hstep
    rw [step?_of_move hmove] at hstep
    rw [Option.some.inj hstep]

theorem run_of_ended {traversal : Traversal} (hstack : traversal.stack = [])
    (hpool : traversal.pool.names = []) : traversal.run = traversal.finished := by
  have hstep : traversal.step? = none := by
    simp [step?, hstack, NameMap.popLast?_eq_none_iff.mpr hpool]
  rw [run]
  split
  · rfl
  · rename_i next hnext
    rw [hstep] at hnext
    cases hnext

/-- What every move preserves holds of the end of a run. -/
theorem run_preserves {invariant : Traversal → Prop}
    (hmove : ∀ {before after}, Move before after → invariant before → invariant after)
    (traversal : Traversal) (hstart : invariant traversal) :
    ∃ last, invariant last ∧ last.stack = [] ∧ last.pool.names = [] ∧
      traversal.run = last.finished := by
  fun_induction Traversal.run traversal with
  | case1 traversal hstep =>
      obtain ⟨hstack, hpool⟩ := ended_of_step? hstep
      exact ⟨traversal, hstart, hstack, hpool, rfl⟩
  | case2 traversal next hstep ih => exact ih (hmove (move_of_step? hstep) hstart)

/-! ## The invariant -/

/-- What holds at every moment of a traversal of a whole pool. -/
structure Sound (whole : Pool) (traversal : Traversal) : Prop where
  /-- Every node is finished, open or unreached, and only one of these. -/
  places : (traversal.finished ++ (traversal.stack.map Prod.fst ++ traversal.pool.names)).Perm
    whole.names
  unreached : ∀ {node successors}, traversal.pool.get? node = some successors →
    whole.get? node = some successors
  /-- The successors that an open node is done with have been reached. -/
  visited : ∀ frame ∈ traversal.stack, ∃ done, whole.get? frame.1 = some (done ++ frame.2) ∧
    ∀ successor ∈ done, successor ∉ traversal.pool.names
  /-- The open nodes lie on a path to the innermost one. -/
  path : traversal.stack.Pairwise fun inner outer => TransGen whole.Leads outer.1 inner.1
  /-- The successors of a finished node were finished before it or lead back to it. -/
  settled : ∀ {node earlier}, node :: earlier <:+ traversal.finished →
    ∀ {successor}, whole.Leads node successor →
      successor ∈ earlier ∨ TransGen whole.Leads successor node

theorem Sound.start (whole : Pool) : Sound whole (start whole) where
  places := List.Perm.refl _
  unreached := fun hget => hget
  visited := fun _ hframe => absurd hframe List.not_mem_nil
  path := List.Pairwise.nil
  settled := fun hsuffix => absurd (List.suffix_nil.mp hsuffix) (List.cons_ne_nil _ _)

/-- A successor of a node that is about to be finished is finished already, or
is open and therefore leads to the node. -/
theorem Sound.settled_of_finish {whole pool : Pool} {node successor : String}
    {frames : List (String × List String)} {finished : List String} (hclosed : whole.Closed)
    (hsound : Sound whole ⟨pool, (node, []) :: frames, finished⟩)
    (hleads : whole.Leads node successor) :
    successor ∈ finished ∨ TransGen whole.Leads successor node := by
  have hplace : successor ∈ finished ++ (((node, []) :: frames).map Prod.fst ++ pool.names) :=
    hsound.places.mem_iff.mpr (hclosed hleads)
  have hreached : successor ∉ pool.names := by
    obtain ⟨done, hdone, hgone⟩ := hsound.visited (node, []) List.mem_cons_self
    obtain ⟨successors, hget, hmem⟩ := hleads
    rw [hget, List.append_nil] at hdone
    cases hdone
    exact hgone successor hmem
  rcases List.mem_append.mp hplace with hfinished | hopen
  · exact Or.inl hfinished
  · right
    rcases List.mem_append.mp hopen with hopen | hpool
    · rcases List.mem_cons.mp hopen with rfl | houter
      · exact TransGen.single hleads
      · obtain ⟨frame, hframe, rfl⟩ := List.mem_map.mp houter
        exact (List.pairwise_cons.mp hsound.path).1 frame hframe
    · exact absurd hpool hreached

section

variable {whole pool : Pool} {node next : String} {later successors finished : List String}
  {frames : List (String × List String)}

theorem Sound.root {rest : Pool} (hsound : Sound whole ⟨pool, [], finished⟩)
    (hpop : pool.popLast? = some ((node, successors), rest)) :
    Sound whole ⟨rest, [(node, successors)], finished⟩ := by
  refine ⟨?_, ?_, ?_, List.pairwise_singleton .., hsound.settled⟩
  · have hplaces := hsound.places
    rw [NameMap.names_of_popLast? hpop] at hplaces
    refine List.Perm.trans (List.Perm.append_left finished ?_) hplaces
    exact List.perm_append_comm
  · intro other others hget
    exact hsound.unreached (NameMap.get?_of_get?_popLast? hpop hget)
  · intro frame hframe
    obtain rfl := List.mem_singleton.mp hframe
    exact ⟨[], hsound.unreached (NameMap.get?_of_popLast? hpop), by simp⟩

theorem Sound.finish (hclosed : whole.Closed)
    (hsound : Sound whole ⟨pool, (node, []) :: frames, finished⟩) :
    Sound whole ⟨pool, frames, node :: finished⟩ := by
  refine ⟨?_, hsound.unreached, ?_, (List.pairwise_cons.mp hsound.path).2, ?_⟩
  · exact List.Perm.trans List.perm_middle.symm hsound.places
  · intro frame hframe
    exact hsound.visited frame (List.mem_cons_of_mem _ hframe)
  · intro other earlier hsuffix successor hleads
    rcases List.suffix_cons_iff.mp hsuffix with heq | hsuffix
    · obtain ⟨rfl, rfl⟩ := List.cons_eq_cons.mp heq
      exact hsound.settled_of_finish hclosed hleads
    · exact hsound.settled hsuffix hleads

/-- Once its next successor has left the pool, the innermost node is done with it. -/
theorem Sound.visited_next {less : Pool}
    (hsound : Sound whole ⟨pool, (node, next :: later) :: frames, finished⟩)
    (hless : ∀ {other}, other ∈ less.names → other ∈ pool.names) (hnext : next ∉ less.names) :
    ∀ frame ∈ (node, later) :: frames, ∃ done, whole.get? frame.1 = some (done ++ frame.2) ∧
      ∀ successor ∈ done, successor ∉ less.names := by
  intro frame hframe
  rcases List.mem_cons.mp hframe with rfl | hframe
  · obtain ⟨done, hget, hdone⟩ := hsound.visited (node, next :: later) List.mem_cons_self
    refine ⟨done ++ [next], by simpa using hget, ?_⟩
    intro successor hmem hpool
    rcases List.mem_append.mp hmem with hmem | hmem
    · exact hdone successor hmem (hless hpool)
    · exact hnext (List.mem_singleton.mp hmem ▸ hpool)
  · obtain ⟨done, hget, hdone⟩ := hsound.visited frame (List.mem_cons_of_mem _ hframe)
    exact ⟨done, hget, fun successor hmem hpool => hdone successor hmem (hless hpool)⟩

theorem Sound.skip (hsound : Sound whole ⟨pool, (node, next :: later) :: frames, finished⟩)
    (hgone : next ∉ pool.names) : Sound whole ⟨pool, (node, later) :: frames, finished⟩ :=
  ⟨hsound.places, hsound.unreached, hsound.visited_next id hgone,
    List.pairwise_cons.mpr (List.pairwise_cons.mp hsound.path), hsound.settled⟩

theorem Sound.descend (hsound : Sound whole ⟨pool, (node, next :: later) :: frames, finished⟩)
    (hget : pool.get? next = some successors) :
    Sound whole ⟨pool.erase next, (next, successors) :: (node, later) :: frames, finished⟩ := by
  have hedge : whole.Leads node next := by
    obtain ⟨done, hnode, -⟩ := hsound.visited (node, next :: later) List.mem_cons_self
    exact ⟨_, hnode, by simp⟩
  have hless : ∀ {other}, other ∈ (pool.erase next).names → other ∈ pool.names := by
    intro other hmem
    rw [NameMap.names_erase] at hmem
    exact (List.mem_filter.mp hmem).1
  refine ⟨?_, ?_, ?_, ?_, hsound.settled⟩
  · refine List.Perm.trans (List.Perm.append_left finished ?_) hsound.places
    have hmem : next ∈ pool.names := NameMap.mem_names_iff_get?.mpr ⟨_, hget⟩
    refine List.Perm.trans List.perm_middle.symm ?_
    exact List.Perm.append_left _ (NameMap.names_perm_cons_erase hmem).symm
  · intro other others hother
    exact hsound.unreached (NameMap.get?_of_get?_erase hother)
  · intro frame hframe
    rcases List.mem_cons.mp hframe with rfl | hframe
    · exact ⟨[], hsound.unreached hget, by simp⟩
    · exact hsound.visited_next hless (by simp) frame hframe
  · -- The new innermost node is one edge further on the path of open nodes.
    obtain ⟨hinner, houter⟩ := List.pairwise_cons.mp hsound.path
    refine List.pairwise_cons.mpr ⟨?_, List.pairwise_cons.mpr ⟨hinner, houter⟩⟩
    intro frame hframe
    rcases List.mem_cons.mp hframe with rfl | hframe
    · exact TransGen.single hedge
    · exact TransGen.tail (hinner frame hframe) hedge

end

theorem Sound.move {whole : Pool} {before after : Traversal} (hclosed : whole.Closed)
    (hmove : Move before after) (hsound : Sound whole before) : Sound whole after := by
  cases hmove with
  | root hpop => exact hsound.root hpop
  | finish => exact hsound.finish hclosed
  | skip hgone => exact hsound.skip hgone
  | descend hget => exact hsound.descend hget

/-! ## The end of a run -/

theorem perm_run {whole : Pool} (hclosed : whole.Closed) : (start whole).run.Perm whole.names := by
  obtain ⟨last, hsound, hstack, hpool, hrun⟩ :=
    run_preserves (Sound.move hclosed) (start whole) (Sound.start whole)
  have hplaces := hsound.places
  rw [hstack, hpool] at hplaces
  simpa [hrun] using hplaces

theorem idxOf_lt_of_mem_back {front back : List String} {name other : String}
    (hnodup : (front ++ name :: back).Nodup) (hmem : other ∈ back) :
    (front ++ name :: back).idxOf name < (front ++ name :: back).idxOf other := by
  obtain ⟨-, hback, hdisjoint⟩ := List.nodup_append.mp hnodup
  have hname : name ∉ front := fun h => hdisjoint name h name List.mem_cons_self rfl
  have hother : other ∉ front := fun h => hdisjoint other h other (List.mem_cons_of_mem _ hmem) rfl
  have hne : name ≠ other := by
    rintro rfl
    exact (List.nodup_cons.mp hback).1 hmem
  rw [List.idxOf_append_of_notMem hname, List.idxOf_append_of_notMem hother,
    List.idxOf_cons_self, List.idxOf_cons_ne back hne]
  omega

/-- A node stands before its successor in the result, unless the successor leads
back to it. -/
theorem before_or_back {whole : Pool} {node successor : String} (hclosed : whole.Closed)
    (hleads : whole.Leads node successor) :
    (start whole).run.idxOf node < (start whole).run.idxOf successor ∨
      TransGen whole.Leads successor node := by
  obtain ⟨last, hsound, -, -, hrun⟩ :=
    run_preserves (Sound.move hclosed) (start whole) (Sound.start whole)
  have hperm := perm_run hclosed
  have hnodup : (start whole).run.Nodup := hperm.nodup_iff.mpr whole.names_nodup
  have hnode : node ∈ (start whole).run := by
    obtain ⟨successors, hget, -⟩ := hleads
    exact hperm.mem_iff.mpr (NameMap.mem_names_iff_get?.mpr ⟨successors, hget⟩)
  -- What stands after a node in the result was finished before it.
  obtain ⟨front, earlier, hsplit⟩ := List.append_of_mem hnode
  have hsuffix : node :: earlier <:+ last.finished := ⟨front, by rw [← hrun, hsplit]⟩
  rcases hsound.settled hsuffix hleads with hmem | hback
  · left
    rw [hsplit] at hnodup ⊢
    exact idxOf_lt_of_mem_back hnodup hmem
  · exact Or.inr hback

end Traversal

theorem applicationOrder_perm (modifiers : HintMap) :
    (applicationOrder modifiers).Perm modifiers.names := by
  have hperm := Traversal.perm_run (Pool.closed_ofHints modifiers)
  rwa [Pool.names_ofConstraints, Constraints.names_ofHints] at hperm

theorem applicationOrder_nodup (modifiers : HintMap) : (applicationOrder modifiers).Nodup :=
  (applicationOrder_perm modifiers).nodup_iff.mpr modifiers.names_nodup

theorem honoured_or_cyclic {modifiers : HintMap} {first second : String}
    (hdirect : Precedes modifiers first second) :
    (applicationOrder modifiers).idxOf first < (applicationOrder modifiers).idxOf second ∨
      TransGen (Precedes modifiers) second first := by
  rw [← Pool.leads_ofHints] at hdirect ⊢
  exact Traversal.before_or_back (Pool.closed_ofHints modifiers) hdirect

/-- Ordering lists every present modifier once and nothing else, and puts the two
ends of each constraint in order unless they lie on a common cycle. -/
theorem applicationOrder_honours_acyclic (modifiers : HintMap) :
    (applicationOrder modifiers).Nodup ∧
      (∀ name, name ∈ applicationOrder modifiers ↔ name ∈ modifiers.names) ∧
      (∀ first second, Precedes modifiers first second →
        ¬ TransGen (Precedes modifiers) second first →
          (applicationOrder modifiers).idxOf first < (applicationOrder modifiers).idxOf second) ∧
      ∀ first second, Precedes modifiers first second →
        (applicationOrder modifiers).idxOf second < (applicationOrder modifiers).idxOf first →
          TransGen (Precedes modifiers) first second ∧
            TransGen (Precedes modifiers) second first := by
  refine ⟨applicationOrder_nodup modifiers,
    fun name => (applicationOrder_perm modifiers).mem_iff, ?_, ?_⟩
  · intro first second hdirect hacyclic
    exact (honoured_or_cyclic hdirect).resolve_right hacyclic
  · intro first second hdirect hviolated
    refine ⟨TransGen.single hdirect, (honoured_or_cyclic hdirect).resolve_left ?_⟩
    omega

/-- Two modifiers that contradict each other, after a third one. -/
def contraryPair : HintMap :=
  .ofList
    [("a", .declare [.before ["b"]]), ("b", .declare [.before ["a"]]),
      ("c", .declare [.before ["a"]])]

/-- The constraint that enters the cycle is honoured; of the two on it one is violated. -/
theorem contraryPair_order :
    (Precedes contraryPair "c" "a" ∧ ¬ TransGen (Precedes contraryPair) "a" "c" ∧
      (applicationOrder contraryPair).idxOf "c" < (applicationOrder contraryPair).idxOf "a") ∧
    (Precedes contraryPair "b" "a" ∧
      (applicationOrder contraryPair).idxOf "a" < (applicationOrder contraryPair).idxOf "b" ∧
      TransGen (Precedes contraryPair) "a" "b") := by
  have horder : applicationOrder contraryPair = ["c", "a", "b"] := by cbv
  have hentering : Precedes contraryPair "c" "a" := by decide +kernel
  have hsource : ∀ name ∈ contraryPair.names, ¬ Precedes contraryPair name "c" := by
    decide +kernel
  have hacyclic : ¬ TransGen (Precedes contraryPair) "a" "c" := by
    intro hback
    obtain ⟨name, -, hlast⟩ := TransGen.tail'_iff.mp hback
    exact hsource name hlast.first_mem hlast
  have hpair : Precedes contraryPair "b" "a" := by decide +kernel
  have hviolated : (applicationOrder contraryPair).idxOf "a" <
      (applicationOrder contraryPair).idxOf "b" := by
    rw [horder]
    decide
  obtain ⟨-, -, hhonoured, hcommon⟩ := applicationOrder_honours_acyclic contraryPair
  exact ⟨⟨hentering, hacyclic, hhonoured "c" "a" hentering hacyclic⟩, hpair, hviolated,
    (hcommon "b" "a" hpair hviolated).2⟩

end StepChain
