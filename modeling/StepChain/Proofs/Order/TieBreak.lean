import StepChain.Proofs.Order.DepthFirst

/-!
# Ties are broken by name

Whenever no node is open a traversal opens the greatest name that is left. A lesser name
therefore stands after a greater one in the result only if it was reached from a node that
is no less than the greater one.
-/

namespace StepChain

open Relation

namespace Traversal

/-! ## What is left -/

def unfinished (traversal : Traversal) : List String :=
  traversal.stack.map Prod.fst ++ traversal.pool.names

/-- The open node that was taken from the pool, not reached from another one. -/
def outermost? (traversal : Traversal) : Option String :=
  (traversal.stack.map Prod.fst).getLast?

theorem unfinished_of_move {before after : Traversal} (hmove : Move before after) {name : String}
    (hname : name ∈ after.unfinished) : name ∈ before.unfinished := by
  cases hmove with
  | root hpop =>
      have hnames := NameMap.names_of_popLast? hpop
      simp only [unfinished, List.map_cons, List.map_nil, List.mem_append, List.mem_singleton]
        at hname
      simp only [unfinished, List.map_nil, List.nil_append, hnames, List.mem_append,
        List.mem_singleton]
      exact hname.symm
  | finish => exact List.mem_cons_of_mem _ hname
  | skip hgone => exact hname
  | descend hget =>
      have hnext := NameMap.mem_names_iff_get?.mpr ⟨_, hget⟩
      simp only [unfinished, List.map_cons, List.cons_append, List.mem_cons, List.mem_append,
        NameMap.names_erase, List.mem_filter] at hname ⊢
      rcases hname with rfl | rfl | hframe | ⟨hpool, -⟩
      · exact Or.inr (Or.inr hnext)
      · exact Or.inl rfl
      · exact Or.inr (Or.inl hframe)
      · exact Or.inr (Or.inr hpool)

/-! ## Inversions -/

/-- A name is no greater than one finished before it, or some name no less than it leads to
the other. -/
def Excused (leads : String → String → Prop) (later earlier : String) : Prop :=
  earlier < later → ∃ root, later ≤ root ∧ TransGen leads root earlier

/-- What holds at every moment of the order in which nodes are finished. -/
structure Ranked (whole : Pool) (traversal : Traversal) : Prop where
  sound : Sound whole traversal
  bounded : ∀ root, traversal.outermost? = some root →
    ∀ name ∈ traversal.unfinished, name ≤ root
  excused : traversal.finished.Pairwise (Excused whole.Leads)
  /-- What is left may be finished after all that is finished. -/
  awaited : ∀ earlier ∈ traversal.finished, ∀ later ∈ traversal.unfinished,
    Excused whole.Leads later earlier

theorem Ranked.start (whole : Pool) : Ranked whole (start whole) where
  sound := Sound.start whole
  bounded := fun _ hroot => absurd hroot (by simp [outermost?, Traversal.start])
  excused := List.Pairwise.nil
  awaited := fun _ hearlier => absurd hearlier List.not_mem_nil

section

variable {whole pool rest : Pool} {node : String} {successors finished : List String}
  {frames : List (String × List String)}

theorem bounded_of_popLast? (hpop : pool.popLast? = some ((node, successors), rest))
    {name : String} (hname : name ∈ unfinished ⟨rest, [(node, successors)], finished⟩) :
    name ≤ node := by
  have hascending := pool.names_ascending
  rw [NameMap.names_of_popLast? hpop] at hascending
  have hless := (List.pairwise_append.mp hascending).2.2
  rcases List.mem_cons.mp hname with rfl | hrest
  · exact String.le_refl _
  · exact Std.le_of_lt (hless name hrest node List.mem_cons_self)

/-- When a node is finished, what is left is bounded by the outermost open node. If that is
the node itself, nothing left is greater; otherwise it leads to the node. -/
theorem Ranked.excused_of_finish (hranked : Ranked whole ⟨pool, (node, []) :: frames, finished⟩)
    {name : String} (hname : name ∈ unfinished ⟨pool, frames, node :: finished⟩) :
    Excused whole.Leads name node := by
  intro hless
  have hleft : name ∈ unfinished ⟨pool, (node, []) :: frames, finished⟩ :=
    List.mem_cons_of_mem _ hname
  rcases List.eq_nil_or_concat frames with rfl | ⟨inner, outer, rfl⟩
  · have hbound : name ≤ node := hranked.bounded node rfl name hleft
    exact absurd hless (String.not_lt.mpr hbound)
  · have houtermost :
        outermost? ⟨pool, (node, []) :: inner.concat outer, finished⟩ = some outer.1 := by
      simp [outermost?, List.getLast?_cons]
    have hpath : TransGen whole.Leads outer.1 node :=
      (List.pairwise_cons.mp hranked.sound.path).1 outer (by simp)
    exact ⟨outer.1, hranked.bounded outer.1 houtermost name hleft, hpath⟩

end

theorem Ranked.move {whole : Pool} {before after : Traversal} (hclosed : whole.Closed)
    (hmove : Move before after) (hranked : Ranked whole before) : Ranked whole after := by
  have hsound : Sound whole after := hranked.sound.move hclosed hmove
  -- What is left only gets less, so that the bounds of before still hold.
  have hbounded : ∀ root, before.outermost? = some root →
      ∀ name ∈ after.unfinished, name ≤ root := fun root hroot name hname =>
    hranked.bounded root hroot name (unfinished_of_move hmove hname)
  have hawaited : ∀ earlier ∈ before.finished, ∀ later ∈ after.unfinished,
      Excused whole.Leads later earlier := fun earlier hearlier later hlater =>
    hranked.awaited earlier hearlier later (unfinished_of_move hmove hlater)
  cases hmove with
  | root hpop =>
      refine ⟨hsound, fun root hroot name hname => ?_, hranked.excused, hawaited⟩
      obtain rfl := Option.some.inj hroot
      exact bounded_of_popLast? hpop hname
  | @finish pool node frames finished =>
      refine ⟨hsound, fun root hroot => hbounded root ?_, ?_, ?_⟩
      · have hroot : (frames.map Prod.fst).getLast? = some root := hroot
        simp [outermost?, List.getLast?_cons, hroot]
      · refine List.pairwise_cons.mpr ⟨fun earlier hearlier => ?_, hranked.excused⟩
        exact hranked.awaited earlier hearlier node List.mem_cons_self
      · intro earlier hearlier later hlater
        rcases List.mem_cons.mp hearlier with rfl | hearlier
        · exact hranked.excused_of_finish hlater
        · exact hawaited earlier hearlier later hlater
  | skip hgone => exact ⟨hsound, hbounded, hranked.excused, hawaited⟩
  | descend hget =>
      refine ⟨hsound, fun root hroot => hbounded root ?_, hranked.excused, hawaited⟩
      simpa [outermost?] using hroot

theorem excused_run {whole : Pool} (hclosed : whole.Closed) :
    (start whole).run.Pairwise (Excused whole.Leads) := by
  obtain ⟨last, hranked, -, -, hrun⟩ :=
    run_preserves (Ranked.move hclosed) (start whole) (Ranked.start whole)
  rw [hrun]
  exact hranked.excused

end Traversal

/-! ## The order of modifiers -/

theorem rel_of_idxOf_lt {relation : String → String → Prop} {names : List String}
    (hpairwise : names.Pairwise relation) {first second : String} (hsecond : second ∈ names)
    (hlt : names.idxOf first < names.idxOf second) : relation first second := by
  have hbound : names.idxOf second < names.length := List.idxOf_lt_length_of_mem hsecond
  have hrel := List.pairwise_iff_getElem.mp hpairwise _ _ (Nat.lt_trans hlt hbound) hbound hlt
  rwa [List.getElem_idxOf, List.getElem_idxOf] at hrel

theorem excused_applicationOrder (modifiers : HintMap) :
    (applicationOrder modifiers).Pairwise (Traversal.Excused (Precedes modifiers)) := by
  have hexcused := Traversal.excused_run (Pool.closed_ofHints modifiers)
  rwa [Pool.leads_ofHints] at hexcused

theorem leader_of_inverted {modifiers : HintMap} {lesser greater : String}
    (hlesser : lesser ∈ modifiers.names) (hless : lesser < greater)
    (hinverted : (applicationOrder modifiers).idxOf greater <
      (applicationOrder modifiers).idxOf lesser) :
    ∃ root ∈ modifiers.names, greater ≤ root ∧ TransGen (Precedes modifiers) root lesser := by
  have hmem : lesser ∈ applicationOrder modifiers :=
    (applicationOrder_perm modifiers).mem_iff.mpr hlesser
  have hexcused := rel_of_idxOf_lt (excused_applicationOrder modifiers) hmem hinverted
  obtain ⟨root, hbound, hchain⟩ := hexcused hless
  obtain ⟨_, hfirst, -⟩ := TransGen.head'_iff.mp hchain
  exact ⟨root, hfirst.first_mem, hbound, hchain⟩

theorem idxOf_lt_of_unled {modifiers : HintMap} {lesser greater : String}
    (hlesser : lesser ∈ modifiers.names) (hless : lesser < greater)
    (hunled : ∀ other, ¬ Precedes modifiers other lesser) :
    (applicationOrder modifiers).idxOf lesser < (applicationOrder modifiers).idxOf greater := by
  have hmem : lesser ∈ applicationOrder modifiers :=
    (applicationOrder_perm modifiers).mem_iff.mpr hlesser
  have hne : (applicationOrder modifiers).idxOf greater ≠
      (applicationOrder modifiers).idxOf lesser := by
    intro heq
    have hsame : lesser = greater := (List.idxOf_inj hmem).mp heq.symm
    exact String.lt_irrefl greater (hsame ▸ hless)
  by_contra hnot
  obtain ⟨root, -, -, hchain⟩ := leader_of_inverted hlesser hless (by omega)
  obtain ⟨last, -, hdirect⟩ := TransGen.tail'_iff.mp hchain
  exact hunled last hdirect

theorem lt_of_chain {modifiers : HintMap} {first second : String}
    (hupwards : ∀ first second, Precedes modifiers first second → first < second)
    (hchain : TransGen (Precedes modifiers) first second) : first < second := by
  induction hchain with
  | single hdirect => exact hupwards _ _ hdirect
  | tail _ hdirect ih => exact String.lt_trans ih (hupwards _ _ hdirect)

theorem applicationOrder_eq_names {modifiers : HintMap}
    (hupwards : ∀ first second, Precedes modifiers first second → first < second) :
    applicationOrder modifiers = modifiers.names := by
  have hperm := applicationOrder_perm modifiers
  have hnodup := applicationOrder_nodup modifiers
  refine eq_of_ascending ?_ modifiers.names_ascending fun name => hperm.mem_iff
  refine (excused_applicationOrder modifiers).imp₂ ?_ hnodup
  intro first second hexcused hne
  by_contra hnot
  have hgreater : second < first := Std.lt_of_le_of_ne (String.not_lt.mp hnot) (Ne.symm hne)
  obtain ⟨root, hbound, hchain⟩ := hexcused hgreater
  have hroot : root < second := lt_of_chain hupwards hchain
  exact absurd (Std.lt_of_le_of_lt hbound hroot) (String.lt_asymm hgreater)

/-- Names are inverted only for a reason: some name no less than the greater one leads to the
lesser one. A name that no constraint leads to stands before all greater ones, and where
constraints only lead to greater names the order is that of the names. -/
theorem applicationOrder_no_needless_inversion (modifiers : HintMap) :
    (∀ lesser greater, lesser ∈ modifiers.names → greater ∈ modifiers.names → lesser < greater →
        (applicationOrder modifiers).idxOf greater < (applicationOrder modifiers).idxOf lesser →
          ∃ root ∈ modifiers.names, greater ≤ root ∧
            TransGen (Precedes modifiers) root lesser) ∧
      (∀ lesser greater, lesser ∈ modifiers.names → greater ∈ modifiers.names → lesser < greater →
        (∀ other, ¬ Precedes modifiers other lesser) →
          (applicationOrder modifiers).idxOf lesser < (applicationOrder modifiers).idxOf greater) ∧
      ((∀ first second, Precedes modifiers first second → first < second) →
        applicationOrder modifiers = modifiers.names) := by
  refine ⟨?_, ?_, applicationOrder_eq_names⟩
  · intro lesser greater hlesser _ hless hinverted
    exact leader_of_inverted hlesser hless hinverted
  · intro lesser greater hlesser _ hless hunled
    exact idxOf_lt_of_unled hlesser hless hunled

/-- A cycle of two greater names that leads to the least one, and a name between them. -/
def ledBackHints : HintMap :=
  .ofList
    [("a", .declare [.after ["c"]]), ("b", .declare []), ("c", .declare [.before ["d"]]),
      ("d", .declare [.before ["c"]])]

/-- Every hint points to a greater name. -/
def upwardHints : HintMap :=
  .ofList
    [("a", .declare [.before ["c"]]), ("b", .declare [.after ["a"]]), ("c", .declare [])]

/-- The least name is inverted with the one between, which stands first among the rest. -/
theorem ledBackHints_inverted :
    ((applicationOrder ledBackHints).idxOf "b" < (applicationOrder ledBackHints).idxOf "a" ∧
      ∃ root ∈ ledBackHints.names, "b" ≤ root ∧ TransGen (Precedes ledBackHints) root "a") ∧
    ((∀ other, ¬ Precedes ledBackHints other "b") ∧
      (applicationOrder ledBackHints).idxOf "b" < (applicationOrder ledBackHints).idxOf "c") ∧
    ((∀ first second, Precedes upwardHints first second → first < second) ∧
      applicationOrder upwardHints = ["a", "b", "c"]) := by
  have horder : applicationOrder ledBackHints = ["b", "d", "c", "a"] := by cbv
  have hinverted : (applicationOrder ledBackHints).idxOf "b" <
      (applicationOrder ledBackHints).idxOf "a" := by
    rw [horder]
    decide
  have hsource : ∀ name ∈ ledBackHints.names, ¬ Precedes ledBackHints name "b" := by
    decide +kernel
  have hunled : ∀ other, ¬ Precedes ledBackHints other "b" :=
    fun other hdirect => hsource other hdirect.first_mem hdirect
  have hpairs : ∀ first ∈ upwardHints.names, ∀ second ∈ upwardHints.names,
      Precedes upwardHints first second → first < second := by
    decide +kernel
  have hupwards : ∀ first second, Precedes upwardHints first second → first < second :=
    fun first second hdirect => hpairs first hdirect.first_mem second hdirect.second_mem hdirect
  obtain ⟨hreason, hfree, -⟩ := applicationOrder_no_needless_inversion ledBackHints
  obtain ⟨-, -, hascending⟩ := applicationOrder_no_needless_inversion upwardHints
  have ha : "a" ∈ ledBackHints.names := by decide +kernel
  have hb : "b" ∈ ledBackHints.names := by decide +kernel
  have hc : "c" ∈ ledBackHints.names := by decide +kernel
  refine ⟨⟨hinverted, hreason "a" "b" ha hb (by decide) hinverted⟩,
    ⟨hunled, hfree "b" "c" hb hc (by decide) hunled⟩, hupwards, ?_⟩
  exact (hascending hupwards).trans (by decide +kernel)

end StepChain
