import StepChain.Order.Constraints

/-!
# Depth-first order

The order of a step's modifiers comes from a depth-first traversal of their
constraints. Nodes leave a pool when they are reached, the greatest name first;
a node is finished when everything that it must precede has been finished. Each
finished node is put in front of those finished before it. Without constraints
the result is ascending. Since a node leaves the pool once, the traversal also
ends when constraints contradict each other.
-/

namespace StepChain

/-- The weights of all items together. -/
def totalWeight {ι : Type} (weigh : ι → Nat) : List ι → Nat
  | [] => 0
  | item :: rest => weigh item + totalWeight weigh rest

@[simp] theorem totalWeight_nil {ι : Type} (weigh : ι → Nat) : totalWeight weigh [] = 0 := rfl

@[simp] theorem totalWeight_cons {ι : Type} (weigh : ι → Nat) (item : ι) (rest : List ι) :
    totalWeight weigh (item :: rest) = weigh item + totalWeight weigh rest := rfl

@[simp] theorem totalWeight_append {ι : Type} (weigh : ι → Nat) (front back : List ι) :
    totalWeight weigh (front ++ back) = totalWeight weigh front + totalWeight weigh back := by
  induction front with
  | nil => simp
  | cons item rest ih => simp [ih, Nat.add_assoc]

/-- Nodes that are not reached yet, with their successors in the order of visit. -/
abbrev Pool := NameMap (List String)

namespace Pool

/-- All nodes; successors are visited in descending order. -/
def ofConstraints (constraints : Constraints) : Pool :=
  constraints.mapValues fun _ names => names.toList.reverse

/-- Bounds the steps that the nodes of the pool can still cause. -/
def weight (pool : Pool) : Nat :=
  totalWeight (fun entry => entry.2.length + 2) pool.entries

end Pool

/-- A traversal under way. -/
structure Traversal where
  pool : Pool
  /-- The open nodes, innermost first, each with the successors still to visit. -/
  stack : List (String × List String)
  /-- The finished nodes, the last one first. -/
  finished : List String

namespace Traversal

def start (pool : Pool) : Traversal :=
  { pool, stack := [], finished := [] }

/-- One step: open the greatest node of the pool, open the next successor that
is still in the pool, or finish a node. There is none when the pool and the
stack are empty. -/
def step? (traversal : Traversal) : Option Traversal :=
  match traversal.stack with
  | [] =>
      traversal.pool.popLast?.map fun popped =>
        { traversal with pool := popped.2, stack := [popped.1] }
  | (node, []) :: rest =>
      some { traversal with stack := rest, finished := node :: traversal.finished }
  | (node, next :: later) :: rest =>
      match traversal.pool.extract? next with
      | none => some { traversal with stack := (node, later) :: rest }
      | some (successors, pool) =>
          some { traversal with pool, stack := (next, successors) :: (node, later) :: rest }

/-- Bounds the steps still to take. -/
def weight (traversal : Traversal) : Nat :=
  traversal.pool.weight + totalWeight (fun frame => frame.2.length + 1) traversal.stack

theorem weight_popLast? {pool rest : Pool} {entry : String × List String}
    (hpop : pool.popLast? = some (entry, rest)) :
    rest.weight + (entry.2.length + 2) = pool.weight := by
  unfold NameMap.popLast? at hpop
  split at hpop
  · exact absurd hpop (by simp)
  · rename_i last hlast
    simp only [Option.some.injEq, Prod.mk.injEq] at hpop
    obtain ⟨rfl, rfl⟩ := hpop
    obtain ⟨front, hfront⟩ := List.getLast?_eq_some_iff.mp hlast
    simp [Pool.weight, hfront]

theorem totalWeight_filter_lookup (name : String) (weight : String × List String → Nat)
    (entries : List (String × List String)) {value : List String}
    (hlookup : entries.lookup name = some value) :
    totalWeight weight (entries.filter fun entry => entry.1 ≠ name) + weight (name, value) ≤
      totalWeight weight entries := by
  have hle : ∀ items : List (String × List String),
      totalWeight weight (items.filter fun entry => entry.1 ≠ name) ≤ totalWeight weight items := by
    intro items
    induction items with
    | nil => simp
    | cons head rest ih =>
        by_cases hname : head.1 = name
        · simpa [List.filter_cons, hname] using Nat.le_trans (by simpa using ih) (Nat.le_add_left _ _)
        · simpa [List.filter_cons, hname] using ih
  induction entries with
  | nil => simp at hlookup
  | cons head rest ih =>
      obtain ⟨other, otherValue⟩ := head
      by_cases hname : name = other
      · subst hname
        have hvalue : otherValue = value := by simpa [List.lookup_cons] using hlookup
        subst hvalue
        have := hle rest
        simp only [List.filter_cons, ne_eq, not_true_eq_false, decide_false, Bool.false_eq_true,
          if_false, totalWeight_cons]
        simp only [ne_eq] at this
        omega
      · have hrest : rest.lookup name = some value := by
          have hbeq : (name == other) = false := by simpa using hname
          simpa [List.lookup_cons, hbeq] using hlookup
        have hother : ¬ other = name := fun h => hname h.symm
        have := ih hrest
        simp only [List.filter_cons, ne_eq, hother, not_false_eq_true, decide_true, if_true,
          totalWeight_cons] at this ⊢
        omega

theorem weight_extract? {pool rest : Pool} {name : String} {successors : List String}
    (hextract : pool.extract? name = some (successors, rest)) :
    rest.weight + (successors.length + 2) ≤ pool.weight := by
  simp only [NameMap.extract?, Option.map_eq_some_iff, Prod.mk.injEq] at hextract
  obtain ⟨value, hget, rfl, rfl⟩ := hextract
  exact totalWeight_filter_lookup name (fun entry => entry.2.length + 2) pool.entries hget

theorem weight_step? {traversal next : Traversal} (hstep : traversal.step? = some next) :
    next.weight < traversal.weight := by
  obtain ⟨pool, stack, finished⟩ := traversal
  match stack with
  | [] =>
      simp only [step?, Option.map_eq_some_iff] at hstep
      obtain ⟨⟨entry, rest⟩, hpop, rfl⟩ := hstep
      have := weight_popLast? hpop
      simp only [weight, totalWeight_cons, totalWeight_nil]
      omega
  | (node, []) :: frames =>
      simp only [step?, Option.some.injEq] at hstep
      subst hstep
      simp [weight]
  | (node, name :: later) :: frames =>
      simp only [step?] at hstep
      split at hstep
      · simp only [Option.some.injEq] at hstep
        subst hstep
        simp [weight]
      · rename_i successors rest hextract
        simp only [Option.some.injEq] at hstep
        subst hstep
        have := weight_extract? hextract
        simp only [weight, totalWeight_cons, List.length_cons]
        omega

/-- Take steps until there is none, and list the finished nodes. -/
def run (traversal : Traversal) : List String :=
  match _hstep : traversal.step? with
  | none => traversal.finished
  | some next => next.run
termination_by traversal.weight
decreasing_by exact weight_step? _hstep

end Traversal

/-- The names of the present modifiers in the order they are applied. Every
constraint is honoured that no chain of constraints contradicts. -/
def applicationOrder (modifiers : HintMap) : List String :=
  (Traversal.start (Pool.ofConstraints (Constraints.ofHints modifiers))).run

end StepChain
