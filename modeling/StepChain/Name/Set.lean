/-!
# Sets of names

A set of names is a strictly ascending list, so that it is listed in one order
only. Names compare by their characters' code points.
-/

namespace StepChain

/-- Insert a name into an ascending list, unless it is there already. -/
def insertName (name : String) : List String → List String
  | [] => [name]
  | head :: rest =>
      if name < head then name :: head :: rest
      else if name = head then head :: rest
      else head :: insertName name rest

theorem mem_insertName {name other : String} {names : List String} :
    other ∈ insertName name names ↔ other = name ∨ other ∈ names := by
  induction names with
  | nil => simp [insertName]
  | cons head rest ih =>
      unfold insertName
      by_cases hlt : name < head
      · simp [hlt]
      · by_cases heq : name = head
        · rw [if_neg hlt, if_pos heq, heq, List.mem_cons]
          simp
        · rw [if_neg hlt, if_neg heq, List.mem_cons, ih, List.mem_cons]
          constructor <;> rintro (h | h | h) <;> simp [h]

theorem pairwise_insertName {name : String} {names : List String}
    (hnames : names.Pairwise (· < ·)) :
    (insertName name names).Pairwise (· < ·) := by
  induction names with
  | nil => simp [insertName]
  | cons head rest ih =>
      rw [List.pairwise_cons] at hnames
      obtain ⟨hhead, hrest⟩ := hnames
      unfold insertName
      by_cases hlt : name < head
      · rw [if_pos hlt]
        refine List.pairwise_cons.mpr ⟨?_, List.pairwise_cons.mpr ⟨hhead, hrest⟩⟩
        intro other hother
        rcases List.mem_cons.mp hother with rfl | hother
        · exact hlt
        · exact String.lt_trans hlt (hhead other hother)
      · by_cases heq : name = head
        · rw [if_neg hlt, if_pos heq]
          exact List.pairwise_cons.mpr ⟨hhead, hrest⟩
        · rw [if_neg hlt, if_neg heq]
          refine List.pairwise_cons.mpr ⟨?_, ih hrest⟩
          intro other hother
          rcases mem_insertName.mp hother with rfl | hother
          · exact Std.lt_of_le_of_ne (String.not_lt.mp hlt) (Ne.symm heq)
          · exact hhead other hother

theorem ascending_nodup {names : List String} (hascending : names.Pairwise (· < ·)) :
    names.Nodup := by
  refine hascending.imp ?_
  rintro name _ hlt rfl
  exact String.lt_irrefl name hlt

theorem eq_of_ascending {names others : List String} (hnames : names.Pairwise (· < ·))
    (hothers : others.Pairwise (· < ·)) (hmem : ∀ name, name ∈ names ↔ name ∈ others) :
    names = others := by
  have hperm : names.Perm others :=
    (List.perm_ext_iff_of_nodup (ascending_nodup hnames) (ascending_nodup hothers)).mpr hmem
  refine List.Perm.eq_of_pairwise ?_ hnames hothers hperm
  intro name other _ _ hlt hgt
  exact absurd hgt (String.lt_asymm hlt)

/-- A finite set of names. -/
structure NameSet where
  toList : List String
  ascending : toList.Pairwise (· < ·)
  deriving DecidableEq

namespace NameSet

theorem ascending_nil : ([] : List String).Pairwise (· < ·) := List.Pairwise.nil

def empty : NameSet := ⟨[], ascending_nil⟩

instance : Inhabited NameSet := ⟨empty⟩

instance : Membership String NameSet := ⟨fun names name => name ∈ names.toList⟩

instance (name : String) (names : NameSet) : Decidable (name ∈ names) :=
  inferInstanceAs (Decidable (name ∈ names.toList))

theorem mem_toList {name : String} {names : NameSet} :
    name ∈ names.toList ↔ name ∈ names := Iff.rfl

theorem ext_of_mem {left right : NameSet} (hmem : ∀ name, name ∈ left ↔ name ∈ right) :
    left = right := by
  have hlist : left.toList = right.toList :=
    eq_of_ascending left.ascending right.ascending hmem
  cases left
  cases right
  congr

def insert (names : NameSet) (name : String) : NameSet :=
  ⟨insertName name names.toList, pairwise_insertName names.ascending⟩

/-- The set grown by every name of a list. -/
def insertMany (names : NameSet) (added : List String) : NameSet :=
  added.foldl insert names

def ofList (names : List String) : NameSet :=
  empty.insertMany names

def union (left right : NameSet) : NameSet :=
  left.insertMany right.toList

@[simp] theorem not_mem_empty (name : String) : ¬ name ∈ empty :=
  List.not_mem_nil

@[simp] theorem mem_insert {names : NameSet} {name other : String} :
    other ∈ names.insert name ↔ other = name ∨ other ∈ names :=
  mem_insertName

@[simp] theorem mem_insertMany {names : NameSet} {added : List String} {name : String} :
    name ∈ names.insertMany added ↔ name ∈ names ∨ name ∈ added := by
  induction added generalizing names with
  | nil => simp [insertMany]
  | cons head rest ih =>
      have hstep : names.insertMany (head :: rest) = (names.insert head).insertMany rest := rfl
      rw [hstep, ih, mem_insert, List.mem_cons]
      constructor
      · rintro ((h | h) | h) <;> simp [h]
      · rintro (h | h | h) <;> simp [h]

@[simp] theorem mem_ofList {names : List String} {name : String} :
    name ∈ ofList names ↔ name ∈ names := by
  simp [ofList]

@[simp] theorem mem_union {left right : NameSet} {name : String} :
    name ∈ left.union right ↔ name ∈ left ∨ name ∈ right := by
  simp [union, mem_toList]

end NameSet

/-- Join a set of keys declared here with those of what it builds on. -/
def inheritedNames (own : List String) (parents : List NameSet) : NameSet :=
  parents.foldl NameSet.union (NameSet.ofList own)

end StepChain
