import StepChain.Name.Set

/-!
# Maps keyed by name

A map is a list of entries with strictly ascending names. It serves as the
modifiers present in a step, as a table of factories, and as the pool of nodes
that a traversal has not reached yet.
-/

namespace StepChain

/-- Set the value of a name in an ascending list of entries. -/
def setEntry {β : Type u} (name : String) (value : β) : List (String × β) → List (String × β)
  | [] => [(name, value)]
  | head :: rest =>
      if name < head.1 then (name, value) :: head :: rest
      else if name = head.1 then (name, value) :: rest
      else head :: setEntry name value rest

theorem map_fst_setEntry {β : Type u} (name : String) (value : β) (entries : List (String × β)) :
    (setEntry name value entries).map Prod.fst = insertName name (entries.map Prod.fst) := by
  induction entries with
  | nil => rfl
  | cons head rest ih =>
      simp only [setEntry, List.map_cons, insertName]
      by_cases hlt : name < head.1
      · simp [hlt]
      · by_cases heq : name = head.1
        · rw [if_neg hlt, if_pos heq, if_neg hlt, if_pos heq, List.map_cons, heq]
        · simp [hlt, heq, ih]

theorem lookup_cons_eq_ite {β : Type u} (name other : String) (value : β)
    (entries : List (String × β)) :
    ((name, value) :: entries).lookup other =
      if other = name then some value else entries.lookup other := by
  by_cases heq : other = name
  · simp [heq]
  · have hbeq : (other == name) = false := by simpa using heq
    simp [List.lookup_cons, hbeq, heq]

theorem lookup_setEntry {β : Type u} (name other : String) (value : β)
    (entries : List (String × β)) :
    (setEntry name value entries).lookup other =
      if other = name then some value else entries.lookup other := by
  induction entries with
  | nil => exact lookup_cons_eq_ite name other value []
  | cons head rest ih =>
      obtain ⟨first, found⟩ := head
      simp only [setEntry]
      by_cases hlt : name < first
      · rw [if_pos hlt, lookup_cons_eq_ite]
      · rw [if_neg hlt]
        by_cases heq : name = first
        · rw [if_pos heq, lookup_cons_eq_ite, lookup_cons_eq_ite, heq]
          split <;> rfl
        · rw [if_neg heq, lookup_cons_eq_ite, lookup_cons_eq_ite, ih]
          by_cases hother : other = first
          · rw [if_pos hother, if_pos hother, if_neg (hother ▸ Ne.symm heq)]
          · rw [if_neg hother, if_neg hother]

theorem setEntry_perm {β : Type u} {name : String} {entries : List (String × β)}
    (hfresh : name ∉ entries.map Prod.fst) (value : β) :
    (setEntry name value entries).Perm ((name, value) :: entries) := by
  induction entries with
  | nil => exact .refl _
  | cons head rest ih =>
      simp only [List.map_cons, List.mem_cons, not_or] at hfresh
      obtain ⟨hne, hrest⟩ := hfresh
      simp only [setEntry]
      by_cases hlt : name < head.1
      · rw [if_pos hlt]
      · rw [if_neg hlt, if_neg hne]
        exact ((ih hrest).cons head).trans (.swap (name, value) head rest)

theorem map_setEntry {β : Type u} {γ : Type v} (name : String) (value : β)
    (f : String → β → γ) (entries : List (String × β)) :
    (setEntry name value entries).map (fun entry => (entry.1, f entry.1 entry.2)) =
      setEntry name (f name value) (entries.map fun entry => (entry.1, f entry.1 entry.2)) := by
  induction entries with
  | nil => rfl
  | cons head rest ih =>
      simp only [setEntry, List.map_cons]
      by_cases hlt : name < head.1
      · simp [hlt]
      · by_cases heq : name = head.1 <;> simp [hlt, heq, ih]

/-- A finite map whose keys are names. -/
structure NameMap (β : Type u) where
  entries : List (String × β)
  ascending : (entries.map Prod.fst).Pairwise (· < ·)

namespace NameMap

variable {β : Type u} {γ : Type v}

def empty : NameMap β := ⟨[], NameSet.ascending_nil⟩

instance : Inhabited (NameMap β) := ⟨empty⟩

/-- The names that have a value, ascending. -/
def names (map : NameMap β) : List String :=
  map.entries.map Prod.fst

theorem names_ascending (map : NameMap β) : map.names.Pairwise (· < ·) :=
  map.ascending

/-- The names that have a value, as a set. -/
def nameSet (map : NameMap β) : NameSet :=
  ⟨map.names, map.ascending⟩

def size (map : NameMap β) : Nat :=
  map.entries.length

def get? (map : NameMap β) (name : String) : Option β :=
  map.entries.lookup name

def contains (map : NameMap β) (name : String) : Bool :=
  map.names.contains name

/-- Give a name a value; an earlier value of the name is replaced. -/
def insert (map : NameMap β) (name : String) (value : β) : NameMap β :=
  ⟨setEntry name value map.entries, by
    rw [map_fst_setEntry]
    exact pairwise_insertName map.ascending⟩

/-- The map of some entries; of several values for a name the last is kept. -/
def ofList (entries : List (String × β)) : NameMap β :=
  entries.foldl (fun map entry => map.insert entry.1 entry.2) empty

/-- Change every value, with its name at hand. -/
def mapValues (map : NameMap β) (f : String → β → γ) : NameMap γ :=
  ⟨map.entries.map fun entry => (entry.1, f entry.1 entry.2), by
    have hnames : (map.entries.map fun entry => (entry.1, f entry.1 entry.2)).map Prod.fst =
        map.entries.map Prod.fst := by
      simp [Function.comp_def]
    rw [hnames]
    exact map.ascending⟩

/-- Change the value of one name, where it has one. -/
def adjust (map : NameMap β) (name : String) (f : β → β) : NameMap β :=
  map.mapValues fun other value => if other = name then f value else value

/-- The map without one name. -/
def erase (map : NameMap β) (name : String) : NameMap β :=
  ⟨map.entries.filter (fun entry => entry.1 ≠ name),
    map.ascending.sublist (List.Sublist.map _ List.filter_sublist)⟩

/-- The value of a name together with the map without it. -/
def extract? (map : NameMap β) (name : String) : Option (β × NameMap β) :=
  (map.get? name).map fun value => (value, map.erase name)

/-- The greatest name with its value, and the map without it. -/
def popLast? (map : NameMap β) : Option ((String × β) × NameMap β) :=
  match map.entries.getLast? with
  | none => none
  | some entry =>
      some (entry, ⟨map.entries.dropLast, by
        rw [List.map_dropLast]
        exact map.ascending.sublist (List.dropLast_sublist _)⟩)

@[simp] theorem names_empty : (empty : NameMap β).names = [] := rfl

theorem names_insert (map : NameMap β) (name : String) (value : β) :
    (map.insert name value).names = insertName name map.names :=
  map_fst_setEntry name value map.entries

theorem mem_names_insert {map : NameMap β} {name other : String} {value : β} :
    other ∈ (map.insert name value).names ↔ other = name ∨ other ∈ map.names := by
  rw [names_insert]
  exact mem_insertName

@[simp] theorem get?_empty (name : String) : (empty : NameMap β).get? name = none := rfl

theorem get?_insert (map : NameMap β) (name other : String) (value : β) :
    (map.insert name value).get? other = if other = name then some value else map.get? other :=
  lookup_setEntry name other value map.entries

@[simp] theorem names_mapValues (map : NameMap β) (f : String → β → γ) :
    (map.mapValues f).names = map.names := by
  simp [names, mapValues, Function.comp_def]

@[simp] theorem names_adjust (map : NameMap β) (name : String) (f : β → β) :
    (map.adjust name f).names = map.names :=
  names_mapValues map _

theorem mapValues_insert (map : NameMap β) (name : String) (value : β) (f : String → β → γ) :
    (map.insert name value).mapValues f = (map.mapValues f).insert name (f name value) := by
  simp only [mapValues, insert, map_setEntry]

theorem ofList_concat (entries : List (String × β)) (name : String) (value : β) :
    ofList (entries ++ [(name, value)]) = (ofList entries).insert name value := by
  simp [ofList]

theorem ext_of_perm {left right : NameMap β} (hperm : left.entries.Perm right.entries) :
    left = right := by
  have hleft := List.pairwise_map.mp left.ascending
  have hright := List.pairwise_map.mp right.ascending
  have hentries : left.entries = right.entries :=
    List.Perm.eq_of_pairwise
      (fun first second _ _ hlt hgt => absurd hgt (String.lt_asymm hlt)) hleft hright hperm
  cases left
  cases right
  congr

theorem entries_insert_perm {map : NameMap β} {name : String} (hfresh : name ∉ map.names)
    (value : β) : (map.insert name value).entries.Perm ((name, value) :: map.entries) :=
  setEntry_perm hfresh value

/-- Entries under different names are the entries of the map that they make. -/
theorem entries_ofList_perm {entries : List (String × β)}
    (hnodup : (entries.map Prod.fst).Nodup) : (ofList entries).entries.Perm entries := by
  -- The entries that are in place vary.
  have hfold : ∀ (map : NameMap β) (rest : List (String × β)),
      ((map.entries ++ rest).map Prod.fst).Nodup →
        (rest.foldl (fun map entry => map.insert entry.1 entry.2) map).entries.Perm
          (map.entries ++ rest) := by
    intro map rest
    induction rest generalizing map with
    | nil => simp
    | cons head rest ih =>
        intro hnodup
        have hfresh : head.1 ∉ map.names := by
          rw [List.map_append, List.map_cons] at hnodup
          exact fun hmem => (List.nodup_append.mp hnodup).2.2 _ hmem _ List.mem_cons_self rfl
        have hinsert : ((map.insert head.1 head.2).entries ++ rest).Perm
            (map.entries ++ head :: rest) :=
          ((entries_insert_perm hfresh head.2).append_right rest).trans List.perm_middle.symm
        exact (ih _ ((hinsert.map Prod.fst).nodup_iff.mpr hnodup)).trans hinsert
  exact hfold empty entries hnodup

theorem names_nodup (map : NameMap β) : map.names.Nodup :=
  ascending_nodup map.names_ascending

@[simp] theorem contains_iff_mem {map : NameMap β} {name : String} :
    map.contains name = true ↔ name ∈ map.names := by
  simp [contains]

/-- Since no name is repeated, the entry of a name is the one that is found. -/
theorem mem_entries_iff_get? {map : NameMap β} {name : String} {value : β} :
    (name, value) ∈ map.entries ↔ map.get? name = some value := by
  constructor
  · intro hmem
    obtain ⟨front, back, hsplit⟩ := List.append_of_mem hmem
    have hnodup : (front.map Prod.fst ++ name :: back.map Prod.fst).Nodup := by
      simpa [names, hsplit] using map.names_nodup
    have hfront : ∀ entry ∈ front, name ≠ entry.1 := by
      intro entry hentry heq
      have hdisjoint := (List.nodup_append.mp hnodup).2.2
      exact hdisjoint entry.1 (List.mem_map_of_mem hentry) name List.mem_cons_self heq.symm
    exact List.lookup_eq_some_iff.mpr
      ⟨front, back, hsplit, fun entry hentry => by simpa using hfront entry hentry⟩
  · intro hget
    obtain ⟨front, back, hsplit, -⟩ := List.lookup_eq_some_iff.mp hget
    simp [hsplit]

theorem entries_nodup (map : NameMap β) : map.entries.Nodup := by
  refine (List.pairwise_map.mp map.ascending).imp ?_
  rintro entry _ hlt rfl
  exact String.lt_irrefl entry.1 hlt

theorem ext_of_get? {left right : NameMap β} (hget : ∀ name, left.get? name = right.get? name) :
    left = right := by
  refine ext_of_perm ?_
  refine (List.perm_ext_iff_of_nodup left.entries_nodup right.entries_nodup).mpr ?_
  rintro ⟨name, value⟩
  rw [mem_entries_iff_get?, mem_entries_iff_get?, hget]

theorem mem_names_iff_get? {map : NameMap β} {name : String} :
    name ∈ map.names ↔ ∃ value, map.get? name = some value := by
  simp [names, ← mem_entries_iff_get?]

theorem get?_eq_none_iff {map : NameMap β} {name : String} :
    map.get? name = none ↔ name ∉ map.names := by
  simp [Option.eq_none_iff_forall_ne_some, mem_names_iff_get?]

@[simp] theorem get?_mapValues (map : NameMap β) (f : String → β → γ) (name : String) :
    (map.mapValues f).get? name = (map.get? name).map (f name) := by
  simp only [get?, mapValues]
  induction map.entries with
  | nil => rfl
  | cons head rest ih =>
      obtain ⟨other, value⟩ := head
      by_cases heq : name = other
      · subst heq
        simp
      · have hbeq : (name == other) = false := by simpa using heq
        simp [List.lookup_cons, hbeq, ih]

theorem get?_adjust (map : NameMap β) (name other : String) (f : β → β) :
    (map.adjust name f).get? other =
      if other = name then (map.get? other).map f else map.get? other := by
  by_cases heq : other = name <;> simp [adjust, heq]

@[simp] theorem names_erase (map : NameMap β) (name : String) :
    (map.erase name).names = map.names.filter (· ≠ name) := by
  simp [names, erase, List.filter_map, Function.comp_def]

theorem get?_erase (map : NameMap β) (name other : String) :
    (map.erase name).get? other = if other = name then none else map.get? other := by
  by_cases heq : other = name
  · simp [heq, get?_eq_none_iff]
  · rw [if_neg heq]
    refine Option.ext fun value => ?_
    rw [← mem_entries_iff_get?, ← mem_entries_iff_get?]
    simp [erase, heq]

theorem get?_of_get?_erase {map : NameMap β} {name other : String} {value : β}
    (hget : (map.erase name).get? other = some value) : map.get? other = some value := by
  rw [get?_erase] at hget
  split at hget
  · exact absurd hget (by simp)
  · exact hget

/-- Erasing a present name takes out just this name. -/
theorem names_perm_cons_erase {map : NameMap β} {name : String} (hmem : name ∈ map.names) :
    map.names.Perm (name :: (map.erase name).names) := by
  have herase : (map.erase name).names = map.names.erase name := by
    rw [names_erase, map.names_nodup.erase_eq_filter name]
    exact List.filter_congr fun other _ => Bool.eq_iff_iff.mpr (by simp)
  rw [herase]
  exact List.perm_cons_erase hmem

theorem extract?_eq_none_iff {map : NameMap β} {name : String} :
    map.extract? name = none ↔ name ∉ map.names := by
  simp [extract?, get?_eq_none_iff]

theorem extract?_eq_some_iff {map rest : NameMap β} {name : String} {value : β} :
    map.extract? name = some (value, rest) ↔ map.get? name = some value ∧ map.erase name = rest := by
  simp only [extract?, Option.map_eq_some_iff, Prod.mk.injEq]
  constructor
  · rintro ⟨found, hget, rfl, herase⟩
    exact ⟨hget, herase⟩
  · rintro ⟨hget, herase⟩
    exact ⟨value, hget, rfl, herase⟩

theorem popLast?_eq_none_iff {map : NameMap β} : map.popLast? = none ↔ map.names = [] := by
  unfold popLast?
  split
  · rename_i hlast
    simpa [names] using List.getLast?_eq_none_iff.mp hlast
  · rename_i entry hlast
    have hne : map.entries ≠ [] := by
      intro hnil
      simp [hnil] at hlast
    simpa [names] using hne

theorem entries_of_popLast? {map rest : NameMap β} {entry : String × β}
    (hpop : map.popLast? = some (entry, rest)) : map.entries = rest.entries ++ [entry] := by
  unfold popLast? at hpop
  split at hpop
  · exact absurd hpop (by simp)
  · rename_i last hlast
    obtain ⟨rfl, rfl⟩ : last = entry ∧ _ = rest := by simpa using hpop
    obtain ⟨front, hfront⟩ := List.getLast?_eq_some_iff.mp hlast
    simp [hfront]

theorem popLast?_of_entries {map rest : NameMap β} {entry : String × β}
    (hentries : map.entries = rest.entries ++ [entry]) : map.popLast? = some (entry, rest) := by
  unfold popLast?
  split
  · rename_i hlast
    simp [hentries] at hlast
  · rename_i last hlast
    obtain rfl : entry = last := by simpa [hentries] using hlast
    simp [hentries]

theorem names_of_popLast? {map rest : NameMap β} {entry : String × β}
    (hpop : map.popLast? = some (entry, rest)) : map.names = rest.names ++ [entry.1] := by
  simp [names, entries_of_popLast? hpop]

theorem get?_of_popLast? {map rest : NameMap β} {entry : String × β}
    (hpop : map.popLast? = some (entry, rest)) : map.get? entry.1 = some entry.2 := by
  rw [← mem_entries_iff_get?, entries_of_popLast? hpop]
  simp

theorem get?_of_get?_popLast? {map rest : NameMap β} {entry : String × β} {name : String}
    {value : β} (hpop : map.popLast? = some (entry, rest)) (hget : rest.get? name = some value) :
    map.get? name = some value := by
  rw [← mem_entries_iff_get?] at hget ⊢
  rw [entries_of_popLast? hpop]
  exact List.mem_append_left [entry] hget

/-- Taking out the greatest name is erasing it. -/
theorem erase_of_popLast? {map rest : NameMap β} {entry : String × β}
    (hpop : map.popLast? = some (entry, rest)) : map.erase entry.1 = rest := by
  have hentries : map.entries = rest.entries ++ [entry] := entries_of_popLast? hpop
  have hfresh : ∀ other ∈ rest.entries, other.1 ≠ entry.1 := by
    have hnodup := map.names_nodup
    rw [names_of_popLast? hpop] at hnodup
    intro other hother
    exact (List.nodup_append.mp hnodup).2.2 other.1 (List.mem_map_of_mem hother) entry.1
      List.mem_cons_self
  have hkept : (map.erase entry.1).entries = rest.entries := by
    simpa [erase, hentries] using hfresh
  cases rest
  simpa [erase] using hkept

end NameMap

end StepChain
