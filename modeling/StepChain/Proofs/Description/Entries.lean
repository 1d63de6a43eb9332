import StepChain.Description
import Mathlib.Data.List.Forall2
import Mathlib.Data.List.Induction

/-!
# The entries of a description

What a key stands for: metadata, an action or a modifier. Taking in one entry either
adds what it stands for to the parts so far or reports what is wrong with it; a run
over the entries comes to the parts that all of them amount to, or ends at the first
one at fault.
-/

namespace StepChain

/-- What the key of an entry stands for. -/
inductive Role where
  | metadata
  | action
  | modifier
  deriving DecidableEq

theorem forall₂_concat_left_iff {ι κ : Type} {Rel : ι → κ → Prop} {front : List ι} {last : ι}
    {made : List κ} :
    List.Forall₂ Rel (front ++ [last]) made ↔
      ∃ earlier added, made = earlier ++ [added] ∧ List.Forall₂ Rel front earlier ∧
        Rel last added := by
  constructor
  · intro hmade
    induction front generalizing made with
    | nil =>
        obtain ⟨added, rest, hlast, hrest, rfl⟩ := List.forall₂_cons_left_iff.mp hmade
        obtain rfl : rest = [] := List.forall₂_nil_left_iff.mp hrest
        exact ⟨[], added, rfl, .nil, hlast⟩
    | cons head front ih =>
        obtain ⟨first, rest, hhead, hrest, rfl⟩ := List.forall₂_cons_left_iff.mp hmade
        obtain ⟨earlier, added, rfl, hearlier, hlast⟩ := ih hrest
        exact ⟨first :: earlier, added, rfl, .cons hhead hearlier, hlast⟩
  · rintro ⟨earlier, added, rfl, hearlier, hlast⟩
    exact List.rel_append hearlier (.cons hlast .nil)

namespace Vocabulary

variable {σ α μ : Type}

/-- The role of a key, if it has one. What could be both is an action. -/
def role? (vocabulary : Vocabulary μ) (resolver : Resolver σ α) (key : Yaml) : Option Role :=
  key.text?.bind fun name =>
    if name ∈ vocabulary.metadataKeys then some .metadata
    else if (resolver.action vocabulary.actionSpace name).isOk then some .action
    else if (resolver.modifier vocabulary.modifierSpace name).isOk then some .modifier
    else none

def entriesOf (vocabulary : Vocabulary μ) (resolver : Resolver σ α) (role : Role)
    (entries : YamlMapping) : YamlMapping :=
  entries.filter fun entry => vocabulary.role? resolver entry.1 = some role

/-- A key that is no metadata names an action. -/
structure NamesAction (vocabulary : Vocabulary μ) (resolver : Resolver σ α) (key : Yaml)
    (name : String) (factory : Factory (Action σ α)) : Prop where
  text : key.text? = some name
  free : name ∉ vocabulary.metadataKeys
  found : resolver.action vocabulary.actionSpace name = .ok factory

structure NamesModifier (vocabulary : Vocabulary μ) (resolver : Resolver σ α) (key : Yaml)
    (name : String) (factory : Factory (Modifier σ α)) : Prop where
  text : key.text? = some name
  free : name ∉ vocabulary.metadataKeys
  missing : ∃ missing, resolver.action vocabulary.actionSpace name = .error missing
  found : resolver.modifier vocabulary.modifierSpace name = .ok factory

structure NamesNothing (vocabulary : Vocabulary μ) (resolver : Resolver σ α) (key : Yaml)
    (name : String) : Prop where
  text : key.text? = some name
  free : name ∉ vocabulary.metadataKeys
  noAction : ∃ missing, resolver.action vocabulary.actionSpace name = .error missing
  noModifier : ∃ missing, resolver.modifier vocabulary.modifierSpace name = .error missing

/-- The action that the factory an entry names makes of key, value and address. -/
def MakesAction (vocabulary : Vocabulary μ) (resolver : Resolver σ α) (addr : Address)
    (entry : Yaml × Yaml) (action : Action σ α) : Prop :=
  ∃ name factory, vocabulary.NamesAction resolver entry.1 name factory ∧
    factory name entry.2 (addr.key name) = .ok action

def MakesModifier (vocabulary : Vocabulary μ) (resolver : Resolver σ α) (addr : Address)
    (entry : Yaml × Yaml) (made : String × Modifier σ α) : Prop :=
  ∃ factory, vocabulary.NamesModifier resolver entry.1 made.1 factory ∧
    factory made.1 entry.2 (addr.key made.1) = .ok made.2

/-! ## Roles -/

section

variable {vocabulary : Vocabulary μ} {resolver : Resolver σ α} {key : Yaml} {name : String}

theorem role?_eq_metadata_iff :
    vocabulary.role? resolver key = some .metadata ↔
      ∃ name, key.text? = some name ∧ name ∈ vocabulary.metadataKeys := by
  unfold role?
  cases key.text? with
  | none => simp
  | some name =>
      simp only [Option.bind_some, Option.some.injEq, exists_eq_left']
      split
      · simp [*]
      · simp only [*, iff_false]
        split
        · simp
        · split <;> simp

theorem NamesAction.role {factory : Factory (Action σ α)}
    (hnames : vocabulary.NamesAction resolver key name factory) :
    vocabulary.role? resolver key = some .action := by
  simp [role?, hnames.text, hnames.free, hnames.found, Except.isOk, Except.toBool]

theorem NamesModifier.role {factory : Factory (Modifier σ α)}
    (hnames : vocabulary.NamesModifier resolver key name factory) :
    vocabulary.role? resolver key = some .modifier := by
  obtain ⟨missing, hmissing⟩ := hnames.missing
  simp [role?, hnames.text, hnames.free, hmissing, hnames.found, Except.isOk, Except.toBool]

theorem NamesNothing.role (hnames : vocabulary.NamesNothing resolver key name) :
    vocabulary.role? resolver key = none := by
  obtain ⟨missing, hmissing⟩ := hnames.noAction
  obtain ⟨absent, habsent⟩ := hnames.noModifier
  simp [role?, hnames.text, hnames.free, hmissing, habsent, Except.isOk, Except.toBool]

theorem role?_of_nameless (htext : key.text? = none) :
    vocabulary.role? resolver key = none := by
  simp [role?, htext]

theorem names_cases (vocabulary : Vocabulary μ) (resolver : Resolver σ α) (key : Yaml) :
    key.text? = none ∨ vocabulary.role? resolver key = some .metadata ∨
      (∃ name factory, vocabulary.NamesAction resolver key name factory) ∨
      (∃ name factory, vocabulary.NamesModifier resolver key name factory) ∨
      ∃ name, vocabulary.NamesNothing resolver key name := by
  cases htext : key.text? with
  | none => exact .inl rfl
  | some name =>
      refine .inr ?_
      by_cases hfree : name ∈ vocabulary.metadataKeys
      · exact .inl (role?_eq_metadata_iff.mpr ⟨name, htext, hfree⟩)
      cases haction : resolver.action vocabulary.actionSpace name with
      | ok factory => exact .inr (.inl ⟨name, factory, htext, hfree, haction⟩)
      | error missing =>
          cases hmodifier : resolver.modifier vocabulary.modifierSpace name with
          | ok factory =>
              exact .inr (.inr (.inl ⟨name, factory, htext, hfree, ⟨missing, haction⟩, hmodifier⟩))
          | error absent =>
              exact .inr (.inr (.inr ⟨name, htext, hfree, ⟨missing, haction⟩, ⟨absent, hmodifier⟩⟩))

theorem role?_eq_action_iff :
    vocabulary.role? resolver key = some .action ↔
      ∃ name factory, vocabulary.NamesAction resolver key name factory := by
  refine ⟨fun hrole => ?_, fun ⟨_, _, hnames⟩ => hnames.role⟩
  rcases names_cases vocabulary resolver key with
    htext | hmetadata | haction | ⟨_, _, hmodifier⟩ | ⟨_, hnothing⟩
  · simp [role?_of_nameless htext] at hrole
  · simp [hmetadata] at hrole
  · exact haction
  · simp [hmodifier.role] at hrole
  · simp [hnothing.role] at hrole

theorem entriesOf_append (role : Role) (front back : YamlMapping) :
    vocabulary.entriesOf resolver role (front ++ back) =
      vocabulary.entriesOf resolver role front ++ vocabulary.entriesOf resolver role back :=
  List.filter_append ..

theorem entriesOf_single_of_role {role : Role} {entry : Yaml × Yaml}
    (hrole : vocabulary.role? resolver entry.1 = some role) (other : Role) :
    vocabulary.entriesOf resolver other [entry] = if role = other then [entry] else [] := by
  by_cases heq : role = other <;> simp [entriesOf, hrole, heq]

end

/-! ## One entry -/

/-- What taking in an entry makes of the parts so far. -/
inductive Adds (vocabulary : Vocabulary μ) (resolver : Resolver σ α) (addr : Address)
    (parts : Parts σ α) (entry : Yaml × Yaml) : Parts σ α → Prop where
  | metadata (hrole : vocabulary.role? resolver entry.1 = some .metadata) :
      Adds vocabulary resolver addr parts entry
        { parts with metadata := parts.metadata.insert entry.1 entry.2 }
  | action {action : Action σ α} (hfirst : parts.action = none)
      (hmakes : vocabulary.MakesAction resolver addr entry action) :
      Adds vocabulary resolver addr parts entry { parts with action := some action }
  | modifier {made : String × Modifier σ α}
      (hmakes : vocabulary.MakesModifier resolver addr entry made) :
      Adds vocabulary resolver addr parts entry
        { parts with modifiers := parts.modifiers.insert made.1 made.2 }

inductive Rejects (vocabulary : Vocabulary μ) (resolver : Resolver σ α) (addr : Address)
    (parts : Parts σ α) (entry : Yaml × Yaml) : StepError → Prop where
  | nameless (htext : entry.1.text? = none) :
      Rejects vocabulary resolver addr parts entry
        ((Problem.malformedDescription "a mapping with a non-string key").foundAt addr)
  | secondAction {name : String} {factory : Factory (Action σ α)} {existing : Action σ α}
      (hnames : vocabulary.NamesAction resolver entry.1 name factory)
      (hexisting : parts.action = some existing) :
      Rejects vocabulary resolver addr parts entry
        ((Problem.secondAction name existing.name).foundAt addr)
  | actionFails {name : String} {factory : Factory (Action σ α)} {error : StepError}
      (hfirst : parts.action = none)
      (hnames : vocabulary.NamesAction resolver entry.1 name factory)
      (hfails : factory name entry.2 (addr.key name) = .error error) :
      Rejects vocabulary resolver addr parts entry error
  | modifierFails {name : String} {factory : Factory (Modifier σ α)} {error : StepError}
      (hnames : vocabulary.NamesModifier resolver entry.1 name factory)
      (hfails : factory name entry.2 (addr.key name) = .error error) :
      Rejects vocabulary resolver addr parts entry error
  | unknown {name : String} (hnames : vocabulary.NamesNothing resolver entry.1 name) :
      Rejects vocabulary resolver addr parts entry ((Problem.unknownKey name).foundAt addr)

section

variable {vocabulary : Vocabulary μ} {resolver : Resolver σ α} {addr : Address}
  {parts next : Parts σ α} {entry : Yaml × Yaml} {error : StepError}

theorem Adds.addEntry_eq (hadds : vocabulary.Adds resolver addr parts entry next) :
    vocabulary.addEntry resolver addr parts entry = .ok next := by
  cases hadds with
  | metadata hrole =>
      obtain ⟨name, htext, hmem⟩ := role?_eq_metadata_iff.mp hrole
      simp [addEntry, htext, hmem]
  | action hfirst hmakes =>
      obtain ⟨name, factory, hnames, hmade⟩ := hmakes
      simp [addEntry, hnames.text, hnames.free, hnames.found, hfirst, hmade, bind, Except.bind]
  | modifier hmakes =>
      obtain ⟨factory, hnames, hmade⟩ := hmakes
      obtain ⟨missing, hmissing⟩ := hnames.missing
      simp [addEntry, hnames.text, hnames.free, hmissing, hnames.found, hmade, bind, Except.bind]

theorem Rejects.addEntry_eq (hrejects : vocabulary.Rejects resolver addr parts entry error) :
    vocabulary.addEntry resolver addr parts entry = .error error := by
  cases hrejects with
  | nameless htext => simp [addEntry, htext]
  | secondAction hnames hexisting =>
      simp [addEntry, hnames.text, hnames.free, hnames.found, hexisting]
  | actionFails hfirst hnames hfails =>
      simp [addEntry, hnames.text, hnames.free, hnames.found, hfirst, hfails, bind, Except.bind]
  | modifierFails hnames hfails =>
      obtain ⟨missing, hmissing⟩ := hnames.missing
      simp [addEntry, hnames.text, hnames.free, hmissing, hnames.found, hfails, bind, Except.bind]
  | unknown hnames =>
      obtain ⟨missing, hmissing⟩ := hnames.noAction
      obtain ⟨absent, habsent⟩ := hnames.noModifier
      simp [addEntry, hnames.text, hnames.free, hmissing, habsent]

theorem adds_or_rejects (vocabulary : Vocabulary μ) (resolver : Resolver σ α) (addr : Address)
    (parts : Parts σ α) (entry : Yaml × Yaml) :
    (∃ next, vocabulary.Adds resolver addr parts entry next) ∨
      ∃ error, vocabulary.Rejects resolver addr parts entry error := by
  rcases names_cases vocabulary resolver entry.1 with
    htext | hrole | ⟨name, factory, hnames⟩ | ⟨name, factory, hnames⟩ | ⟨name, hnames⟩
  · exact .inr ⟨_, .nameless htext⟩
  · exact .inl ⟨_, .metadata hrole⟩
  · cases hparts : parts.action with
    | some existing => exact .inr ⟨_, .secondAction hnames hparts⟩
    | none =>
        cases hmade : factory name entry.2 (addr.key name) with
        | ok action => exact .inl ⟨_, .action hparts ⟨name, factory, hnames, hmade⟩⟩
        | error error => exact .inr ⟨_, .actionFails hparts hnames hmade⟩
  · cases hmade : factory name entry.2 (addr.key name) with
    | ok modifier =>
        have hmakes : vocabulary.MakesModifier resolver addr entry (name, modifier) :=
          ⟨factory, hnames, hmade⟩
        exact .inl ⟨_, .modifier hmakes⟩
    | error error => exact .inr ⟨_, .modifierFails hnames hmade⟩
  · exact .inr ⟨_, .unknown hnames⟩

theorem addEntry_eq_ok_iff :
    vocabulary.addEntry resolver addr parts entry = .ok next ↔
      vocabulary.Adds resolver addr parts entry next := by
  refine ⟨fun hok => ?_, Adds.addEntry_eq⟩
  obtain ⟨other, hadds⟩ | ⟨error, hrejects⟩ :=
    vocabulary.adds_or_rejects resolver addr parts entry
  · obtain rfl : other = next := Except.ok.inj (hadds.addEntry_eq.symm.trans hok)
    exact hadds
  · cases hrejects.addEntry_eq.symm.trans hok

theorem addEntry_eq_error_iff :
    vocabulary.addEntry resolver addr parts entry = .error error ↔
      vocabulary.Rejects resolver addr parts entry error := by
  refine ⟨fun herror => ?_, Rejects.addEntry_eq⟩
  obtain ⟨other, hadds⟩ | ⟨other, hrejects⟩ :=
    vocabulary.adds_or_rejects resolver addr parts entry
  · cases hadds.addEntry_eq.symm.trans herror
  · obtain rfl : other = error := Except.error.inj (hrejects.addEntry_eq.symm.trans herror)
    exact hrejects

end

/-! ## All entries -/

/-- The parts that some entries amount to: at most one action, of several modifiers
under one name the last, and the metadata as a mapping. -/
structure Amounts (vocabulary : Vocabulary μ) (resolver : Resolver σ α) (addr : Address)
    (entries : YamlMapping) (parts : Parts σ α) : Prop where
  resolved : ∀ entry ∈ entries, ∃ role, vocabulary.role? resolver entry.1 = some role
  action : List.Forall₂ (vocabulary.MakesAction resolver addr)
    (vocabulary.entriesOf resolver .action entries) parts.action.toList
  modifiers : ∃ made,
    List.Forall₂ (vocabulary.MakesModifier resolver addr)
        (vocabulary.entriesOf resolver .modifier entries) made ∧
      parts.modifiers = NameMap.ofList made
  metadata : parts.metadata =
    YamlMapping.ofEntries (vocabulary.entriesOf resolver .metadata entries)

section

variable {vocabulary : Vocabulary μ} {resolver : Resolver σ α} {addr : Address}
  {entries : YamlMapping} {parts next : Parts σ α} {entry : Yaml × Yaml} {error : StepError}

theorem amounts_nil_iff : vocabulary.Amounts resolver addr [] parts ↔ parts = {} := by
  constructor
  · rintro ⟨-, haction, ⟨made, hmade, hmodifiers⟩, hmetadata⟩
    obtain rfl : made = [] := List.forall₂_nil_left_iff.mp hmade
    have hnone : parts.action = none :=
      Option.toList_eq_nil_iff.mp (List.forall₂_nil_left_iff.mp haction)
    obtain ⟨action, modifiers, metadata⟩ := parts
    obtain rfl : action = none := hnone
    obtain rfl : modifiers = .empty := hmodifiers
    obtain rfl : metadata = [] := hmetadata
    rfl
  · rintro rfl
    exact ⟨by simp, .nil, ⟨[], .nil, rfl⟩, rfl⟩

/-- An entry that is taken in goes to the parts of its role and leaves the others. -/
theorem Amounts.add (hamounts : vocabulary.Amounts resolver addr entries parts)
    (hadds : vocabulary.Adds resolver addr parts entry next) :
    vocabulary.Amounts resolver addr (entries ++ [entry]) next := by
  obtain ⟨hresolved, haction, ⟨made, hmade, hmodifiers⟩, hmetadata⟩ := hamounts
  have hall : ∀ {role : Role}, vocabulary.role? resolver entry.1 = some role →
      ∀ other ∈ entries ++ [entry], ∃ role, vocabulary.role? resolver other.1 = some role := by
    intro role hrole other hother
    rcases List.mem_append.mp hother with hother | hother
    · exact hresolved other hother
    · rw [List.mem_singleton.mp hother]
      exact ⟨role, hrole⟩
  cases hadds with
  | metadata hrole =>
      refine ⟨hall hrole, ?_, ⟨made, ?_, hmodifiers⟩, ?_⟩ <;>
        simp only [entriesOf_append, entriesOf_single_of_role hrole]
      · simpa using haction
      · simpa using hmade
      · rw [if_pos trivial, YamlMapping.ofEntries_append, hmetadata]
  | action hfirst hmakes =>
      obtain ⟨name, factory, hnames, -⟩ := id hmakes
      refine ⟨hall hnames.role, ?_, ⟨made, ?_, hmodifiers⟩, ?_⟩ <;>
        simp only [entriesOf_append, entriesOf_single_of_role hnames.role]
      · have hnone : vocabulary.entriesOf resolver .action entries = [] := by
          simpa [hfirst] using haction
        simpa [hnone] using hmakes
      · simpa using hmade
      · simpa using hmetadata
  | @modifier added hmakes =>
      obtain ⟨factory, hnames, -⟩ := id hmakes
      refine ⟨hall hnames.role, ?_, ⟨made ++ [added], ?_, ?_⟩, ?_⟩ <;>
        simp only [entriesOf_append, entriesOf_single_of_role hnames.role]
      · simpa using haction
      · exact List.rel_append hmade (List.forall₂_cons.mpr ⟨hmakes, .nil⟩)
      · rw [hmodifiers, NameMap.ofList_concat]
      · simpa using hmetadata

theorem parts_append (front back : YamlMapping) :
    vocabulary.parts resolver addr (front ++ back) =
      (vocabulary.parts resolver addr front).bind fun parts =>
        back.foldlM (vocabulary.addEntry resolver addr) parts :=
  List.foldlM_append

theorem parts_append_of_error (back : YamlMapping)
    (herror : vocabulary.parts resolver addr entries = .error error) :
    vocabulary.parts resolver addr (entries ++ back) = .error error := by
  rw [parts_append, herror]
  rfl

theorem parts_concat_of_ok (entry : Yaml × Yaml)
    (hparts : vocabulary.parts resolver addr entries = .ok parts) :
    vocabulary.parts resolver addr (entries ++ [entry]) =
      vocabulary.addEntry resolver addr parts entry := by
  rw [parts_append, hparts]
  exact bind_pure (vocabulary.addEntry resolver addr parts entry)

theorem Amounts.of_concat {front : YamlMapping}
    (hamounts : vocabulary.Amounts resolver addr (front ++ [entry]) next) :
    ∃ parts, vocabulary.Amounts resolver addr front parts ∧
      vocabulary.Adds resolver addr parts entry next := by
  obtain ⟨hresolved, haction, ⟨made, hmade, hmodifiers⟩, hmetadata⟩ := hamounts
  have hfront : ∀ other ∈ front, ∃ role, vocabulary.role? resolver other.1 = some role :=
    fun other hother => hresolved other (List.mem_append_left [entry] hother)
  -- The role of the last entry tells which part to take it out of.
  obtain ⟨role, hrole⟩ := hresolved entry (by simp)
  simp only [entriesOf_append, entriesOf_single_of_role hrole] at haction hmade hmetadata
  cases role with
  | metadata =>
      let parts : Parts σ α :=
        { next with
          metadata := YamlMapping.ofEntries (vocabulary.entriesOf resolver .metadata front) }
      have hnext : next = { parts with metadata := parts.metadata.insert entry.1 entry.2 } := by
        rw [if_pos rfl, YamlMapping.ofEntries_append] at hmetadata
        simp [parts, ← hmetadata]
      refine ⟨parts, ⟨hfront, ?_, ⟨made, ?_, hmodifiers⟩, rfl⟩, ?_⟩
      · simpa using haction
      · simpa using hmade
      · rw [hnext]
        exact .metadata hrole
  | action =>
      -- There is only one action, so that there was none before this entry.
      obtain ⟨earlier, action, hsome, hearlier, hmakes⟩ :=
        forall₂_concat_left_iff.mp (by simpa using haction)
      obtain ⟨rfl, haction⟩ : earlier = [] ∧ next.action = some action := by
        cases hnext : next.action with
        | none => simp [hnext] at hsome
        | some found =>
            rw [hnext, Option.toList_some, eq_comm, List.append_eq_singleton_iff] at hsome
            simpa [eq_comm] using hsome
      let parts : Parts σ α := { next with action := none }
      have hnext : next = { parts with action := some action } := by
        simp [parts, ← haction]
      refine ⟨parts, ⟨hfront, hearlier, ⟨made, ?_, hmodifiers⟩, ?_⟩, ?_⟩
      · simpa using hmade
      · simpa using hmetadata
      · rw [hnext]
        exact .action rfl hmakes
  | modifier =>
      obtain ⟨earlier, added, rfl, hearlier, hmakes⟩ :=
        forall₂_concat_left_iff.mp (by simpa using hmade)
      let parts : Parts σ α := { next with modifiers := NameMap.ofList earlier }
      have hnext : next = { parts with modifiers := parts.modifiers.insert added.1 added.2 } := by
        have hlast : next.modifiers = (NameMap.ofList earlier).insert added.1 added.2 := by
          rw [hmodifiers, NameMap.ofList_concat]
        simp [parts, ← hlast]
      refine ⟨parts, ⟨hfront, ?_, ⟨earlier, hearlier, rfl⟩, ?_⟩, ?_⟩
      · simpa using haction
      · simpa using hmetadata
      · rw [hnext]
        exact .modifier hmakes

theorem amounts_concat_iff :
    vocabulary.Amounts resolver addr (entries ++ [entry]) next ↔
      ∃ parts, vocabulary.Amounts resolver addr entries parts ∧
        vocabulary.Adds resolver addr parts entry next :=
  ⟨Amounts.of_concat, fun ⟨_, hamounts, hadds⟩ => hamounts.add hadds⟩

theorem parts_concat_eq_ok_iff :
    vocabulary.parts resolver addr (entries ++ [entry]) = .ok next ↔
      ∃ parts, vocabulary.parts resolver addr entries = .ok parts ∧
        vocabulary.Adds resolver addr parts entry next := by
  cases hparts : vocabulary.parts resolver addr entries with
  | error error => simp [parts_append_of_error [entry] hparts]
  | ok parts => simp [parts_concat_of_ok entry hparts, addEntry_eq_ok_iff]

/-- The run over the entries comes to what they amount to. -/
theorem parts_eq_ok_iff :
    vocabulary.parts resolver addr entries = .ok parts ↔
      vocabulary.Amounts resolver addr entries parts := by
  induction entries using List.reverseRecOn generalizing parts with
  | nil =>
      rw [amounts_nil_iff]
      exact ⟨fun hok => (Except.ok.inj hok).symm, fun heq => heq ▸ rfl⟩
  | append_singleton front entry ih =>
      rw [parts_concat_eq_ok_iff, amounts_concat_iff]
      simp only [ih]

theorem parts_eq_error_iff :
    vocabulary.parts resolver addr entries = .error error ↔
      ∃ front entry back parts, entries = front ++ entry :: back ∧
        vocabulary.parts resolver addr front = .ok parts ∧
        vocabulary.Rejects resolver addr parts entry error := by
  constructor
  · intro herror
    -- The last entry is rejected, or already one before it was.
    induction entries using List.reverseRecOn with
    | nil => cases herror
    | append_singleton front entry ih =>
        cases hfront : vocabulary.parts resolver addr front with
        | ok parts =>
            rw [parts_concat_of_ok entry hfront] at herror
            exact ⟨front, entry, [], parts, rfl, hfront, addEntry_eq_error_iff.mp herror⟩
        | error earlier =>
            obtain rfl : earlier = error :=
              Except.error.inj ((parts_append_of_error [entry] hfront).symm.trans herror)
            obtain ⟨before, rejected, after, parts, rfl, hbefore, hrejects⟩ := ih hfront
            exact ⟨before, rejected, after ++ [entry], parts, by simp, hbefore, hrejects⟩
  · rintro ⟨front, entry, back, parts, rfl, hfront, hrejects⟩
    rw [List.append_cons]
    apply parts_append_of_error
    rw [parts_concat_of_ok entry hfront, hrejects.addEntry_eq]

end

/-! ## Descriptions of an action -/

/-- The entries describe an action with modifiers: every key has a role, one names the
action, and the factories make the items. The modifiers stand under their names, in
document order. -/
structure Describes (vocabulary : Vocabulary μ) (resolver : Resolver σ α) (addr : Address)
    (entries : YamlMapping) (action : Action σ α) (made : List (String × Modifier σ α)) :
    Prop where
  resolved : ∀ entry ∈ entries, ∃ role, vocabulary.role? resolver entry.1 = some role
  action : ∃ entry, vocabulary.entriesOf resolver .action entries = [entry] ∧
    vocabulary.MakesAction resolver addr entry action
  modifiers : List.Forall₂ (vocabulary.MakesModifier resolver addr)
    (vocabulary.entriesOf resolver .modifier entries) made

section

variable {vocabulary : Vocabulary μ} {resolver : Resolver σ α} {addr : Address}
  {entries : YamlMapping} {parts : Parts σ α} {action : Action σ α}
  {made : List (String × Modifier σ α)}

theorem Describes.parts_eq (hdescribes : vocabulary.Describes resolver addr entries action made) :
    vocabulary.parts resolver addr entries =
      .ok
        { action := some action
          modifiers := NameMap.ofList made
          metadata :=
            YamlMapping.ofEntries (vocabulary.entriesOf resolver .metadata entries) } := by
  obtain ⟨hresolved, ⟨entry, hentry, hmakes⟩, hmade⟩ := hdescribes
  refine parts_eq_ok_iff.mpr ⟨hresolved, ?_, ⟨made, hmade, rfl⟩, rfl⟩
  rw [hentry]
  exact .cons hmakes .nil

theorem Amounts.describes (hamounts : vocabulary.Amounts resolver addr entries parts)
    (haction : parts.action = some action) :
    ∃ made, vocabulary.Describes resolver addr entries action made := by
  obtain ⟨hresolved, hmakes, ⟨made, hmade, -⟩, -⟩ := hamounts
  rw [haction, Option.toList_some] at hmakes
  obtain ⟨entry, rest, hentry, hrest, hsplit⟩ := List.forall₂_cons_right_iff.mp hmakes
  obtain rfl : rest = [] := List.forall₂_nil_right_iff.mp hrest
  exact ⟨made, hresolved, ⟨entry, hsplit, hentry⟩, hmade⟩

theorem Describes.readStep_eq (policy : CyclePolicy)
    (hdescribes : vocabulary.Describes resolver addr entries action made) :
    vocabulary.readStep resolver policy (.map entries) addr =
      vocabulary.assemble policy addr action (NameMap.ofList made)
        (YamlMapping.ofEntries (vocabulary.entriesOf resolver .metadata entries)) := by
  simp [readStep, hdescribes.parts_eq, bind, Except.bind]

/-- A mapping names no action at all, has an entry at fault, or describes an action. -/
theorem describes_cases (vocabulary : Vocabulary μ) (resolver : Resolver σ α) (addr : Address)
    (entries : YamlMapping) :
    (∃ error, vocabulary.parts resolver addr entries = .error error) ∨
      (∃ parts, vocabulary.parts resolver addr entries = .ok parts ∧ parts.action = none) ∨
      ∃ action made, vocabulary.Describes resolver addr entries action made := by
  cases hparts : vocabulary.parts resolver addr entries with
  | error error => exact .inl ⟨error, rfl⟩
  | ok parts =>
      cases haction : parts.action with
      | none => exact .inr (.inl ⟨parts, rfl, haction⟩)
      | some action =>
          obtain ⟨made, hdescribes⟩ := (parts_eq_ok_iff.mp hparts).describes haction
          exact .inr (.inr ⟨action, made, hdescribes⟩)

theorem readStep_of_parts_error {error : StepError} (policy : CyclePolicy)
    (hparts : vocabulary.parts resolver addr entries = .error error) :
    vocabulary.readStep resolver policy (.map entries) addr = .error error := by
  simp [readStep, hparts, bind, Except.bind]

theorem readStep_of_no_action (policy : CyclePolicy)
    (hparts : vocabulary.parts resolver addr entries = .ok parts)
    (hnone : parts.action = none) :
    vocabulary.readStep resolver policy (.map entries) addr =
      .error (Problem.missingAction.foundAt addr) := by
  simp [readStep, hparts, hnone, bind, Except.bind]

end

end Vocabulary

end StepChain
