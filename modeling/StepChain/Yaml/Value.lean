/-!
# YAML values

The values that documents hold. A mapping lists its entries in document order.
Two values are the same when they are equal up to the order of mapping entries
and a leading `!` of tags; all NaNs are the same, as are both zeros.
-/

namespace StepChain

/-- A YAML value. -/
inductive Yaml where
  | null
  | bool (value : Bool)
  | int (value : Int)
  | float (value : Float)
  | str (text : String)
  | seq (items : List Yaml)
  | map (entries : List (Yaml × Yaml))
  | tagged (tag : String) (value : Yaml)
  deriving Inhabited

namespace Yaml

/-- A tag without the exclamation mark that introduces it. -/
def bareTag (tag : String) : String :=
  match tag.toList with
  | '!' :: c :: rest => String.ofList (c :: rest)
  | _ => tag

/-- Whether two numbers are the same: equal, or both NaN. -/
def sameFloat (left right : Float) : Bool :=
  (left.isNaN && right.isNaN) || left == right

mutual

/-- Whether two values are the same. -/
def same (left right : Yaml) : Bool :=
  match left with
  | null => match right with | null => true | _ => false
  | bool a => match right with | bool b => a == b | _ => false
  | int a => match right with | int b => a == b | _ => false
  | float a => match right with | float b => sameFloat a b | _ => false
  | str a => match right with | str b => a == b | _ => false
  | seq a => match right with | seq b => sameItems a b | _ => false
  | map a =>
      match right with
      | map b => a.length == b.length && sameEntries a b
      | _ => false
  | tagged a v =>
      match right with
      | tagged b w => bareTag a == bareTag b && same v w
      | _ => false
termination_by structural left

/-- Whether two sequences are the same item by item. -/
def sameItems (left right : List Yaml) : Bool :=
  match left with
  | [] => right.isEmpty
  | a :: left =>
      match right with
      | b :: right => same a b && sameItems left right
      | [] => false
termination_by structural left

/-- Whether every entry of one mapping stands in another. -/
def sameEntries (left right : List (Yaml × Yaml)) : Bool :=
  match left with
  | [] => true
  | entry :: left => sameEntry entry right && sameEntries left right
termination_by structural left

/-- Whether an entry stands in a mapping. -/
def sameEntry (entry : Yaml × Yaml) (entries : List (Yaml × Yaml)) : Bool :=
  match entry with
  | (key, value) => entries.any fun other => same key other.1 && same value other.2
termination_by structural entry

end

/-- The value under all its tags. -/
def untagged : Yaml → Yaml
  | tagged _ value => value.untagged
  | value => value

/-- The text of a string, also of a tagged one. -/
def text? (value : Yaml) : Option String :=
  match value.untagged with
  | str text => some text
  | _ => none

/-- The value of a boolean, also of a tagged one. -/
def bool? (value : Yaml) : Option Bool :=
  match value.untagged with
  | bool flag => some flag
  | _ => none

/-- The items of a sequence, also of a tagged one. -/
def items? (value : Yaml) : Option (List Yaml) :=
  match value.untagged with
  | seq items => some items
  | _ => none

/-- Whether a value is null, also under tags. -/
def isNull (value : Yaml) : Bool :=
  match value.untagged with
  | null => true
  | _ => false

/-- Values that are the same have the same text, if any. -/
theorem text?_eq_of_same {left right : Yaml} (hsame : left.same right = true) :
    left.text? = right.text? := by
  match left with
  | tagged _ value =>
      cases right with
      | tagged _ other =>
          simp only [same, Bool.and_eq_true] at hsame
          have htext := text?_eq_of_same hsame.2
          simpa [text?, untagged] using htext
      | _ => simp [same] at hsame
  | str text =>
      cases right with
      | str other =>
          have heq : text = other := by simpa [same] using hsame
          rw [heq]
      | _ => simp [same] at hsame
  | null | bool _ | int _ | float _ | seq _ | map _ =>
      cases right <;> simp_all [same, text?, untagged]

/-- The kind of a value, as messages name it. -/
def describe : Yaml → String
  | null => "null"
  | bool _ => "a boolean"
  | int _ => "a number"
  | float _ => "a number"
  | str _ => "a string"
  | seq _ => "a sequence"
  | map _ => "a mapping"
  | tagged _ _ => "a tagged value"

end Yaml

/-- A YAML mapping in document order. -/
abbrev YamlMapping := List (Yaml × Yaml)

namespace YamlMapping

/-- The value of a key. -/
def get? (mapping : YamlMapping) (key : Yaml) : Option Yaml :=
  (mapping.find? fun entry => key.same entry.1).map Prod.snd

/-- Set the value of a key: in place if the mapping has the key, else at the end. -/
def insert (mapping : YamlMapping) (key value : Yaml) : YamlMapping :=
  if mapping.any fun entry => key.same entry.1 then
    mapping.map fun entry => if key.same entry.1 then (entry.1, value) else entry
  else mapping ++ [(key, value)]

/-- The mapping of some entries; a repeated key sets its value again. -/
def ofEntries (entries : List (Yaml × Yaml)) : YamlMapping :=
  entries.foldl (fun mapping entry => insert mapping entry.1 entry.2) []

theorem ofEntries_append (entries : List (Yaml × Yaml)) (key value : Yaml) :
    ofEntries (entries ++ [(key, value)]) = insert (ofEntries entries) key value := by
  simp [ofEntries]

theorem insert_of_fresh {mapping : YamlMapping} {key : Yaml}
    (hfresh : ∀ entry ∈ mapping, key.same entry.1 = false) (value : Yaml) :
    insert mapping key value = mapping ++ [(key, value)] := by
  have hnone : (mapping.any fun entry => key.same entry.1) = false := by
    simpa using hfresh
  simp [insert, hnone]

/-- Entries without repeated keys are the mapping that they make. -/
theorem ofEntries_of_distinct {entries : List (Yaml × Yaml)}
    (hdistinct : entries.Pairwise fun earlier later => later.1.same earlier.1 = false) :
    ofEntries entries = entries := by
  -- The entries that are in place vary.
  have hfold : ∀ front rest : List (Yaml × Yaml),
      (front ++ rest).Pairwise (fun earlier later => later.1.same earlier.1 = false) →
        rest.foldl (fun mapping entry => insert mapping entry.1 entry.2) front = front ++ rest := by
    intro front rest
    induction rest generalizing front with
    | nil => simp
    | cons head rest ih =>
        intro hall
        have hfresh : ∀ entry ∈ front, head.1.same entry.1 = false :=
          fun entry hentry =>
            (List.pairwise_append.mp hall).2.2 entry hentry head List.mem_cons_self
        rw [List.foldl_cons, insert_of_fresh hfresh, ih _ (by simpa using hall)]
        simp
  exact hfold [] entries hdistinct

/-- The value of a text key. -/
def field? (mapping : YamlMapping) (name : String) : Option Yaml :=
  get? mapping (.str name)

end YamlMapping

end StepChain
