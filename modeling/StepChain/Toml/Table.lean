/-!
# Tables

The values of a key-value document and the rules by which its tables grow: a
header opens a table once, dotted keys may only extend what dotted keys began,
and an inline table is closed where it is written.
-/

namespace StepChain

/-- How a table came about. -/
inductive TableOrigin where
  /-- It was opened by a header of its own. -/
  | header
  /-- Headers of tables inside it imply it. -/
  | implied
  /-- Dotted keys began it. -/
  | dotted
  /-- It was written as a value. -/
  | inline
  deriving DecidableEq

/-- A value of a key-value document. -/
inductive Toml where
  | bool (value : Bool)
  | int (value : Int)
  | float (value : Float)
  /-- A date, a time, or both. -/
  | moment
  | str (text : String)
  | array (items : List Toml)
  | table (origin : TableOrigin) (entries : List (String × Toml))
  /-- Tables that headers append to. -/
  | tables (earlier : List Toml) (last : List (String × Toml))
  deriving Inhabited

/-- The entries of a table, in the order of their keys' first appearance. -/
abbrev TomlEntries := List (String × Toml)

namespace TomlEntries

/-- Replace the value of a key that is there. -/
def replace (entries : TomlEntries) (key : String) (value : Toml) : TomlEntries :=
  entries.map fun entry => if entry.1 = key then (key, value) else entry

/-- Change the table that the keys of a header lead to, through the last one of
appended tables. Tables that are missing on the way are implied. -/
def alter (change : TomlEntries → Option TomlEntries) :
    List String → TomlEntries → Option TomlEntries
  | [], entries => change entries
  | key :: rest, entries =>
      match entries.lookup key with
      | none => do
          let inner ← alter change rest []
          some (entries ++ [(key, .table .implied inner)])
      | some (.table .inline _) => none
      | some (.table origin inner) => do
          some (entries.replace key (.table origin (← alter change rest inner)))
      | some (.tables earlier last) => do
          some (entries.replace key (.tables earlier (← alter change rest last)))
      | some _ => none

/-- Open a table by a header. -/
def openTable (key : String) (entries : TomlEntries) : Option TomlEntries :=
  match entries.lookup key with
  | none => some (entries ++ [(key, .table .header [])])
  | some (.table .implied inner) => some (entries.replace key (.table .header inner))
  | some _ => none

/-- Append a table by a header. -/
def appendTable (key : String) (entries : TomlEntries) : Option TomlEntries :=
  match entries.lookup key with
  | none => some (entries ++ [(key, .tables [] [])])
  | some (.tables earlier last) =>
      some (entries.replace key (.tables (earlier ++ [.table .header last]) []))
  | some _ => none

/-- Set the value of a dotted key, which must not have one. The table that it ends up
in must have been begun by a dotted key; on the way there may be tables that headers
imply and the last ones of appended tables. -/
def put (value : Toml) : List String → TomlEntries → Option TomlEntries
  | [], _ => none
  | [key], entries =>
      match entries.lookup key with
      | none => some (entries ++ [(key, value)])
      | some _ => none
  | key :: rest, entries =>
      match entries.lookup key with
      | none => do
          some (entries ++ [(key, .table .dotted (← put value rest []))])
      | some (.table .dotted inner) => do
          some (entries.replace key (.table .dotted (← put value rest inner)))
      | some (.table .implied inner) =>
          if rest.length < 2 then none
          else do some (entries.replace key (.table .implied (← put value rest inner)))
      | some (.tables earlier last) =>
          if rest.length < 2 then none
          else do some (entries.replace key (.tables earlier (← put value rest last)))
      | some _ => none

end TomlEntries

end StepChain
