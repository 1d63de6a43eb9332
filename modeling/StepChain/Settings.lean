import StepChain.Failure
import StepChain.Order.Cycle
import StepChain.Toml.Document
import StepChain.Yaml.Decode
import StepChain.Yaml.Document

/-!
# Settings

What becomes of contradictory hints, and how much is logged. Hosts keep these
settings in YAML or TOML files; every setting may be missing.
-/

namespace StepChain

/-- The settings of the engine. -/
structure Settings where
  ordering : CyclePolicy := .lenient
  /-- How much is logged; at most 255. -/
  verbose : Nat := 0
  deriving DecidableEq, Repr

/-- Settings as they are read: those that were not there are missing. -/
structure Settings.Draft where
  ordering : Option CyclePolicy := none
  verbose : Option Nat := none

namespace Settings

/-- Settings that are missing have their defaults. -/
def Draft.finish (draft : Draft) : Settings :=
  { ordering := draft.ordering.getD .lenient, verbose := draft.verbose.getD 0 }

/-- The least important messages that are logged. -/
def level (settings : Settings) : String :=
  match settings.verbose with
  | 0 => "info"
  | 1 => "debug"
  | _ => "trace"

def toYaml (settings : Settings) : Yaml :=
  .map [(.str "ordering", .str settings.ordering.render), (.str "verbose", .int settings.verbose)]

/-! ## From values -/

/-- Take in one field of a value; others than the settings are ignored. -/
def Draft.field (draft : Draft) (name : String) (value : Yaml) : Except DecodeFault Draft :=
  match name with
  | "ordering" => do
      let decode := Yaml.decodeVariant CyclePolicy.named
      let ordering ← Yaml.decodeOnce name draft.ordering decode value
      .ok { draft with ordering }
  | "verbose" => do
      let verbose ← Yaml.decodeOnce name draft.verbose (Yaml.decodeWord 8) value
      .ok { draft with verbose }
  | _ => .ok draft

def ofYaml : Decoder Settings := fun value => do
  let draft ← Yaml.decodeFields "EngineConfig" {} Draft.field value
  .ok draft.finish

/-! ## From YAML documents -/

/-- The policy that a node names: by its text, or by the tag of nothing. -/
def policy? : Node → Option CyclePolicy
  | .scalar tag style text =>
      match Node.valueTag? tag with
      | some name =>
          if style = .plain && (text.isEmpty || Yaml.isNullText text) then
            CyclePolicy.named.lookup name
          else none
      | none => CyclePolicy.named.lookup text
  | _ => none

/-- The number that a node stands for: a plain text, or a literal block that is
tagged as a number. -/
def verbosity? : Node → Option Nat
  | .scalar tag style text =>
      let readable := style = .plain ||
        (style = .literal && tag == some "tag:yaml.org,2002:int")
      if readable then (Yaml.natText? text.toList).filter (· < 256) else none
  | _ => none

/-- Take in one entry of a document. Keys must be texts; unknown ones are ignored,
whatever they hold. -/
def Draft.entry (document : Document) (draft : Draft) (entry : Node × Node) : Option Draft :=
  match document.target? entry.1 with
  | some (.scalar _ _ "ordering") =>
      match draft.ordering with
      | some _ => none
      | none => do
          let ordering ← policy? (← document.target? entry.2)
          some { draft with ordering := some ordering }
  | some (.scalar _ _ "verbose") =>
      match draft.verbose with
      | some _ => none
      | none => do
          let verbose ← verbosity? (← document.target? entry.2)
          some { draft with verbose := some verbose }
  | some (.scalar _ _ _) => some draft
  | _ => none

/-- The settings in a document: a mapping, or nothing. -/
def ofDocument? (document : Document) : Option Settings :=
  match document.root with
  | .mapping _ entries => (entries.foldlM (Draft.entry document) {}).map Draft.finish
  | .scalar _ .plain "" => some {}
  | _ => none

/-- Read a YAML document. -/
def ofYamlText (content : String) : Except Failure Settings :=
  match Document.ofText content with
  | .ok none => .ok {}
  | .ok (some document) =>
      match ofDocument? document with
      | some settings => .ok settings
      | none => .error unreadable
  | .error _ => .error unreadable
where
  unreadable : Failure :=
    (Failure.ofRoot .external).withContext "Failed to parse YAML engine configuration"

/-! ## From TOML documents -/

/-- The policy that a value names: as a text, or as the only key of a table, with
nothing under it. -/
def tomlPolicy? : Toml → Option CyclePolicy
  | .str name => CyclePolicy.named.lookup name
  | .table _ [(name, .array [])] => CyclePolicy.named.lookup name
  | .table _ [(name, .table _ [])] => CyclePolicy.named.lookup name
  | _ => none

def tomlVerbosity? : Toml → Option Nat
  | .int value => if 0 ≤ value ∧ value < 256 then some value.toNat else none
  | _ => none

/-- The settings in the table of a document. -/
def ofToml? (entries : TomlEntries) : Option Settings := do
  let ordering ← (entries.lookup "ordering").mapM tomlPolicy?
  let verbose ← (entries.lookup "verbose").mapM tomlVerbosity?
  some (Draft.finish { ordering, verbose })

/-- Read a TOML document. -/
def ofTomlText (content : String) : Except Failure Settings :=
  match (Toml.ofText? content).bind ofToml? with
  | some settings => .ok settings
  | none =>
      .error ((Failure.ofRoot .external).withContext "Failed to parse TOML engine configuration")

/-! ## From files -/

/-- What follows the last dot of a file's name, unless nothing stands before it. -/
def extension? (path : String) : Option String :=
  let name := path.toList.reverse.takeWhile (· != '/')
  match name.dropWhile (· != '.') with
  | _ :: _ :: _ => some (String.ofList (name.takeWhile (· != '.')).reverse)
  | _ => none

/-- Read the settings in a file, in the format that its extension names. There are
no bytes when the file cannot be opened. -/
def load (path : String) (bytes : Option ByteArray) : Except Failure Settings :=
  match bytes.bind String.fromUTF8? with
  | none => .error ((Failure.ofRoot .external).withContext ("Failed to read " ++ path))
  | some content =>
      match extension? path with
      | some "yaml" => inFile (ofYamlText content)
      | some "yml" => inFile (ofYamlText content)
      | some "toml" => inFile (ofTomlText content)
      | _ => .error (.ofMessage ("Unsupported configuration format: " ++ path))
where
  inFile (settings : Except Failure Settings) : Except Failure Settings :=
    settings.mapError (·.withContext ("Invalid configuration in " ++ path))

end Settings

end StepChain
