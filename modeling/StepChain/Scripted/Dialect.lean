import StepChain.Reader
import StepChain.Scripted.Builtin
import StepChain.Scripted.Item
import StepChain.Yaml.Document

/-!
# The scripted dialect

Values are texts, and metadata is the mapping itself, in which a name must be a
text. The value of an eager step is a document with a list of descriptions; these
are looked up among the built-in items, wherever the eager step came from.
-/

namespace StepChain

namespace Scripted

/-- Accept the metadata of a step, unless its name is no text. -/
def validateMetadata (metadata : YamlMapping) (addr : Address) : Except StepError YamlMapping :=
  match metadata.field? "name" with
  | some name =>
      if name.text?.isSome then .ok metadata
      else
        .error (StepError.reportAt (addr.key "name") ErrorCode.invalidMetadata
          "Step name must be a string")
  | none => .ok metadata

theorem validateMetadata_eq_ok_iff {metadata accepted : YamlMapping} {addr : Address} :
    validateMetadata metadata addr = .ok accepted ↔
      accepted = metadata ∧
        ∀ name, metadata.field? "name" = some name → name.text?.isSome = true := by
  unfold validateMetadata
  cases metadata.field? "name" with
  | none =>
      simp only [Except.ok.injEq, reduceCtorEq, false_implies, implies_true, and_true]
      exact eq_comm
  | some name =>
      by_cases htext : name.text?.isSome = true
      · simp only [htext, if_true, Except.ok.injEq, Option.some.injEq, forall_eq', and_true]
        exact eq_comm
      · simp [htext]

def vocabulary : Vocabulary YamlMapping :=
  { actionSpace := "test.actions"
    modifierSpace := "test.modifiers"
    metadataKeys := inheritedNames ["name", "description"] []
    validateMetadata }

/-- A step over texts whose calls are recorded. -/
abbrev TextStep := Step Recorder String YamlMapping

/-- The built-in items under their names. -/
def builtins : Registry Recorder String :=
  ((((Registry.empty
    |>.addAction vocabulary.actionSpace "echo" Builtin.echoType.construct)
    |>.addAction vocabulary.actionSpace "include" Builtin.includeType.construct)
    |>.addModifier vocabulary.modifierSpace "upper" Builtin.upperType.construct)
    |>.addModifier vocabulary.modifierSpace "skip" Builtin.skipType.construct)

/-- The steps that the descriptions from a position of an expansion on stand for. -/
def expandItems (addr : Address) : (position : Nat) → List Yaml → Except StepError (List TextStep)
  | _, [] => .ok []
  | position, item :: rest => do
      let step ← vocabulary.readStep builtins.resolver .lenient item (addr.idx position)
      let steps ← expandItems addr (position + 1) rest
      .ok (step :: steps)

/-- The steps that the value of an eager step expands to. -/
def expand (value : String) (addr : Address) : Except Failure (List TextStep) :=
  match Yaml.ofText value with
  | .error _ =>
      .error ((Failure.ofRoot .external).withContext
        ("Eager step at " ++ addr.render ++ " produced invalid YAML"))
  | .ok raw =>
      match raw.items? with
      | none =>
          .error (.ofMessage
            ("Eager step at " ++ addr.render ++ " did not produce a list of steps"))
      | some items => (expandItems addr 0 items).mapError Failure.ofStepError

def dialect : Dialect Recorder String YamlMapping :=
  { vocabulary with expand }

theorem dialect_distinct : dialect.actionSpace ≠ dialect.modifierSpace := by
  decide

/-- A factory that takes the name and place it is given, and ignores configurations. -/
def placed {ι : Type} (make : Header → ι) : Factory ι := fun name _ addr =>
  .ok (make { name, address := addr })

/-- Register an action that returns a value. -/
def addReturning (registry : Registry Recorder String) (name value : String) :
    Registry Recorder String :=
  registry.addAction vocabulary.actionSpace name
    (placed fun header => ScriptedAction.toAction { header, script := .give value })

/-- Register a modifier with some hints and no scripts. -/
def addHinted (registry : Registry Recorder String) (name : String) (hints : Hints) :
    Registry Recorder String :=
  registry.addModifier vocabulary.modifierSpace name
    (placed fun header => ScriptedModifier.toModifier { header, hints })

end Scripted

end StepChain
