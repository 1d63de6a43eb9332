import StepChain.Problem

/-!
# Failures

What goes wrong when a step runs. A failure keeps its root, so that a caller
can still tell what kind of failure it was, under the messages of context that
were added on the way out.
-/

namespace StepChain

/-- The root of a failure. -/
inductive Failure.Root where
  /-- A problem in a step's configuration. -/
  | step (error : StepError)
  /-- A bare message. -/
  | message (text : String)
  /-- An error of the host's own type, which stays recognizable. -/
  | host (text : String)
  /-- A document or file that could not be read or written; its wording belongs
  to the format or to the operating system. -/
  | external
  deriving DecidableEq, Repr

/-- A failure: messages of context, outermost first, above a root. -/
structure Failure where
  context : List String
  root : Failure.Root
  deriving DecidableEq, Repr

namespace Failure

def ofRoot (root : Root) : Failure :=
  { context := [], root }

def ofMessage (text : String) : Failure :=
  ofRoot (.message text)

def ofStepError (error : StepError) : Failure :=
  ofRoot (.step error)

/-- A failure with one more message of context around it. -/
def withContext (failure : Failure) (text : String) : Failure :=
  { failure with context := text :: failure.context }

/-- The messages of a root, outermost first. -/
def Root.messages : Root → List String
  | step error => error.render :: error.causes
  | message text => [text]
  | host text => [text]
  | external => []

/-- The messages of a failure, outermost first. -/
def chain (failure : Failure) : List String :=
  failure.context ++ failure.root.messages

/-- The outermost message. -/
def message (failure : Failure) : String :=
  failure.chain.headD ""

/-- All messages in one line. -/
def render (failure : Failure) : String :=
  String.intercalate ": " failure.chain

/-- The problem at the root, where there is one. -/
def stepError? (failure : Failure) : Option StepError :=
  match failure.root with
  | .step error => some error
  | _ => none

/-- The message of the host's own error at the root, where there is one. -/
def hostError? (failure : Failure) : Option String :=
  match failure.root with
  | .host text => some text
  | _ => none

@[simp] theorem root_withContext (failure : Failure) (text : String) :
    (failure.withContext text).root = failure.root := rfl

theorem chain_withContext (failure : Failure) (text : String) :
    (failure.withContext text).chain = text :: failure.chain := rfl

end Failure

end StepChain
