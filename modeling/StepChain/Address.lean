/-!
# Addresses

Where a configuration item sits: a file name and a path of mapping keys and
list positions, rendered as `spam.yaml:/foo[3]/bar[5]`.
-/

namespace StepChain

/-- One element of a path. -/
inductive Segment where
  | key (name : String)
  | index (position : Nat)
  deriving DecidableEq, Repr

namespace Segment

/-- A key is written `/key`, a position `[position]`. -/
def render : Segment → String
  | key name => "/" ++ name
  | index position => "[" ++ position.repr ++ "]"

/-- The written form of several elements in a row. -/
def renderAll : List Segment → String
  | [] => ""
  | segment :: rest => segment.render ++ renderAll rest

theorem renderAll_append (left right : List Segment) :
    renderAll (left ++ right) = renderAll left ++ renderAll right := by
  induction left with
  | nil => simp [renderAll]
  | cons segment rest ih => simp [renderAll, ih, String.append_assoc]

end Segment

/-- A file name and the written form of the path inside the file. -/
structure Address where
  filename : String
  path : String
  deriving DecidableEq, Repr

namespace Address

/-- The root of a file. -/
def root (filename : String) : Address :=
  { filename, path := "" }

/-- The address reached from this one along some segments. -/
def extend (addr : Address) (segments : List Segment) : Address :=
  { addr with path := addr.path ++ Segment.renderAll segments }

/-- The address of a mapping key below this one. -/
def key (addr : Address) (name : String) : Address :=
  addr.extend [.key name]

/-- The address of a list element below this one. -/
def idx (addr : Address) (position : Nat) : Address :=
  addr.extend [.index position]

/-- The file name and the path, a colon between them. -/
def render (addr : Address) : String :=
  addr.filename ++ ":" ++ addr.path

@[simp] theorem filename_extend (addr : Address) (segments : List Segment) :
    (addr.extend segments).filename = addr.filename := rfl

theorem path_extend (addr : Address) (segments : List Segment) :
    (addr.extend segments).path = addr.path ++ Segment.renderAll segments := rfl

@[simp] theorem extend_nil (addr : Address) : addr.extend [] = addr := by
  simp [extend, Segment.renderAll]

theorem extend_append (addr : Address) (left right : List Segment) :
    addr.extend (left ++ right) = (addr.extend left).extend right := by
  simp [extend, Segment.renderAll_append, String.append_assoc]

end Address

end StepChain
