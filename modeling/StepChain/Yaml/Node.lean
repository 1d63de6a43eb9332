import StepChain.Yaml.Token

/-!
# Nodes of a document

The grammar of documents: tokens become a tree of scalars, sequences and
mappings with their tags. Aliases are kept as the numbers of anchors; what a
number stands for is known when the whole document is read. The plain texts in
the tree are not interpreted yet.
-/

namespace StepChain

/-- A node of a document. -/
inductive Node where
  | scalar (tag : Option String) (style : ScalarStyle) (text : String)
  | sequence (tag : Option String) (items : List Node)
  | mapping (tag : Option String) (entries : List (Node × Node))
  /-- An alias of the node that the anchor with a number is at. -/
  | repeated (anchor : Nat)
  deriving Inhabited

/-- The node that stands where nothing is written. -/
def Node.nothing (tag : Option String := none) : Node :=
  .scalar tag .plain ""

/-- The place of an anchor. -/
structure Anchor where
  number : Nat
  /-- Missing as long as the node is not complete. -/
  node? : Option Node := none

/-- What is left to read, and what is known from what was read. -/
structure NodeScope where
  tokens : List Token
  /-- What the handles of tags stand for. -/
  handles : List (String × TagText)
  /-- The numbers of the anchors that names stand for at present. -/
  numbers : List (String × Nat) := []
  /-- The anchors in the order in which they were opened. -/
  anchors : Array Anchor := #[]
  /-- The size of the document: a scalar or alias counts once, a collection twice. -/
  size : Nat := 0

/-- Reads a part of a document. -/
abbrev NodeReader := StateT NodeScope (Except YamlFault)

namespace NodeReader

def fail {β : Type} (fault : YamlFault) : NodeReader β :=
  throw fault

/-- The tokens that are left. -/
def tokens : NodeReader (List Token) := do
  return (← get).tokens

/-- Move past a token. -/
def skip : NodeReader Unit :=
  modify fun scope => { scope with tokens := scope.tokens.tail }

/-- Move past a token if it is the given one, and tell whether it was. -/
def skipIf (token : Token) : NodeReader Bool := do
  if (← tokens).head? == some token then
    skip
    return true
  else return false

/-- Move past a comma that must be there. -/
def separate : NodeReader Unit := do
  if !(← skipIf .flowEntry) then fail .unexpectedToken

/-- Count a part of the document. -/
def count : NodeReader Unit :=
  modify fun scope => { scope with size := scope.size + 1 }

/-- The node that stands where nothing is written; it counts all the same. -/
def missing : NodeReader Node := do
  count
  return .nothing

/-- Anchor the node that comes next, and tell which anchor it is. The number of the
anchor is the number of names so far, so that anchors may share one when a name is
used again. -/
def openAnchor (name : String) : NodeReader Nat := do
  let scope ← get
  let number := scope.numbers.length
  let others := scope.numbers.filter fun entry => entry.1 ≠ name
  set { scope with numbers := (name, number) :: others, anchors := scope.anchors.push { number } }
  return scope.anchors.size

/-- Fill in the node of an anchor. -/
def closeAnchor (place : Nat) (node : Node) : NodeReader Unit :=
  modify fun scope =>
    { scope with
      anchors := scope.anchors.modify place fun anchor => { anchor with node? := some node } }

/-- The node that an alias is. -/
def repeatNode (name : String) : NodeReader Node := do
  match (← get).numbers.lookup name with
  | some number => return .repeated number
  | none => fail .undefinedAnchor

/-- Read an anchor, if there is one. -/
def anchor? : NodeReader (Option Nat) := do
  match ← tokens with
  | .anchor name :: _ =>
      skip
      return some (← openAnchor name)
  | _ => return none

/-- Read a tag, if there is one, with its handle resolved. -/
def tag? : NodeReader (Option TagText) := do
  match ← tokens with
  | .tag handle suffix :: _ =>
      skip
      if handle.isEmpty then return some suffix
      match (← get).handles.lookup handle with
      | some expansion => return some (expansion ++ suffix)
      | none => fail .undefinedTagHandle
  | _ => return none

/-- Read an anchor and a tag, in any order. -/
def properties : NodeReader (Option Nat × Option TagText) := do
  match ← tag? with
  | some tag => return (← anchor?, some tag)
  | none =>
      let anchor ← anchor?
      return (anchor, ← tag?)

end NodeReader

/-- Where a node stands: inside flow style, or in block style, where a sequence
that is the key or value of a mapping need not be indented. -/
inductive NodePlace where
  | flow
  | block
  | entry
  deriving DecidableEq

namespace Node

open NodeReader

/-- Whether nothing is written where the key or value of an entry could be. -/
def isMissing (place : NodePlace) (isKey : Bool) : List Token → Bool
  | .key :: _ | .blockEnd :: _ => place ≠ .flow
  | .value :: _ => place ≠ .flow || isKey
  | .flowEntry :: _ | .flowSequenceEnd :: _ | .flowMappingEnd :: _ => place = .flow
  | _ => false

mutual

/-- Read a node. Each call takes up a token or passes on to a part, so that the
number of rounds needed is bounded by the number of tokens. -/
def read : Nat → NodePlace → NodeReader Node
  | 0, _ => fail .unexpectedToken
  | rounds + 1, place => do
      count
      match ← tokens with
      | .alias name :: _ =>
          skip
          repeatNode name
      | _ =>
          let (anchor, tag) ← properties
          let announced := anchor.isSome || tag.isSome
          let node ← readContent rounds place announced (tag.bind TagText.name?)
          match anchor with
          | some place =>
              closeAnchor place node
              return node
          | none => return node

/-- Read what follows the anchor and tag of a node. After these there need not be
anything. -/
def readContent : Nat → NodePlace → (announced : Bool) → (tag : Option String) → NodeReader Node
  | 0, _, _, _ => fail .unexpectedToken
  | rounds + 1, place, announced, tag => do
      match ← tokens, place with
      | .scalar text style :: _, _ =>
          skip
          return scalar tag style text
      | .flowSequenceStart :: _, _ =>
          skip
          count
          return sequence tag (← readFlowItems rounds true)
      | .flowMappingStart :: _, _ =>
          skip
          count
          return mapping tag (← readFlowEntries rounds true)
      | .blockEntry :: _, .entry =>
          count
          return sequence tag (← readIndentlessItems rounds)
      | .blockSequenceStart :: _, .block | .blockSequenceStart :: _, .entry =>
          skip
          count
          return sequence tag (← readBlockItems rounds)
      | .blockMappingStart :: _, .block | .blockMappingStart :: _, .entry =>
          skip
          count
          return mapping tag (← readBlockEntries rounds)
      | _, _ => if announced then return nothing tag else fail .unexpectedToken

/-- Read the items of an indented sequence. -/
def readBlockItems : Nat → NodeReader (List Node)
  | 0 => fail .unexpectedToken
  | rounds + 1 => do
      if ← skipIf .blockEnd then return []
      if !(← skipIf .blockEntry) then fail .unexpectedToken
      let item ← match ← tokens with
        | .blockEntry :: _ | .blockEnd :: _ => missing
        | _ => read rounds .block
      return item :: (← readBlockItems rounds)

/-- Read the items of a sequence at the indentation of the mapping around it. -/
def readIndentlessItems : Nat → NodeReader (List Node)
  | 0 => fail .unexpectedToken
  | rounds + 1 => do
      if !(← skipIf .blockEntry) then return []
      let item ← match ← tokens with
        | .blockEntry :: _ | .blockEnd :: _ | .key :: _ | .value :: _ => missing
        | _ => read rounds .block
      return item :: (← readIndentlessItems rounds)

/-- Read the entries of a mapping in block style. -/
def readBlockEntries : Nat → NodeReader (List (Node × Node))
  | 0 => fail .unexpectedToken
  | rounds + 1 => do
      if ← skipIf .blockEnd then return []
      if !(← skipIf .key) then fail .unexpectedToken
      let key ← readKey rounds .entry
      let value ← readValue rounds .entry
      return (key, value) :: (← readBlockEntries rounds)

/-- Read the key of an entry after its token. -/
def readKey : Nat → NodePlace → NodeReader Node
  | 0, _ => fail .unexpectedToken
  | rounds + 1, place => do
      if isMissing place true (← tokens) then missing
      else read rounds place

/-- Read the value of an entry; without a colon there is none. -/
def readValue : Nat → NodePlace → NodeReader Node
  | 0, _ => fail .unexpectedToken
  | rounds + 1, place => do
      if !(← skipIf .value) then missing
      else if isMissing place false (← tokens) then missing
      else read rounds place

/-- Read the items of a sequence in flow style; a key makes an item a mapping of
a single entry. -/
def readFlowItems : Nat → (first : Bool) → NodeReader (List Node)
  | 0, _ => fail .unexpectedToken
  | rounds + 1, first => do
      if ← skipIf .flowSequenceEnd then return []
      if !first then
        separate
        if ← skipIf .flowSequenceEnd then return []
      if ← skipIf .key then
        count
        count
        let key ← readItemKey rounds
        let value ← readValue rounds .flow
        return mapping none [(key, value)] :: (← readFlowItems rounds false)
      let item ← read rounds .flow
      return item :: (← readFlowItems rounds false)

/-- Read the key of an item after its token. Where there is none, what stands in its
place is taken up with it. -/
def readItemKey : Nat → NodeReader Node
  | 0 => fail .unexpectedToken
  | rounds + 1 => do
      match ← tokens with
      | .value :: _ | .flowEntry :: _ | .flowSequenceEnd :: _ =>
          skip
          missing
      | _ => read rounds .flow

/-- Read the entries of a mapping in flow style. -/
def readFlowEntries : Nat → (first : Bool) → NodeReader (List (Node × Node))
  | 0, _ => fail .unexpectedToken
  | rounds + 1, first => do
      if ← skipIf .flowMappingEnd then return []
      if !first then
        separate
        if ← skipIf .flowMappingEnd then return []
      if ← skipIf .key then
        let key ← readKey rounds .flow
        let value ← readValue rounds .flow
        return (key, value) :: (← readFlowEntries rounds false)
      let key ← read rounds .flow
      let value ← missing
      return (key, value) :: (← readFlowEntries rounds false)

end

/-- Read the directives before a document: what tag handles stand for. A version
is given at most once, and must be 1.1 or 1.2. -/
def readDirectives : List Token → (version : Bool) → (handles : List (String × TagText)) →
    Except YamlFault (List (String × TagText) × List Token)
  | .versionDirective major minor :: rest, version, handles =>
      if version || major != 1 || (minor != 1 && minor != 2) then .error .invalidDirective
      else readDirectives rest true handles
  | .tagDirective handle expansion :: rest, version, handles =>
      if (handles.lookup handle).isSome then .error .invalidDirective
      else readDirectives rest version ((handle, expansion) :: handles)
  | tokens, _, handles => .ok (handles, tokens)

/-- What the handles of tags stand for unless directives say otherwise. -/
def defaultHandles : List (String × TagText) :=
  [("!", [some '!']), ("!!", "tag:yaml.org,2002:".toList.map some)]

/-- Read the node of a document, which may be missing after a document marker. -/
def readRoot (explicit : Bool) : NodeReader Node := do
  let tokens ← tokens
  let absent := match tokens with
    | [] => true
    | .documentStart :: _ | .documentEnd :: _ => true
    | .versionDirective _ _ :: _ | .tagDirective _ _ :: _ => true
    | _ => false
  if explicit && absent then missing
  else read (4 * tokens.length + 4) .block

end Node

/-- A document whose text was read. -/
structure Document where
  root : Node
  /-- The anchored nodes by the numbers of their anchors. Of several anchors with one
  number the last one to be opened counts, and stands first. -/
  anchored : List (Nat × Node)
  /-- A scalar or alias counts once, a collection twice. -/
  size : Nat

namespace Document

open Node

/-- A node itself, or the one that it repeats. -/
def target? (document : Document) : Node → Option Node
  | .repeated anchor => document.anchored.lookup anchor
  | node => some node

/-- The anchored nodes in a scope, the last ones first. -/
def anchoredIn (scope : NodeScope) : List (Nat × Node) :=
  scope.anchors.toList.reverse.filterMap fun anchor => anchor.node?.map fun node =>
    (anchor.number, node)

/-- The one document that the tokens of a text amount to; none if there are no
tokens. -/
def ofTokens (tokens : List Token) : Except YamlFault (Option Document) := do
  if tokens.isEmpty then return none
  let (handles, afterDirectives) ← readDirectives tokens false []
  let (explicit, content) ← match afterDirectives with
    | .documentStart :: rest => .ok (true, rest)
    | rest =>
        if rest.length == tokens.length then .ok (false, rest) else .error .unexpectedToken
  let (root, scope) ←
    (readRoot explicit).run { tokens := content, handles := handles ++ defaultHandles }
  if !(scope.tokens.dropWhile (· == .documentEnd)).isEmpty then .error .severalDocuments
  return some { root, anchored := anchoredIn scope, size := scope.size }

end Document

end StepChain
