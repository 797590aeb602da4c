import ExecWatch.Yaml.Lexer
import ExecWatch.Yaml.Node

/-!
# YAML documents

Puts the tokens of a text together to the value it holds. A text holds one document, or none. An
anchor names the node behind it for the aliases that follow; while that node is being read the name
stands for no value.
-/

namespace ExecWatch.Yaml

/-- The tokens left, the replacements of tag handles, and the anchors: the latest number of each name,
and the nodes read by number. -/
structure Reader where
  tokens : List Token
  handles : List (String × String) := []
  names : List (String × Nat) := []
  nodes : List (Nat × Node) := []
  count : Nat := 0

/-- A step of the reader; none when the tokens make no document. -/
abbrev Read := StateT Reader Option

namespace Read

def peek : Read (Option Token) := return (← get).tokens.head?

def skip : Read Unit := modify fun s => { s with tokens := s.tokens.tail }

/-- Passes a token that must stand here. -/
def expect (token : Token) : Read Unit := do
  if (← peek) = some token then skip else failure

/-- One of the tokens stands here. -/
def isNext (tokens : List Token) : Read Bool := do
  match ← peek with
  | some t => return tokens.contains t
  | none => return false

/-! ## Properties -/

/-- Gives a name its next number. -/
def name (anchor : String) : Read Nat := do
  let s ← get
  let number := s.count + 1
  set { s with count := number, names := (anchor, number) :: s.names }
  return number

/-- What a tag's handle stands for. A word between exclamation marks must have been declared. -/
def resolve (handle suffix : String) : Read (String × String) := do
  let replacement? := (← get).handles.lookup (if handle.isEmpty && suffix = "!" then "" else handle)
  match replacement? with
  | some replacement => return (replacement, suffix)
  | none =>
    if handle = "!!" then return (Node.coreTag, suffix)
    else if 2 ≤ handle.length && handle.endsWith "!" then failure
    else return (handle, suffix)

/-- A tag, if one stands here. -/
def tag? : Read (Option (String × String)) := do
  match ← peek with
  | some (.tag handle suffix) =>
    skip
    return some (← resolve handle suffix)
  | _ => return none

/-- An anchor, if one stands here. -/
def anchor? : Read (Option Nat) := do
  match ← peek with
  | some (.anchor a) =>
    skip
    return some (← name a)
  | _ => return none

/-- An anchor and a tag in either order. -/
def properties : Read (Option Nat × Option (String × String)) := do
  match ← anchor? with
  | some number => return (some number, ← tag?)
  | none =>
    let tag ← tag?
    if tag.isSome then return (← anchor?, tag) else return (none, none)

/-- Remembers the node behind an anchor. -/
def remember (anchor : Option Nat) (node : Node) : Read Node := do
  match anchor with
  | some number => modify fun s => { s with nodes := (number, node) :: s.nodes }
  | none => pure ()
  return node

/-! ## Nodes -/

/-- Ends a mapping whose nodes, keys and values in turn, are given. -/
def mapping (nodes : List Node) : Read Node :=
  match Node.pairUp [] none nodes with
  | some members => return .mapping members
  | none => failure

mutual

/-- A node: in block notation if `block`, and also a sequence that is not indented if `flush`. -/
def node : (fuel : Nat) → (block flush : Bool) → Read Node
  | 0, _, _ => failure
  | fuel + 1, block, flush => do
    match ← peek with
    | some (.alias a) =>
      skip
      match (← get).names.lookup a with
      | some number => return ((← get).nodes.lookup number).getD .invalid
      | none => failure
    | _ =>
      let (anchor, tag) ← properties
      match ← peek with
      | some (.scalar plain text) =>
        skip
        remember anchor (Node.ofScalar plain tag text)
      | some .flowSequenceStart =>
        skip
        remember anchor (.sequence (← flowItems fuel true))
      | some .flowMappingStart =>
        skip
        remember anchor (← mapping (← flowMembers fuel true))
      | token =>
        if token = some .blockEntry && flush then
          remember anchor (.sequence (← flushItems fuel))
        else if token = some .blockSequenceStart && block then
          skip
          remember anchor (.sequence (← blockItems fuel))
        else if token = some .blockMappingStart && block then
          skip
          remember anchor (← mapping (← blockMembers fuel))
        else if anchor.isSome || tag.isSome then remember anchor (Node.ofScalar true tag "")
        else failure

/-- A node, or null where one of the tokens stands. -/
def nodeUnless : (fuel : Nat) → (tokens : List Token) → (block flush : Bool) → Read Node
  | 0, _, _, _ => failure
  | fuel + 1, tokens, block, flush => do
    if ← isNext tokens then return .null else node fuel block flush

/-- The items of an indented block sequence. -/
def blockItems : (fuel : Nat) → Read (List Node)
  | 0 => failure
  | fuel + 1 => do
    if ← isNext [.blockEnd] then
      skip
      return []
    else
      expect .blockEntry
      let item ← nodeUnless fuel [.blockEntry, .blockEnd] true false
      return item :: (← blockItems fuel)

/-- The items of a block sequence that is not indented. -/
def flushItems : (fuel : Nat) → Read (List Node)
  | 0 => failure
  | fuel + 1 => do
    if ← isNext [.blockEntry] then
      skip
      let item ← nodeUnless fuel [.blockEntry, .key, .value, .blockEnd] true false
      return item :: (← flushItems fuel)
    else return []

/-- The keys and values of a block mapping. -/
def blockMembers : (fuel : Nat) → Read (List Node)
  | 0 => failure
  | fuel + 1 => do
    let stops := [.key, .value, .blockEnd]
    match ← peek with
    | some .blockEnd =>
      skip
      return []
    | some .key =>
      skip
      let key ← nodeUnless fuel stops true true
      let value ← blockValue fuel
      return key :: value :: (← blockMembers fuel)
    | some .value =>
      let value ← blockValue fuel
      return .null :: value :: (← blockMembers fuel)
    | _ => failure

/-- The value in a block mapping. -/
def blockValue : (fuel : Nat) → Read Node
  | 0 => failure
  | fuel + 1 => do
    if ← isNext [.value] then
      skip
      nodeUnless fuel [.key, .value, .blockEnd] true true
    else return .null

/-- The items of a flow sequence. A key among them starts a mapping of one member. -/
def flowItems : (fuel : Nat) → (first : Bool) → Read (List Node)
  | 0, _ => failure
  | fuel + 1, first => do
    let stop ← isNext [.flowSequenceEnd]
    if !stop && !first then expect .flowEntry
    match ← peek with
    | some .flowSequenceEnd =>
      skip
      return []
    | some .key =>
      skip
      let key ← nodeUnless fuel [.value, .flowEntry, .flowSequenceEnd] false false
      let value ← flowValue fuel [.flowEntry, .flowSequenceEnd]
      let item ← mapping [key, value]
      return item :: (← flowItems fuel false)
    | some .value =>
      let value ← flowValue fuel [.flowEntry, .flowSequenceEnd]
      let item ← mapping [.null, value]
      return item :: (← flowItems fuel false)
    | _ =>
      let item ← node fuel false false
      return item :: (← flowItems fuel false)

/-- The keys and values of a flow mapping. -/
def flowMembers : (fuel : Nat) → (first : Bool) → Read (List Node)
  | 0, _ => failure
  | fuel + 1, first => do
    let stop ← isNext [.flowMappingEnd]
    if !stop && !first then expect .flowEntry
    match ← peek with
    | some .flowMappingEnd =>
      skip
      return []
    | some .key =>
      skip
      let key ← nodeUnless fuel [.value, .flowEntry, .flowMappingEnd] false false
      let value ← flowValue fuel [.flowEntry, .flowMappingEnd]
      return key :: value :: (← flowMembers fuel false)
    | some .value =>
      let value ← flowValue fuel [.flowEntry, .flowMappingEnd]
      return .null :: value :: (← flowMembers fuel false)
    | _ =>
      let key ← node fuel false false
      return key :: .null :: (← flowMembers fuel false)

/-- The value in a flow collection. -/
def flowValue : (fuel : Nat) → (stops : List Token) → Read Node
  | 0, _ => failure
  | fuel + 1, stops => do
    if ← isNext [.value] then
      skip
      nodeUnless fuel stops false false
    else return .null

end

/-! ## The document -/

/-- Passes the directives in front of a document. -/
def directives : (versions : Nat) → List Token → Read Unit
  | versions, .versionDirective :: rest => do
    if versions ≠ 0 then failure
    skip
    directives 1 rest
  | versions, .tagDirective handle replacement :: rest => do
    if ((← get).handles.lookup handle).isSome then failure
    skip
    modify fun s => { s with handles := (handle, replacement) :: s.handles }
    directives versions rest
  | _, _ => pure ()

/-- Passes the ends of documents. -/
def documentEnds : List Token → Read Unit
  | .documentEnd :: rest => do
    skip
    documentEnds rest
  | _ => pure ()

/-- The document, if there is one; nothing may follow it. -/
def document : Read (Option Node) := do
  documentEnds (← get).tokens
  let s ← get
  let fuel := 4 * s.tokens.length + 4
  match s.tokens with
  | [] => return none
  | first :: _ =>
    let root ←
      match first with
      | .versionDirective | .tagDirective .. | .documentStart =>
        directives 0 s.tokens
        expect .documentStart
        match ← peek with
        | none | some .versionDirective | some (.tagDirective ..) | some .documentStart
        | some .documentEnd => pure .null
        | _ => node fuel true false
      | _ => node fuel true false
    documentEnds (← get).tokens
    if (← get).tokens.isEmpty then return some root else failure

end Read

/-- The value that a text holds: nothing when it holds no document, and none when it is malformed or
holds several. -/
def read? (text : String) : Option (Option Node) := do
  let tokens ← tokens? text.toList
  let (root, _) ← StateT.run Read.document { tokens }
  return root

end ExecWatch.Yaml
