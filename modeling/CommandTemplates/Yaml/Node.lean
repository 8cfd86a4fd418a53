import CommandTemplates.Yaml.Token

/-!
# Nodes

The tree that a YAML document describes.

## Main Definitions

* `Node` — scalars, sequences, mappings and references to anchored nodes
* `Document` — a node with the anchored nodes in it
* `Document.read` — the only document of a text

## Design Notes

Anchors are kept by number. A name gets as its number the count of names known before; a
name that is anchored again gets the next number, which the next new name then shares. Of
the nodes with one number the last one stands for all references to it, also for those
before it. A reference may stand inside the node that it refers to.

The reader consumes a token on every second call at least, which bounds its recursion.
-/

namespace CommandTemplates.Yaml

/-- A node of a document. -/
inductive Node
  /-- A text; `plain` tells that it was written without quotes and not as a block. -/
  | scalar (mark : Mark) (tag : Option Text) (plain : Bool) (text : Text)
  | sequence (mark : Mark) (tag : Option Text) (items : List Node)
  | mapping (mark : Mark) (tag : Option Text) (entries : List (Node × Node))
  /-- A reference to the anchored nodes with a number. -/
  | reference (mark : Mark) (number : Nat)
  deriving Repr

namespace Node

/-- Where a node starts. -/
def mark : Node → Mark
  | .scalar m _ _ _ => m
  | .sequence m _ _ => m
  | .mapping m _ _ => m
  | .reference m _ => m

/-- What stands where a node was left out. -/
def absent (m : Mark) : Node := .scalar m none true []

end Node

/-- An anchored node: its number and its rank among all anchored nodes of the document. -/
structure Anchored where
  number : Nat
  rank : Nat
  node : Node
  deriving Repr

/-- A document: its node and the anchored nodes in it. -/
structure Document where
  root : Node
  anchored : List Anchored := []
  deriving Repr

/-- The node that references with a number stand for: the last one anchored with it. -/
def Document.target? (d : Document) (number : Nat) : Option Node :=
  let candidates := d.anchored.filter (·.number == number)
  let last := candidates.foldl (fun rank a => max rank a.rank) 0
  (candidates.find? (·.rank == last)).map (·.node)

/-- What the reader of a document keeps track of. -/
structure Reader where
  tokens : List Token
  /-- What the handles of tags stand for. -/
  handles : List (Text × Text) := []
  /-- The names of anchors with their numbers. -/
  names : List (Text × Nat) := []
  /-- How many nodes were anchored so far. -/
  anchorCount : Nat := 0
  anchored : List Anchored := []

/-- Reading may fail: the text is not well formed. -/
abbrev Read := StateT Reader Option

namespace Reader

/-- The next token. -/
def peek : Read Token := do
  match (← get).tokens with
  | [] => failure
  | t :: _ => pure t

/-- Passes the next token. -/
def skip : Read Unit := modify fun r => { r with tokens := r.tokens.drop 1 }

/-- Passes the next token if it is the given one, and tells whether it was. -/
def skipIf (lexeme : Lexeme) : Read Bool := do
  if (← peek).lexeme = lexeme then
    skip
    pure true
  else pure false

/-- Whether the next token is one of the given ones. -/
def nextIsOneOf (lexemes : List Lexeme) : Read Bool := do
  let t ← peek
  pure (lexemes.contains t.lexeme)

/-! ### Anchors and tags -/

/-- Gives the next node the number of a name; the rank is counted from one. -/
def nameAnchor (name : Text) : Read (Nat × Nat) := do
  let r ← get
  let number := r.names.length
  let names :=
    if r.names.any (·.1 == name) then
      r.names.map fun entry => if entry.1 == name then (name, number) else entry
    else r.names ++ [(name, number)]
  set { r with names := names, anchorCount := r.anchorCount + 1 }
  pure (number, r.anchorCount + 1)

/-- Keeps an anchored node. -/
def keepAnchored (node : Node) : Option (Nat × Nat) → Read Unit
  | none => pure ()
  | some (number, rank) => modify fun r => { r with anchored := ⟨number, rank, node⟩ :: r.anchored }

/-- The number of a name that is known. -/
def numberOf (name : Text) : Read Nat := do
  match (← get).names.lookup name with
  | some number => pure number
  | none => failure

/-- The whole tag for a handle and a suffix. -/
def expandTag (handle suffix : Text) : Read Text := do
  if handle.isEmpty then pure suffix
  else
    match (← get).handles.lookup handle with
    | some opening => pure (opening ++ suffix)
    | none => failure

/-- What stands before a node. -/
structure Properties where
  start : Mark
  tag : Option Text := none
  anchor : Option Text := none

/-- Whether anything stands before the node. -/
def Properties.isPresent (p : Properties) : Bool := p.tag.isSome || p.anchor.isSome

/-- Reads an anchor, if there is one. -/
def anchor? : Read (Option Text) := do
  match (← peek).lexeme with
  | .anchor name => do
    skip
    pure (some name)
  | _ => pure none

/-- Reads a tag, if there is one. -/
def tag? : Read (Option Text) := do
  match (← peek).lexeme with
  | .tag handle suffix => do
    skip
    let tag ← expandTag handle suffix
    pure (some tag)
  | _ => pure none

/-- Reads an anchor and a tag in either order. -/
def properties : Read Properties := do
  let start := (← peek).start
  match ← anchor? with
  | some name => pure { start := start, anchor := some name, tag := ← tag? }
  | none =>
    match ← tag? with
    | some tag => pure { start := start, tag := some tag, anchor := ← anchor? }
    | none => pure { start := start }

/-- The tag that a scalar keeps: the lone `!` says nothing about it. -/
def scalarTag (tag : Option Text) : Option Text := if tag = some ['!'] then none else tag

/-! ### Nodes -/

/-- What kinds of collection may start a node. -/
inductive Place
  /-- Inside a flow collection. -/
  | flow
  /-- In block context. -/
  | block
  /-- As a key or value of a block mapping, where a sequence need not be indented. -/
  | entry
  deriving DecidableEq

mutual

/-- Reads a node. -/
def node : Nat → Place → Read Node
  | 0, _ => failure
  | fuel + 1, place => do
    let t ← peek
    match t.lexeme with
    | .alias name => do
      skip
      pure (.reference t.start (← numberOf name))
    | _ => do
      let p ← properties
      let slot ← match p.anchor with
        | some name => some <$> nameAnchor name
        | none => pure none
      let result ← content fuel place p
      keepAnchored result slot
      pure result

/-- Reads what follows the properties of a node. -/
def content : Nat → Place → Properties → Read Node
  | 0, _, _ => failure
  | fuel + 1, place, p => do
    let t ← peek
    match t.lexeme with
    | .scalar plain text => do
      skip
      pure (.scalar p.start (scalarTag p.tag) plain text)
    | .flowSequenceStart => do
      skip
      pure (.sequence p.start p.tag (← flowItems fuel true))
    | .flowMappingStart => do
      skip
      pure (.mapping p.start p.tag (← flowEntries fuel true))
    | .blockSequenceStart =>
      if place = .flow then absentContent p
      else do
        skip
        pure (.sequence p.start p.tag (← blockItems fuel))
    | .blockMappingStart =>
      if place = .flow then absentContent p
      else do
        skip
        pure (.mapping p.start p.tag (← blockEntries fuel))
    | .blockEntry =>
      if place = .entry then do pure (.sequence p.start p.tag (← indentlessItems fuel))
      else absentContent p
    | _ => absentContent p

/-- Only properties can stand for a node. -/
def absentContent (p : Properties) : Read Node :=
  if p.isPresent then pure (.scalar p.start p.tag true []) else failure

/-- Reads the items of a block sequence and its end. -/
def blockItems : Nat → Read (List Node)
  | 0 => failure
  | fuel + 1 => do
    let dash ← peek
    if ← skipIf .blockEntry then
      let item ←
        if ← nextIsOneOf [.blockEntry, .blockEnd] then pure (Node.absent dash.stop)
        else node fuel .block
      pure (item :: (← blockItems fuel))
    else if ← skipIf .blockEnd then pure []
    else failure

/-- Reads the items of a sequence that is not indented. -/
def indentlessItems : Nat → Read (List Node)
  | 0 => failure
  | fuel + 1 => do
    let dash ← peek
    if ← skipIf .blockEntry then
      let item ←
        if ← nextIsOneOf [.blockEntry, .key, .value, .blockEnd] then pure (Node.absent dash.stop)
        else node fuel .block
      pure (item :: (← indentlessItems fuel))
    else pure []

/-- Reads the entries of a block mapping and its end. -/
def blockEntries : Nat → Read (List (Node × Node))
  | 0 => failure
  | fuel + 1 => do
    let mark ← peek
    if ← skipIf .key then
      let k ← blockPart fuel mark.stop
      let colon ← peek
      let v ←
        if ← skipIf .value then blockPart fuel colon.stop
        else pure (Node.absent colon.start)
      pure ((k, v) :: (← blockEntries fuel))
    else if ← skipIf .blockEnd then pure []
    else failure

/-- Reads a key or a value of a block mapping, which may be left out. -/
def blockPart : Nat → Mark → Read Node
  | 0, _ => failure
  | fuel + 1, m => do
    if ← nextIsOneOf [.key, .value, .blockEnd] then pure (Node.absent m)
    else node fuel .entry

/-- Reads the items of a flow sequence and its end. -/
def flowItems : Nat → Bool → Read (List Node)
  | 0, _ => failure
  | fuel + 1, first => do
    if ← skipIf .flowSequenceEnd then pure []
    else
      let separated ← if first then pure true else skipIf .flowEntry
      if !separated then failure
      else if ← skipIf .flowSequenceEnd then pure []
      else
        let t ← peek
        let item ←
          if ← skipIf .key then do pure (.mapping t.start none [← singlePair fuel])
          else node fuel .flow
        pure (item :: (← flowItems fuel false))

/-- Reads the only entry of a mapping that is an item of a flow sequence. Where the key is
left out, the token after it is passed. -/
def singlePair : Nat → Read (Node × Node)
  | 0 => failure
  | fuel + 1 => do
    let t ← peek
    let k ←
      if ← nextIsOneOf [.value, .flowEntry, .flowSequenceEnd] then do
        skip
        pure (Node.absent t.stop)
      else node fuel .flow
    let v ←
      if ← skipIf .value then flowPart fuel .flowSequenceEnd
      else do pure (Node.absent (← peek).start)
    pure (k, v)

/-- Reads the entries of a flow mapping and its end. -/
def flowEntries : Nat → Bool → Read (List (Node × Node))
  | 0, _ => failure
  | fuel + 1, first => do
    if ← skipIf .flowMappingEnd then pure []
    else
      let separated ← if first then pure true else skipIf .flowEntry
      if !separated then failure
      else if ← skipIf .flowMappingEnd then pure []
      else
        let explicit ← skipIf .key
        if explicit then
          let k ←
            if ← nextIsOneOf [.value] then do pure (Node.absent (← peek).start)
            else flowPart fuel .flowMappingEnd
          let v ←
            if ← skipIf .value then flowPart fuel .flowMappingEnd
            else do pure (Node.absent (← peek).start)
          pure ((k, v) :: (← flowEntries fuel false))
        else
          let k ← node fuel .flow
          let v := Node.absent (← peek).start
          pure ((k, v) :: (← flowEntries fuel false))

/-- Reads a part of an entry in a flow collection, which may be left out. -/
def flowPart : Nat → Lexeme → Read Node
  | 0, _ => failure
  | fuel + 1, closing => do
    if ← nextIsOneOf [.flowEntry, closing] then do pure (Node.absent (← peek).start)
    else node fuel .flow

end

/-! ### Documents -/

/-- Reads the directives before a document: at most one version, and every handle once. -/
def directives : Nat → Bool → List (Text × Text) → Read (List (Text × Text))
  | 0, _, _ => failure
  | fuel + 1, versioned, handles => do
    match (← peek).lexeme with
    | .directive (.version major minor) =>
      if versioned || major != 1 || (minor != 1 && minor != 2) then failure
      else do
        skip
        directives fuel true handles
    | .directive (.tag handle opening) =>
      if handles.any (·.1 == handle) then failure
      else do
        skip
        directives fuel versioned (handles ++ [(handle, opening)])
    | _ => pure handles

/-- The handles that every document knows. -/
def defaultHandles : List (Text × Text) :=
  [(['!'], ['!']), (['!', '!'], "tag:yaml.org,2002:".toList)]

/-- Whether a token can only stand between documents. -/
def isBetweenDocuments : Lexeme → Bool
  | .directive _ => true
  | .documentStart => true
  | .documentEnd => true
  | .streamEnd => true
  | _ => false

/-- Passes the marks that end a document. -/
def skipDocumentEnds : Nat → Read Unit
  | 0 => failure
  | fuel + 1 => do
    if ← skipIf .documentEnd then skipDocumentEnds fuel

/-- Reads the root of the only document; an empty text holds an absent node at its end. -/
def root (fuel : Nat) : Read Node := do
  let t ← peek
  if t.lexeme = .streamEnd then pure (Node.absent t.start)
  else
    let handles ← directives fuel false []
    modify fun r => { r with handles := handles ++ defaultHandles }
    let opened ← skipIf .documentStart
    let next ← peek
    let directed := match t.lexeme with
      | .directive _ => true
      | _ => false
    if directed && !opened then failure
    else
      let result ←
        if opened && isBetweenDocuments next.lexeme then pure (Node.absent next.start)
        else node fuel .block
      skipDocumentEnds fuel
      if (← peek).lexeme = .streamEnd then pure result else failure

end Reader

/-- Reads the only document of a text; none if the text is not well formed or holds more
than one. -/
def Document.read (text : Text) : Option Document := do
  let tokens ← tokens? text
  let (root, r) ← (Reader.root (4 * tokens.length + 4)).run { tokens := tokens }
  some { root := root, anchored := r.anchored }

end CommandTemplates.Yaml
