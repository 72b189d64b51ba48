import TreeProtocol.Yaml.Token

/-!
# Documents as trees

The tree that the tokens of a YAML text describe. A text holds one document; one without any
content is an empty scalar, and so is a missing key, value or item.

A collection whose items are indented no further than the key above them has no tokens for its
opening and end, and ends where no item follows.

A node may have a number, by which references stand for it. References stay in the tree, since a
node may hold references to itself; `targets` says what they stand for.
-/

namespace TreeProtocol.Yaml

/-- A document or a part of one. -/
inductive Node where
  /-- A text with its tag, which is empty if there is none. -/
  | scalar (text : String) (style : Style) (tag : String)
  | sequence (items : List Node)
  /-- Keys with their values, in the order of the text. -/
  | mapping (entries : List (Node × Node))
  /-- A node with a number. -/
  | anchored (number : Nat) (node : Node)
  /-- Stands for the node of a number. -/
  | reference (number : Nat)
  deriving Inhabited

namespace Node

/-- What stands where nothing is written. -/
def blank : Node := .scalar "" .plain ""

/-- Whether nothing is written here but perhaps a tag. -/
def isBlank : Node → Bool
  | .scalar text style _ => text.isEmpty && style == .plain
  | _ => false

/-! ### Parts -/

mutual

/-- A node with all its parts, in the order of the text. -/
def parts : Node → List Node
  | .scalar text style tag => [.scalar text style tag]
  | .sequence items => .sequence items :: itemParts items
  | .mapping entries => .mapping entries :: entryParts entries
  | .anchored number node => .anchored number node :: node.parts
  | .reference number => [.reference number]

/-- The parts of the items of a sequence. -/
def itemParts : List Node → List Node
  | [] => []
  | item :: rest => item.parts ++ itemParts rest

/-- The parts of the entries of a mapping. -/
def entryParts : List (Node × Node) → List Node
  | [] => []
  | (key, value) :: rest => key.parts ++ (value.parts ++ entryParts rest)

end

/-- The nodes that references stand for. Of several nodes with one number the last one counts. -/
def targets (root : Node) : KeyMap Nat Node :=
  KeyMap.ofList (root.parts.filterMap fun
    | .anchored number node => some (number, node)
    | _ => none)

/-- The number of marks that a node has besides those of its parts: a text and a reference are one,
and a collection has its beginning and its end. -/
def marks : Node → Nat
  | .scalar .. | .reference _ => 1
  | .sequence _ | .mapping _ => 2
  | .anchored .. => 0

/-- The number of marks in a node and its parts. -/
def size (root : Node) : Nat := root.parts.foldl (fun n part => n + part.marks) 0

/-! ### What stands in front of a node -/

/-- The number and the tag that a node is given. -/
structure Properties where
  number : Option Nat := none
  tag : Option String := none

namespace Properties

/-- Splits a number and a tag off, in either order. -/
def split : List Token → Properties × List Token
  | .anchor number :: .tag tag :: rest => (⟨some number, some tag⟩, rest)
  | .tag tag :: .anchor number :: rest => (⟨some number, some tag⟩, rest)
  | .anchor number :: rest => (⟨some number, none⟩, rest)
  | .tag tag :: rest => (⟨none, some tag⟩, rest)
  | rest => ({}, rest)

/-- Whether there is neither number nor tag. -/
def isEmpty (ps : Properties) : Bool := ps.number.isNone && ps.tag.isNone

/-- The node with its number and its tag. -/
def attach (ps : Properties) (node : Node) : Node :=
  let node := match node, ps.tag with
    | .scalar text style _, some tag => .scalar text style tag
    | node, _ => node
  match ps.number with
  | some number => .anchored number node
  | none => node

end Properties

/-! ### Trees -/

/-- Where a node stands. -/
inductive Position where
  /-- In a flow collection, where block collections are not allowed. -/
  | flow
  | block
  /-- Behind a key of a block mapping, where items need no further indentation. -/
  | behindKey
  deriving DecidableEq

/-- Tokens with which a text or a collection begins. -/
def Position.allows (position : Position) : Token → Bool
  | .scalar .. | .flowSequence | .flowMapping => true
  | .blockSequence | .blockMapping => position ≠ .flow
  | .item => position = .behindKey
  | _ => false

/-- Tokens before which a key or a value of a block mapping is missing. -/
def endsEntry : Token → Bool
  | .key | .value | .blockEnd => true
  | _ => false

/-- Tokens before which an item of a block sequence is missing. -/
def endsItem : Token → Bool
  | .item | .blockEnd => true
  | _ => false

/-- Tokens before which an item is missing that is indented no further than the key above. -/
def endsLooseItem (t : Token) : Bool := endsItem t || endsEntry t

/-- Tokens before which a part of a flow collection is missing. -/
def endsFlowPart : Token → Bool
  | .value | .comma | .flowMappingEnd | .flowSequenceEnd => true
  | _ => false

/-- Tokens that take the place of a key that is announced in a flow sequence. -/
def replacesKey : Token → Bool
  | .value | .comma | .flowSequenceEnd => true
  | _ => false

mutual

/-- Splits a node off, by at most `fuel` steps. Behind a number or a tag nothing else needs to be
there. -/
def ofTokens : (fuel : Nat) → Position → List Token → Option (Node × List Token)
  | 0, _, _ => none
  | _ + 1, _, .reference number :: rest => some (.reference number, rest)
  | fuel + 1, position, s => do
    let (properties, s) := Properties.split s
    let (node, rest) ←
      if s.head?.any position.allows then bare fuel s
      else if properties.isEmpty then none
      else some (blank, s)
    some (properties.attach node, rest)

/-- Splits a text or a collection off. -/
def bare : (fuel : Nat) → List Token → Option (Node × List Token)
  | 0, _ => none
  | _ + 1, .scalar text style :: rest => some (.scalar text style "", rest)
  | fuel + 1, .flowSequence :: rest => do
    let (items, rest) ← flowItems fuel rest
    some (.sequence items, rest)
  | fuel + 1, .flowMapping :: rest => do
    let (entries, rest) ← flowEntries fuel rest
    some (.mapping entries, rest)
  | fuel + 1, .blockSequence :: rest => do
    let (items, rest) ← blockItems fuel rest
    some (.sequence items, rest)
  | fuel + 1, .blockMapping :: rest => do
    let (entries, rest) ← blockEntries fuel rest
    some (.mapping entries, rest)
  | fuel + 1, .item :: rest => do
    let (items, rest) ← looseItems fuel (.item :: rest)
    some (.sequence items, rest)
  | _ + 1, _ => none

/-- Splits a node off, or nothing before a token at which it is missing. -/
def orBlank : (fuel : Nat) → Position → (Token → Bool) → List Token → Option (Node × List Token)
  | 0, _, _, _ => none
  | fuel + 1, position, missing, s =>
    match s with
    | t :: _ => if missing t then some (blank, s) else ofTokens fuel position s
    | [] => none

/-- Splits the items of a block sequence off, and its end. -/
def blockItems : (fuel : Nat) → List Token → Option (List Node × List Token)
  | 0, _ => none
  | fuel + 1, .item :: rest => do
    let (item, rest) ← orBlank fuel .block endsItem rest
    let (items, rest) ← blockItems fuel rest
    some (item :: items, rest)
  | _ + 1, .blockEnd :: rest => some ([], rest)
  | _ + 1, _ => none

/-- Splits off items that are indented no further than the key above them. -/
def looseItems : (fuel : Nat) → List Token → Option (List Node × List Token)
  | 0, _ => none
  | fuel + 1, .item :: rest => do
    let (item, rest) ← orBlank fuel .block endsLooseItem rest
    let (items, rest) ← looseItems fuel rest
    some (item :: items, rest)
  | _ + 1, s => some ([], s)

/-- Splits the entries of a block mapping off, and its end. -/
def blockEntries : (fuel : Nat) → List Token → Option (List (Node × Node) × List Token)
  | 0, _ => none
  | fuel + 1, .key :: rest => do
    let (key, rest) ← orBlank fuel .behindKey endsEntry rest
    let (value, rest) ← match rest with
      | .value :: rest => orBlank fuel .behindKey endsEntry rest
      | rest => some (blank, rest)
    let (entries, rest) ← blockEntries fuel rest
    some ((key, value) :: entries, rest)
  | _ + 1, .blockEnd :: rest => some ([], rest)
  | _ + 1, _ => none

/-- Splits off a value of a flow collection with its colon, if the colon is there. -/
def flowValue : (fuel : Nat) → List Token → Option (Node × List Token)
  | 0, _ => none
  | fuel + 1, .value :: rest => orBlank fuel .flow endsFlowPart rest
  | _ + 1, rest => some (blank, rest)

/-- Splits off an item of a flow sequence. An announced key makes it a mapping with one entry.
Where that key is missing, the token behind the announcement is dropped. -/
def flowItem : (fuel : Nat) → List Token → Option (Node × List Token)
  | 0, _ => none
  | fuel + 1, .key :: t :: rest => do
    let (key, rest) ←
      if replacesKey t then some (blank, rest) else ofTokens fuel .flow (t :: rest)
    let (value, rest) ← flowValue fuel rest
    some (.mapping [(key, value)], rest)
  | fuel + 1, s => ofTokens fuel .flow s

/-- Splits the items of a flow sequence off, and its end. -/
def flowItems : (fuel : Nat) → List Token → Option (List Node × List Token)
  | 0, _ => none
  | _ + 1, .flowSequenceEnd :: rest => some ([], rest)
  | fuel + 1, s => do
    let (item, rest) ← flowItem fuel s
    match rest with
    | .flowSequenceEnd :: rest => some ([item], rest)
    | .comma :: rest =>
      let (items, rest) ← flowItems fuel rest
      some (item :: items, rest)
    | _ => none

/-- Splits off an entry of a flow mapping: an announced key with its value, or a key alone. -/
def flowEntry : (fuel : Nat) → List Token → Option ((Node × Node) × List Token)
  | 0, _ => none
  | fuel + 1, .key :: rest => do
    let (key, rest) ← orBlank fuel .flow endsFlowPart rest
    let (value, rest) ← flowValue fuel rest
    some ((key, value), rest)
  | fuel + 1, s => do
    let (key, rest) ← ofTokens fuel .flow s
    some ((key, blank), rest)

/-- Splits the entries of a flow mapping off, and its end. -/
def flowEntries : (fuel : Nat) → List Token → Option (List (Node × Node) × List Token)
  | 0, _ => none
  | _ + 1, .flowMappingEnd :: rest => some ([], rest)
  | fuel + 1, s => do
    let (entry, rest) ← flowEntry fuel s
    match rest with
    | .flowMappingEnd :: rest => some ([entry], rest)
    | .comma :: rest =>
      let (entries, rest) ← flowEntries fuel rest
      some (entry :: entries, rest)
    | _ => none

end

/-- What follows the marks in front of a document. Behind directives it must have a mark of its
own, and it does not begin with an end. -/
def opening : List Token → Option (List Token)
  | .documentStart :: rest => some rest
  | .documentEnd :: _ => none
  | .directive :: rest =>
    match rest.dropWhile (· = .directive) with
    | .documentStart :: rest => some rest
    | _ => none
  | s => some s

/-- The content of a document without the marks around it. At most four steps are made between two
tokens. -/
def content (s : List Token) : Option (Node × List Token) :=
  match s with
  | [] | .documentStart :: _ | .documentEnd :: _ => some (blank, s)
  | _ => ofTokens (5 * s.length + 5) .block s

/-- The one document that a text holds. -/
def read (text : String) : Option Node := do
  let (node, rest) ← content (← opening (← Token.read text))
  if rest.all (· = .documentEnd) then some node else none

end Node

end TreeProtocol.Yaml
