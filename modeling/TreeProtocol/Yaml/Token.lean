import TreeProtocol.Yaml.Block
import TreeProtocol.Yaml.Scalar
import TreeProtocol.Yaml.Tag

/-!
# Tokens

A YAML text as a list of tokens, in which the layout has become explicit: a block collection opens
with a token of its own and closes with `blockEnd`, and a key is announced by `key` whether or not
the text marks it.

A key is known as one only when the colon behind it is found. So wherever a key can begin, the
place is kept as a candidate, and the colon puts the missing tokens there. A candidate is dropped
at the end of its line. Where the indentation leaves no choice but a key, dropping it is a fault.

Names do not outlive the reading. An anchor gives the node behind it the count of the names known
before as its number, and a reference has the number that its name was last given, so it must come
behind the anchor. A name that is used again leaves the count as it is, so the next new name takes
the same number. Tags are put in full.
-/

namespace TreeProtocol.Yaml

/-- A piece of a text, or a turn of its layout. -/
inductive Token where
  | documentStart
  | documentEnd
  | blockSequence
  | blockMapping
  | blockEnd
  | flowSequence
  | flowSequenceEnd
  | flowMapping
  | flowMappingEnd
  /-- The dash in front of an item. -/
  | item
  | comma
  | key
  | value
  | directive
  /-- Numbers the node behind it. -/
  | anchor (number : Nat)
  /-- Stands for the node of a number. -/
  | reference (number : Nat)
  | tag (text : String)
  | scalar (text : String) (style : Style)
  deriving DecidableEq, Inhabited

/-- A place where a key can have begun. -/
structure Candidate where
  /-- The number of tokens before it. -/
  place : Nat
  /-- Its first character. -/
  start : Placed
  /-- Whether the indentation demands a key here. -/
  isRequired : Bool
  deriving Inhabited

/-- The greatest length of a key in bytes. -/
def longestKey : Nat := 1024

/-- Whether a candidate can no longer be a key when the text has come to a character. -/
def Candidate.isStale (c : Candidate) (p : Placed) : Bool :=
  c.start.line < p.line || c.start.offset + longestKey < p.offset

/-- What is known about the text read so far. -/
structure Layout where
  /-- The tokens, the last one first. -/
  tokens : List Token := []
  /-- The columns of the open block collections, innermost first. -/
  indents : List Nat := []
  /-- Whether a key can begin here. -/
  keyAllowed : Bool := true
  /-- The candidate in the innermost flow collection, or outside of all. -/
  candidate : Option Candidate := none
  /-- The candidates around the open flow collections, innermost first. -/
  around : List (Option Candidate) := []
  /-- The numbers that the names of anchors were last given. -/
  names : KeyMap String Nat := ∅
  preamble : Preamble := {}
  deriving Inhabited

namespace Layout

/-- Whether a flow collection is open. -/
def inFlow (l : Layout) : Bool := !l.around.isEmpty

/-- One more token. -/
def emit (l : Layout) (t : Token) : Layout := { l with tokens := t :: l.tokens }

/-- Allows or forbids a key. -/
def allowKey (l : Layout) (keyAllowed : Bool) : Layout := { l with keyAllowed }

/-- Puts a token in front of which there are `place` others. -/
def insertAt (l : Layout) (place : Nat) (t : Token) : Layout :=
  let behind := l.tokens.length - place
  { l with tokens := l.tokens.take behind ++ t :: l.tokens.drop behind }

/-- The least column of the lines inside the innermost block collection. -/
def innerIndent (l : Layout) : Nat :=
  match l.indents with
  | [] => 0
  | i :: _ => i + 1

/-- Closes the block collections that a column is left of. -/
def closeTo (l : Layout) (column : Nat) : Layout :=
  if l.inFlow then l
  else
    let (closed, indents) := l.indents.span (column < ·)
    { l with tokens := List.replicate closed.length .blockEnd ++ l.tokens, indents }

/-- Closes all block collections. -/
def closeAll (l : Layout) : Layout :=
  { l with tokens := List.replicate l.indents.length .blockEnd ++ l.tokens, indents := [] }

/-- Opens a block collection at a column, unless one is open there; its token is put in front of
which there are `place` others. -/
def openAt (l : Layout) (column place : Nat) (t : Token) : Layout :=
  if l.inFlow || column < l.innerIndent then l
  else { l.insertAt place t with indents := column :: l.indents }

/-- Opens a block collection at a character. -/
def openHere (l : Layout) (p : Placed) (t : Token) : Layout := l.openAt p.column l.tokens.length t

/-- Drops the candidate, which must not be required. -/
def drop (l : Layout) : Option Layout :=
  if l.candidate.any (·.isRequired) then none else some { l with candidate := none }

/-- Drops the candidates that have become stale, none of which may be required. -/
def dropStale (l : Layout) (p : Placed) : Option Layout :=
  if (l.candidate :: l.around).any (·.any fun c => c.isStale p && c.isRequired) then none
  else
    let fresh (c : Option Candidate) := c.filter (!·.isStale p)
    some { l with candidate := fresh l.candidate, around := l.around.map fresh }

/-- Keeps the place of a character as a candidate, if a key is allowed there. -/
def keep (l : Layout) (p : Placed) : Option Layout :=
  if l.keyAllowed then
    let isRequired := !l.inFlow && l.indents.head? == some p.column
    l.drop.map fun l => { l with candidate := some ⟨l.tokens.length, p, isRequired⟩ }
  else some l

/-! ### Tokens by their first character -/

/-- A directive, of which `s` is what follows the percent sign. -/
def directive (l : Layout) (s : List Placed) : Option (Layout × List Placed) := do
  let l ← l.closeAll.drop
  let (directive, rest) ← Directive.read s
  let preamble ← l.preamble.add directive
  some (({ l with preamble }.allowKey false).emit .directive, rest)

/-- A mark between documents. -/
def boundary (l : Layout) (t : Token) : Option Layout :=
  l.closeAll.drop.map fun l => (l.allowKey false).emit t

/-- The opening of a flow collection. -/
def openFlow (l : Layout) (p : Placed) (t : Token) : Option Layout :=
  (l.keep p).map fun l =>
    ({ l with candidate := none, around := l.candidate :: l.around }.allowKey true).emit t

/-- The end of a flow collection. -/
def closeFlow (l : Layout) (t : Token) : Option Layout :=
  l.drop.map fun l =>
    let l := match l.around with
      | [] => l
      | candidate :: around => { l with candidate, around }
    (l.allowKey false).emit t

/-- A comma. -/
def comma (l : Layout) : Option Layout := l.drop.map fun l => (l.allowKey true).emit .comma

/-- The dash in front of an item. -/
def item (l : Layout) (p : Placed) : Option Layout :=
  if !l.inFlow && !l.keyAllowed then none
  else (l.openHere p .blockSequence).drop.map fun l => (l.allowKey true).emit .item

/-- A question mark in front of a key. -/
def markedKey (l : Layout) (p : Placed) : Option Layout :=
  if !l.inFlow && !l.keyAllowed then none
  else (l.openHere p .blockMapping).drop.map fun l => (l.allowKey (!l.inFlow)).emit .key

/-- A colon. -/
def colon (l : Layout) (p : Placed) : Option Layout :=
  match l.candidate with
  | some c =>
    let l := (l.insertAt c.place .key).openAt c.start.column c.place .blockMapping
    some (({ l with candidate := none }.allowKey false).emit .value)
  | none =>
    if !l.inFlow && !l.keyAllowed then none
    else some (((l.openHere p .blockMapping).allowKey (!l.inFlow)).emit .value)

/-- Whether the name of an anchor can end before what follows. -/
def endsAnchor (s : List Placed) : Bool :=
  atGap s || s.head?.any fun p => ['?', ':', ',', ']', '\x7d', '%', '@', '\u0060'].contains p.char

/-- The name of an anchor, of which `s` is what follows the character in front of it. -/
def anchorName (s : List Placed) : Option (String × List Placed) :=
  let (name, rest) := readName s
  if !name.isEmpty && endsAnchor rest then some (name, rest) else none

/-- An anchor. -/
def anchor (l : Layout) (p : Placed) (s : List Placed) : Option (Layout × List Placed) := do
  let l ← l.keep p
  let (name, rest) ← anchorName s
  let number := l.names.size
  let names := l.names.insert name number
  some (({ l with names }.allowKey false).emit (.anchor number), rest)

/-- A reference to the node of an anchor. -/
def reference (l : Layout) (p : Placed) (s : List Placed) : Option (Layout × List Placed) := do
  let l ← l.keep p
  let (name, rest) ← anchorName s
  some ((l.allowKey false).emit (.reference (← l.names.find? name)), rest)

/-- A tag, of which `s` is what follows its exclamation mark. -/
def tag (l : Layout) (p : Placed) (s : List Placed) : Option (Layout × List Placed) := do
  let l ← l.keep p
  let (tag, rest) ← Tag.read s
  if !atGap rest && !(l.inFlow && rest.head?.any (·.char == ',')) then none
  some ((l.allowKey false).emit (.tag (← l.preamble.expand? tag)), rest)

/-- A block scalar, of which `s` is what follows its mark. A key can begin behind it. -/
def block (l : Layout) (style : Style) (s : List Placed) : Option (Layout × List Placed) := do
  let l ← l.drop
  let (text, rest) ← readBlock (style == .folded) l.indents.head? s
  some ((l.allowKey true).emit (.scalar (String.ofList text) style), rest)

/-- A quoted scalar, of which `s` is what follows the opening quotation mark. -/
def quoted (l : Layout) (p : Placed) (quote : Quote) (s : List Placed) :
    Option (Layout × List Placed) := do
  let l ← l.keep p
  let (text, rest) ← readQuoted quote s
  some ((l.allowKey false).emit (.scalar (String.ofList text) .quoted), rest)

/-- Whether a character can open a plain scalar. -/
def opensPlain (l : Layout) (p : Placed) (rest : List Placed) : Bool :=
  if p.char == '-' then !atGap rest
  else if p.char == '?' || p.char == ':' then !l.inFlow && !atGap rest
  else !isGap p.char && !isFlowMark p.char && !isIndicator p.char

/-- A plain scalar. A key can follow it only on a later line. -/
def plain (l : Layout) (p : Placed) (rest : List Placed) : Option (Layout × List Placed) := do
  let l ← l.keep p
  let s ← splitPlain l.innerIndent l.inFlow {} (p :: rest)
  some ((l.allowKey s.isBroken).emit (.scalar (String.ofList s.text) .plain), s.rest)

/-- Takes a token off a text that starts with one. -/
def step (l : Layout) (p : Placed) (rest : List Placed) : Option (Layout × List Placed) :=
  let single (l : Option Layout) := l.map (·, rest)
  if p.char == '%' && p.column == 0 then l.directive rest
  else if atMarker '-' (p :: rest) then (l.boundary .documentStart).map (·, rest.drop 2)
  else if atMarker '.' (p :: rest) then (l.boundary .documentEnd).map (·, rest.drop 2)
  else if p.char == '[' then single (l.openFlow p .flowSequence)
  else if p.char == '\x7b' then single (l.openFlow p .flowMapping)
  else if p.char == ']' then single (l.closeFlow .flowSequenceEnd)
  else if p.char == '\x7d' then single (l.closeFlow .flowMappingEnd)
  else if p.char == ',' then single l.comma
  else if p.char == '-' && atGap rest then single (l.item p)
  else if p.char == '?' && (l.inFlow || atGap rest) then single (l.markedKey p)
  else if p.char == ':' && (l.inFlow || atGap rest) then single (l.colon p)
  else if p.char == '&' then l.anchor p rest
  else if p.char == '*' then l.reference p rest
  else if p.char == '!' then l.tag p rest
  else if p.char == '|' && !l.inFlow then l.block .literal rest
  else if p.char == '>' && !l.inFlow then l.block .folded rest
  else if p.char == '\'' then l.quoted p .single rest
  else if p.char == '"' then l.quoted p .double rest
  else if l.opensPlain p rest then l.plain p rest
  else none

/-- Skips blanks, line ends and comments. Behind a line end a key can begin, except in a flow
collection; where a key can begin, a tab is not skipped. -/
def skip (l : Layout) (inComment : Bool) : List Placed → Layout × List Placed
  | [] => (l, [])
  | p :: rest =>
    if isBreak p.char then (l.allowKey (l.keyAllowed || !l.inFlow)).skip false rest
    else if inComment || p.char == ' ' || (p.char == byteOrderMark && p.column == 0) ||
        (p.char == '\t' && (l.inFlow || !l.keyAllowed)) then
      l.skip inComment rest
    else if p.char == '#' then l.skip true rest
    else (l, p :: rest)

/-- The tokens of a text, by at most `limit` steps. -/
def scan : (limit : Nat) → Layout → List Placed → Option (List Token)
  | 0, _, _ => none
  | limit + 1, l, s =>
    match l.skip false s with
    | (l, []) => l.closeAll.drop.map (·.tokens.reverse)
    | (l, p :: rest) => do
      let l ← l.dropStale p
      let (l, rest) ← (l.closeTo p.column).step p rest
      l.scan limit rest

end Layout

/-- The tokens of a text. Every step takes a character off, so there are enough steps. -/
def Token.read (s : String) : Option (List Token) :=
  (places s.toList).bind fun s => Layout.scan (s.length + 1) {} s

example : Token.read "a: [b]\nc:" = some [.blockMapping, .key, .scalar "a" .plain, .value,
    .flowSequence, .scalar "b" .plain, .flowSequenceEnd, .key, .scalar "c" .plain, .value,
    .blockEnd] := by decide +kernel
example : Token.read "a:\n\tb: c" = none := by decide +kernel
example : Token.read "a: b: c" = none := by decide +kernel
example : Token.read "[&a x, *a]" = some [.flowSequence, .anchor 0, .scalar "x" .plain, .comma,
    .reference 0, .flowSequenceEnd] := by decide +kernel
example : Token.read "*a" = none := by decide +kernel

end TreeProtocol.Yaml
