import TreeProtocol.Json.Reader
import TreeProtocol.KeyMap
import TreeProtocol.Yaml.Place

/-!
# Tags and directives

A tag says what a node is. It is written in full between angle brackets, or as a handle with a
suffix, where the handle stands for the front of the tag. The handles `!` and `!!` have a meaning
of their own, and a directive in front of a document gives or changes the meaning of a handle.

An escape in a tag is an octet in hexadecimal digits. The octets of a character follow one another,
and each is kept as the character of its number; tags are compared, never shown.
-/

namespace TreeProtocol.Yaml

/-- A tag as it is written. One in full has an empty handle. -/
structure Tag where
  handle : String
  suffix : String
  deriving DecidableEq

namespace Tag

/-- A character of a tag. Only a tag in full may hold a comma or a bracket. -/
def isTagChar (isFull : Bool) (c : Char) : Bool :=
  isNameChar c || (isFull && [',', '[', ']'].contains c) ||
    [';', '/', '?', ':', '@', '&', '=', '+', '$', '.', '!', '~', '*', '\'', '(', ')'].contains c

/-- The number of octets that follow an octet in its character, when `left` are to come. -/
def octetsBehind (left octet : Nat) : Option Nat :=
  match left with
  | 0 =>
    if octet < 0x80 then some 0
    else if octet < 0xc0 then none
    else if octet < 0xe0 then some 1
    else if octet < 0xf0 then some 2
    else if octet < 0xf8 then some 3
    else none
  | left + 1 => if 0x80 ≤ octet ∧ octet < 0xc0 then some left else none

/-- Splits off the characters of a tag, the first of which has `left` more octets to come. -/
def splitChars (isFull : Bool) : (left : Nat) → List Placed → Option (List Char × List Placed)
  | left, [] => if left = 0 then some ([], []) else none
  | left, p :: rest =>
    if p.char = '%' then
      match rest with
      | high :: low :: rest => do
        let octet := 16 * (← Json.hexDigit? high.char) + (← Json.hexDigit? low.char)
        let (text, rest) ← splitChars isFull (← octetsBehind left octet) rest
        some (Char.ofNat octet :: text, rest)
      | _ => none
    else if left ≠ 0 then none
    else if isTagChar isFull p.char then
      (splitChars isFull 0 rest).map fun (text, rest) => (p.char :: text, rest)
    else some ([], p :: rest)

/-- The text that characters of a tag come to: a null character ends it. -/
def textOf (s : List Char) : String := String.ofList (s.takeWhile (· ≠ '\x00'))

/-- Splits off a tag or the front of one, which must not be missing. -/
def readText (isFull : Bool) (s : List Placed) : Option (String × List Placed) :=
  match splitChars isFull 0 s with
  | some (c :: text, rest) => some (textOf (c :: text), rest)
  | _ => none

/-- Splits off a tag behind its exclamation mark. The mark alone is a tag in full. -/
def read (s : List Placed) : Option (Tag × List Placed) :=
  match readChar '<' s with
  | some s => do
    let (text, rest) ← readText true s
    some (⟨"", text⟩, ← readChar '>' rest)
  | none =>
    let (name, s) := readName s
    match readChar '!' s with
    | some s => (readText false s).map fun (text, rest) => (⟨"!" ++ name ++ "!", text⟩, rest)
    | none => (splitChars false 0 s).map fun (text, rest) =>
      let suffix := textOf (name.toList ++ text)
      (if suffix.isEmpty then ⟨"", "!"⟩ else ⟨"!", suffix⟩, rest)

end Tag

/-! ### Directives -/

/-- A line in front of a document that says how it is to be read. -/
inductive Directive where
  /-- The version of the notation. -/
  | version (major minor : Nat)
  /-- The front of a tag that a handle stands for. -/
  | shorthand (handle front : String)
  deriving DecidableEq

namespace Directive

/-- Splits off a handle with its exclamation marks, of which the second may be missing only if
nothing stands between them. -/
def readHandle (s : List Placed) : Option (String × List Placed) := do
  let (name, rest) := readName (← readChar '!' s)
  match readChar '!' rest with
  | some rest => some ("!" ++ name ++ "!", rest)
  | none => if name.isEmpty then some ("!", rest) else none

/-- Splits off a directive behind its percent sign, with the end of its line. -/
def read (s : List Placed) : Option (Directive × List Placed) := do
  let (name, rest) := readName s
  if !atGap rest then none
  if name = "YAML" then
    let (major, rest) ← readNumber (skipSpaces rest)
    let (minor, rest) ← readNumber (← readChar '.' rest)
    some (.version major minor, ← skipLine rest)
  else if name = "TAG" then
    let (handle, rest) ← readHandle (skipSpaces rest)
    if !rest.head?.any (isSpace ·.char) then none
    let (front, rest) ← Tag.readText true (skipSpaces rest)
    if !atGap rest then none
    some (.shorthand handle front, ← skipLine rest)
  else none

end Directive

/-- What the directives in front of a document say. -/
structure Preamble where
  hasVersion : Bool := false
  /-- The fronts of tags by their handles. -/
  handles : KeyMap String String := ∅
  deriving Inhabited

namespace Preamble

/-- The handles that no directive needs to give. -/
def commonHandles : KeyMap String String :=
  KeyMap.ofList [("!", "!"), ("!!", "tag:yaml.org,2002:")]

/-- One more directive. Only the versions 1.1 and 1.2 are known, and nothing may be said twice. -/
def add (p : Preamble) : Directive → Option Preamble
  | .version major minor =>
    if !p.hasVersion && major == 1 && (minor == 1 || minor == 2) then
      some { p with hasVersion := true }
    else none
  | .shorthand handle front =>
    if p.handles.contains handle then none
    else some { p with handles := p.handles.insert handle front }

/-- A tag in full. Fails if its handle has no meaning. -/
def expand? (p : Preamble) (tag : Tag) : Option String :=
  if tag.handle.isEmpty then some tag.suffix
  else
    let front := (p.handles.find? tag.handle).or (commonHandles.find? tag.handle)
    front.map (· ++ tag.suffix)

/-- The tag that a text holds behind its exclamation mark, in full. -/
def tagText (p : Preamble) (s : String) : Option String := do
  let (tag, _) ← Tag.read (← places s.toList)
  p.expand? tag

example : ({} : Preamble).tagText "!str" = some "tag:yaml.org,2002:str" := by decide +kernel
example : ({} : Preamble).tagText "a%41" = some "!aA" := by decide +kernel
example : ({} : Preamble).tagText "<a,b>" = some "a,b" := by decide +kernel
example : ({} : Preamble).tagText "" = some "!" := by decide +kernel
example : ({} : Preamble).tagText "e!x" = none := by decide +kernel

end Preamble

end TreeProtocol.Yaml
