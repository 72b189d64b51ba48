import TreeProtocol.Json.Digits

/-!
# Reading JSON

A text is a document with blanks around it, and nothing else. Numbers have no leading zeros, texts
no raw control characters, and lists no comma at their end.

Arrays and objects at the nesting level `nestingLimit` are unusable, so a document that is needed
as a whole nests less deeply.
-/

namespace TreeProtocol.Json

/-- The level at which arrays and objects are too deeply nested to be used. -/
def nestingLimit : Nat := 128

/-- The blanks between the parts of a document. -/
def isGap (c : Char) : Bool := c = ' ' || c = '\n' || c = '\t' || c = '\r'

/-- A text without the blanks at its front. -/
def skipGap (s : List Char) : List Char := s.dropWhile isGap

/-! ### Texts -/

/-- The value of a hexadecimal digit. -/
def hexDigit? (c : Char) : Option Nat :=
  if '0' ≤ c ∧ c ≤ '9' then some (c.toNat - '0'.toNat)
  else if 'a' ≤ c ∧ c ≤ 'f' then some (c.toNat - 'a'.toNat + 10)
  else if 'A' ≤ c ∧ c ≤ 'F' then some (c.toNat - 'A'.toNat + 10)
  else none

/-- The value of four hexadecimal digits. -/
def hexUnit? (a b c d : Char) : Option Nat := do
  let a ← hexDigit? a
  let b ← hexDigit? b
  let c ← hexDigit? c
  let d ← hexDigit? d
  some (((a * 16 + b) * 16 + c) * 16 + d)

/-- What a letter behind a backslash stands for. -/
def unescape? : Char → Option Char
  | '"' => some '"'
  | '\\' => some '\\'
  | '/' => some '/'
  | 'b' => some '\x08'
  | 'f' => some '\x0c'
  | 'n' => some '\n'
  | 'r' => some '\r'
  | 't' => some '\t'
  | _ => none

/-- A piece of a text: a character, or an escape of four hexadecimal digits. -/
inductive Piece where
  | char (c : Char)
  | unit (n : Nat)

/-- Splits a text off behind its opening quotation mark. -/
def splitText : List Char → Option (List Piece × List Char)
  | [] => none
  | '"' :: rest => some ([], rest)
  | '\\' :: 'u' :: a :: b :: c :: d :: rest => do
    let n ← hexUnit? a b c d
    let (pieces, rest) ← splitText rest
    some (.unit n :: pieces, rest)
  | '\\' :: e :: rest => do
    let c ← unescape? e
    let (pieces, rest) ← splitText rest
    some (.char c :: pieces, rest)
  | c :: rest =>
    if c < ' ' then none
    else do
      let (pieces, rest) ← splitText rest
      some (.char c :: pieces, rest)

/-- Whether a unit opens a surrogate pair. -/
def isHigh (n : Nat) : Bool := 0xd800 ≤ n && n < 0xdc00

/-- Whether a unit closes a surrogate pair. -/
def isLow (n : Nat) : Bool := 0xdc00 ≤ n && n < 0xe000

/-- The text that pieces stand for, unless a surrogate stands alone. -/
def joinPieces : List Piece → Option (List Char)
  | [] => some []
  | .char c :: rest => (joinPieces rest).map (c :: ·)
  | .unit h :: .unit l :: rest =>
    if isHigh h && isLow l then
      (joinPieces rest).map (Char.ofNat (0x10000 + (h - 0xd800) * 0x400 + (l - 0xdc00)) :: ·)
    else if isHigh h || isLow h then none
    else (joinPieces (.unit l :: rest)).map (Char.ofNat h :: ·)
  | .unit h :: rest =>
    if isHigh h || isLow h then none else (joinPieces rest).map (Char.ofNat h :: ·)

/-- Splits a text off behind its opening quotation mark; the text itself is missing if a surrogate
stands alone in it. -/
def readText (s : List Char) : Option (Option String × List Char) :=
  (splitText s).map fun (pieces, rest) => ((joinPieces pieces).map String.ofList, rest)

/-! ### Documents -/

/-- The members of an object, if all of them have keys. -/
def keyedMembers : List (Option String × Json) → Option (List (String × Json))
  | [] => some []
  | (none, _) :: _ => none
  | (some key, value) :: rest => (keyedMembers rest).map ((key, value) :: ·)

/-- An array at a nesting level. -/
def arrayAt (level : Nat) (items : List Json) : Json :=
  if nestingLimit ≤ level then .unusable else .array items

/-- An object at a nesting level. -/
def objectAt (level : Nat) (members : List (Option String × Json)) : Json :=
  if nestingLimit ≤ level then .unusable
  else match keyedMembers members with
    | some members => .object members
    | none => .unusable

mutual

/-- Splits a value off the front of a text, by at most `fuel` steps. -/
def readValue : (fuel level : Nat) → List Char → Option (Json × List Char)
  | 0, _, _ => none
  | fuel + 1, level, s =>
    match skipGap s with
    | 'n' :: 'u' :: 'l' :: 'l' :: rest => some (.null, rest)
    | 't' :: 'r' :: 'u' :: 'e' :: rest => some (.bool true, rest)
    | 'f' :: 'a' :: 'l' :: 's' :: 'e' :: rest => some (.bool false, rest)
    | '"' :: rest =>
      (readText rest).map fun (t, rest) => ((t.map .text).getD .unusable, rest)
    | '[' :: rest =>
      match skipGap rest with
      | ']' :: rest => some (arrayAt (level + 1) [], rest)
      | rest => do
        let (items, rest) ← readItems fuel (level + 1) rest
        some (arrayAt (level + 1) items, rest)
    | '\x7b' :: rest =>
      match skipGap rest with
      | '\x7d' :: rest => some (objectAt (level + 1) [], rest)
      | rest => do
        let (members, rest) ← readMembers fuel (level + 1) rest
        some (objectAt (level + 1) members, rest)
    | s => (splitNumber s).map fun (t, rest) => ((t.value?.map .number).getD .unusable, rest)

/-- Splits the items of an array off, and the closing bracket. -/
def readItems : (fuel level : Nat) → List Char → Option (List Json × List Char)
  | 0, _, _ => none
  | fuel + 1, level, s => do
    let (item, rest) ← readValue fuel level s
    match skipGap rest with
    | ']' :: rest => some ([item], rest)
    | ',' :: rest =>
      let (items, rest) ← readItems fuel level rest
      some (item :: items, rest)
    | _ => none

/-- Splits the members of an object off, and the closing brace. -/
def readMembers : (fuel level : Nat) → List Char → Option (List (Option String × Json) × List Char)
  | 0, _, _ => none
  | fuel + 1, level, s =>
    match skipGap s with
    | '"' :: rest => do
      let (key, rest) ← readText rest
      match skipGap rest with
      | ':' :: rest =>
        let (value, rest) ← readValue fuel level rest
        match skipGap rest with
        | '\x7d' :: rest => some ([(key, value)], rest)
        | ',' :: rest =>
          let (members, rest) ← readMembers fuel level rest
          some ((key, value) :: members, rest)
        | _ => none
      | _ => none
    | _ => none

end

/-- Reads a document. Every step takes a character off, so there are enough steps. -/
def read (s : String) : Option Json :=
  let chars := s.toList
  match readValue (2 * chars.length + 1) 0 chars with
  | some (value, rest) => if skipGap rest = [] then some value else none
  | none => none

end TreeProtocol.Json
