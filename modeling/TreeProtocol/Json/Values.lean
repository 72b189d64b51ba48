import TreeProtocol.Attrs
import TreeProtocol.Json.Record

/-!
# Values in documents

A value is an object with one member, whose key says what type of value it is, or the text `Nil`.
A number that is not finite has no form in a document and is written as `null`, which does not read
back. Attributes are an array of pairs, each a keyword and a value, so that their order and
repeated keywords are kept.
-/

namespace TreeProtocol

/-- A span as a document. -/
def Span.toJson (s : Span) : Json :=
  .object [("start", .natural s.start.toNat), ("end", .natural s.stop.toNat)]

/-- Reads a span, of which both ends must be there. -/
def Span.ofJson? (j : Json) : Option Span := do
  match ← j.fields? ["start", "end"] with
  | [start, stop] => some ⟨← Record.required Json.word? start, ← Record.required Json.word? stop⟩
  | _ => none

namespace Value

/-- A number as a document. -/
def numberToJson (x : Binary64) : Json :=
  if x.isFinite then .number (.float x) else .null

mutual

/-- A value as a document. -/
def toJson : Value → Json
  | .nil => .text "Nil"
  | .number x => .object [("Number", numberToJson x)]
  | .text s => .object [("String", .text s)]
  | .bool b => .object [("Bool", .bool b)]
  | .list items => .object [("List", .array (itemsToJson items))]
  | .map entries => .object [("Map", .object (entriesToJson entries))]
  | .bounds s => .object [("Bounds", s.toJson)]

/-- The items of a list as documents. -/
def itemsToJson : List Value → List Json
  | [] => []
  | x :: xs => toJson x :: itemsToJson xs

/-- The entries of a map as members of an object. -/
def entriesToJson : List (String × Value) → List (String × Json)
  | [] => []
  | (k, x) :: es => (k, toJson x) :: entriesToJson es

end

mutual

/-- Reads a value. -/
def ofJson? : Json → Option Value
  | .text s => if s = "Nil" then some .nil else none
  | .object [(tag, content)] => ofTagged? tag content
  | _ => none

/-- Reads what stands under the name of a type. -/
def ofTagged? (tag : String) : Json → Option Value
  | .null => if tag = "Nil" then some .nil else none
  | .number n => if tag = "Number" then some (.number n.toBinary64) else none
  | .text s => if tag = "String" then some (.text s) else none
  | .bool b => if tag = "Bool" then some (.bool b) else none
  | .array items =>
    if tag = "List" then (itemsOfJson? items).map .list
    else if tag = "Bounds" then (Span.ofJson? (.array items)).map .bounds
    else none
  | .object members =>
    if tag = "Map" then (entriesOfJson? members).map ofEntries
    else if tag = "Bounds" then (Span.ofJson? (.object members)).map .bounds
    else none
  | .unusable => none

/-- Reads the items of a list. -/
def itemsOfJson? : List Json → Option (List Value)
  | [] => some []
  | j :: js => do
    let x ← ofJson? j
    let xs ← itemsOfJson? js
    some (x :: xs)

/-- Reads the entries of a map. -/
def entriesOfJson? : List (String × Json) → Option (List (String × Value))
  | [] => some []
  | (k, j) :: es => do
    let x ← ofJson? j
    let es ← entriesOfJson? es
    some ((k, x) :: es)

end

end Value

/-- A pair of a keyword and a value as a document. -/
def Attrs.pairToJson (pair : String × Value) : Json := .array [.text pair.1, pair.2.toJson]

/-- Attributes as a document. -/
def Attrs.toJson (a : Attrs) : Json := .array (a.pairs.map pairToJson)

/-- Reads a pair of a keyword and a value. -/
def Attrs.pairOfJson? : Json → Option (String × Value)
  | .array [.text keyword, value] => (Value.ofJson? value).map (keyword, ·)
  | _ => none

/-- Reads attributes. -/
def Attrs.ofJson? : Json → Option Attrs
  | .array items => (items.mapM pairOfJson?).map Attrs.mk
  | _ => none

end TreeProtocol
