import TreeProtocol.Json.Document
import TreeProtocol.Record

/-!
# Records in documents

A record is written as an object with a member for each field, and may also be given as an array of
the fields in order. In an object, unknown members are ignored and no field may occur twice; in an
array, fields may be missing at the end.
-/

namespace TreeProtocol.Json

/-- The values of the fields of a record, in the order of their names. -/
def fields? (names : List String) : Json → Option (List (Option Json))
  | .object members => names.mapM (Record.field? members)
  | .array items =>
    if items.length ≤ names.length then
      some (items.map some ++ List.replicate (names.length - items.length) none)
    else none
  | _ => none

/-- Reads an integer from 0 to `2 ^ 64 - 1`. -/
def word? : Json → Option UInt64
  | .number (.natural n) => some (UInt64.ofNat n)
  | _ => none

/-- Reads an integer from 0 to `2 ^ 64 - 1` as a natural number. -/
def nat? (j : Json) : Option Nat := j.word?.map (·.toNat)

/-- Reads a text. -/
def text? : Json → Option String
  | .text s => some s
  | _ => none

/-- Reads a truth value. -/
def bool? : Json → Option Bool
  | .bool b => some b
  | _ => none

/-- Reads an array of texts. -/
def texts? : Json → Option (List String)
  | .array items => items.mapM text?
  | _ => none

/-- Reads an object as a map; of several members under one key the last one counts. -/
def map? {α : Type} (decode : Json → Option α) : Json → Option (KeyMap String α)
  | .object members =>
    (members.mapM fun (m : String × Json) => (decode m.2).map (m.1, ·)).map KeyMap.ofList
  | _ => none

end TreeProtocol.Json
