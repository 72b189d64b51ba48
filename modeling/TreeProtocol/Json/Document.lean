import TreeProtocol.KeyMap
import TreeProtocol.Number.Notation

/-!
# JSON documents

A document as a tree. The members of an object stand in the order of the text, and a key may
occur more than once.

A part of a text can have the form of a value and stand for none: a number out of range, half of a
surrogate pair in a text, or arrays and objects nested too deeply. Such a part is `unusable`: it
may stand where its value does not matter, and nowhere else.
-/

namespace TreeProtocol

/-- A number of a document. -/
inductive Numeral where
  /-- An integer from 0 to `2 ^ 64 - 1`. -/
  | natural (n : Nat)
  /-- The integer `-n`, for `n` from 1 to `2 ^ 63`. -/
  | negative (n : Nat)
  /-- Any other number, and every number with a point or an exponent. -/
  | float (x : Binary64)
  deriving DecidableEq, Inhabited

namespace Numeral

/-- The floating-point number nearest to a numeral. -/
def toBinary64 : Numeral → Binary64
  | .natural n => .ofNat n
  | .negative n => .ofInt (-n)
  | .float x => x

/-- A numeral as text. -/
def text : Numeral → String
  | .natural n => toString n
  | .negative n => "-" ++ toString n
  | .float x => x.exactText

end Numeral

/-- A document. -/
inductive Json where
  | null
  | bool (b : Bool)
  | number (n : Numeral)
  | text (s : String)
  | array (items : List Json)
  | object (members : List (String × Json))
  /-- A part that has the form of a value and stands for none. -/
  | unusable
  deriving Inhabited

namespace Json

/-- An integer from 0 to `2 ^ 64 - 1` as a document. -/
def natural (n : Nat) : Json := .number (.natural n)

/-- The items of an array. -/
def items? : Json → Option (List Json)
  | .array items => some items
  | _ => none

/-- The members of an object. -/
def members? : Json → Option (List (String × Json))
  | .object members => some members
  | _ => none

/-- The member under a key; of several the last one. -/
def member? (key : String) : Json → Option Json
  | .object members => (members.reverse.find? (·.1 == key)).map (·.2)
  | _ => none

/-- The member under a key, unless it is null. -/
def given? (key : String) (j : Json) : Option Json :=
  match j.member? key with
  | some .null => none
  | other => other

mutual

/-- The document with the members of all its objects in the order of their keys. -/
def sorted : Json → Json
  | .array items => .array (sortedItems items)
  | .object members => .object (KeyMap.ofList (sortedMembers members)).entries
  | other => other

/-- The items of an array, each sorted. -/
def sortedItems : List Json → List Json
  | [] => []
  | item :: items => sorted item :: sortedItems items

/-- The members of an object, each sorted, in the order of the text. -/
def sortedMembers : List (String × Json) → List (String × Json)
  | [] => []
  | (key, value) :: members => (key, sorted value) :: sortedMembers members

end

end Json

end TreeProtocol
