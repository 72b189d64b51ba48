import TreeProtocol.Text.Blank

/-!
# Cardinalities

How many right nodes a relation may carry, and the text by which a schema names it: `optional` or
`?`, `one` or `1`, `many` or `*`, and `keyed(KEY)`. Blanks around the text and around the key do
not count, and only the last parenthesis closes the key, so a key may contain parentheses.
-/

namespace TreeProtocol

/-- How many right nodes a relation admits. -/
inductive Cardinality where
  | optional
  | one
  | many
  /-- Any number, told apart by the first value under a keyword of their relation attributes. -/
  | keyed (key : String)
  deriving DecidableEq, Inhabited

namespace Cardinality

/-- Whether a traversal of the relation yields a sequence of results. -/
def isSequence : Cardinality → Bool
  | .many | .keyed _ => true
  | .optional | .one => false

/-- Whether the relation may end up without a right node. -/
def allowsEmpty : Cardinality → Bool
  | .one => false
  | _ => true

/-- The long form of a cardinality. -/
def text : Cardinality → String
  | .optional => "optional"
  | .one => "one"
  | .many => "many"
  | .keyed key => "keyed(" ++ key ++ ")"

/-- What opens the text of a keyed cardinality. -/
def keyedOpening : List Char := ['k', 'e', 'y', 'e', 'd', '(']

/-- The key between the opening and the last parenthesis, without blanks around it. -/
def readKey? (s : List Char) : Option (List Char) :=
  if keyedOpening.isPrefixOf s && s.getLast? == some ')' && keyedOpening.length < s.length then
    let key := Text.trim (s.drop keyedOpening.length).dropLast
    if key.isEmpty then none else some key
  else none

/-- Reads a cardinality in its long or short form. -/
def parse? (s : String) : Option Cardinality :=
  let body := Text.trim s.toList
  if body = ['o', 'p', 't', 'i', 'o', 'n', 'a', 'l'] ∨ body = ['?'] then some .optional
  else if body = ['o', 'n', 'e'] ∨ body = ['1'] then some .one
  else if body = ['m', 'a', 'n', 'y'] ∨ body = ['*'] then some .many
  else (readKey? body).map fun key => .keyed (String.ofList key)

example : parse? " keyed( a) ) " = some (.keyed "a)") := by decide +kernel
example : parse? "keyed(\u3000)" = none := by decide +kernel
example : parse? "keyed(" = none := by decide +kernel

end Cardinality

/-- A relation: its name and how many right nodes it admits. -/
structure Relation where
  name : String
  cardinality : Cardinality
  deriving DecidableEq, Inhabited

/-- A relation as text. -/
def Relation.display (r : Relation) : String := r.name ++ " (" ++ r.cardinality.text ++ ")"

end TreeProtocol
