import TreeProtocol.KeyMap
import TreeProtocol.Number.Notation
import TreeProtocol.Span
import TreeProtocol.Text.Quoted

/-!
# Attribute values

The values that nodes and relations carry as attributes. `Value.eqv` is equality of values, with
numbers compared as numbers: a value that holds a not-a-number anywhere differs from itself.

A map lists its entries in key order and binds no key twice; `Value.ofEntries` builds one from
entries in any order.
-/

namespace TreeProtocol

/-- An attribute value. -/
inductive Value where
  | nil
  | number (x : Binary64)
  | text (s : String)
  | bool (b : Bool)
  | list (items : List Value)
  | map (entries : List (String × Value))
  /-- A range of the input. -/
  | bounds (span : Span)
  deriving Inhabited

namespace Value

/-! ### Making values -/

/-- A whole number as a value, rounded to the nearest number. -/
def ofInt (n : Int) : Value := .number (.ofInt n)

/-- The map with the given entries; of several under one key the last one counts. -/
def ofEntries (entries : List (String × Value)) : Value := .map (KeyMap.ofList entries).entries

/-! ### Looking into values -/

/-- The name of a value's type. -/
def typeName : Value → String
  | .nil => "Nil"
  | .number _ => "Number"
  | .text _ => "String"
  | .bool _ => "Bool"
  | .list _ => "List"
  | .map _ => "Map"
  | .bounds _ => "Bounds"

def isNil : Value → Bool
  | .nil => true
  | _ => false

def number? : Value → Option Binary64
  | .number x => some x
  | _ => none

def text? : Value → Option String
  | .text s => some s
  | _ => none

def bool? : Value → Option Bool
  | .bool b => some b
  | _ => none

def bounds? : Value → Option Span
  | .bounds s => some s
  | _ => none

/-! ### Equality -/

mutual

/-- Equality of values; numbers are compared as numbers. -/
def eqv : Value → Value → Bool
  | .nil, .nil => true
  | .number x, .number y => x.eqv y
  | .text s, .text t => s == t
  | .bool a, .bool b => a == b
  | .list xs, .list ys => eqvItems xs ys
  | .map es, .map fs => eqvEntries es fs
  | .bounds s, .bounds t => s == t
  | _, _ => false

/-- Equality of lists of values, position by position. -/
def eqvItems : List Value → List Value → Bool
  | [], [] => true
  | x :: xs, y :: ys => eqv x y && eqvItems xs ys
  | _, _ => false

/-- Equality of lists of entries, position by position. -/
def eqvEntries : List (String × Value) → List (String × Value) → Bool
  | [], [] => true
  | (k, x) :: es, (l, y) :: fs => k == l && eqv x y && eqvEntries es fs
  | _, _ => false

end

/-! ### Text -/

mutual

/-- A value as text. -/
def display : Value → String
  | .nil => "nil"
  | .number x => x.plainText
  | .text s => Text.quoted s
  | .bool b => if b then "true" else "false"
  | .list items => "(" ++ " ".intercalate (displayItems items) ++ ")"
  | .map entries => "\x7b" ++ ", ".intercalate (displayEntries entries) ++ "\x7d"
  | .bounds s => s.display

/-- The texts of a list's items. -/
def displayItems : List Value → List String
  | [] => []
  | x :: xs => display x :: displayItems xs

/-- The texts of a map's entries. -/
def displayEntries : List (String × Value) → List String
  | [] => []
  | (k, x) :: es => (k ++ ": " ++ display x) :: displayEntries es

end

example : (list [.text "a", .ofInt 2, .bounds ⟨0, 5⟩]).display = "(\"a\" 2 [0, 5))" := by
  decide +kernel
example : (list [.number .nan]).eqv (list [.number .nan]) = false := by decide +kernel

end Value

end TreeProtocol
