import TreeProtocol.Value

/-!
# Attribute lists

The attributes of a node or of a relation: pairs of a keyword and a value in the order in which
they were supplied. A keyword may occur more than once; a look-up answers with the first
occurrence.
-/

namespace TreeProtocol

/-- Keywords with their values, in the order supplied. -/
structure Attrs where
  pairs : List (String × Value)
  deriving Inhabited

namespace Attrs

/-- The keyword under which a node carries its input range. -/
def boundsKeyword : String := "bounds"

/-- No attributes. -/
def empty : Attrs := ⟨[]⟩

instance : EmptyCollection Attrs := ⟨empty⟩

/-- The attributes followed by one more pair. -/
def push (a : Attrs) (keyword : String) (value : Value) : Attrs := ⟨a.pairs ++ [(keyword, value)]⟩

/-- The attributes followed by an input range. -/
def pushBounds (a : Attrs) (span : Span) : Attrs := a.push boundsKeyword (.bounds span)

/-- The attributes of `a` followed by those of `b`. -/
def append (a b : Attrs) : Attrs := ⟨a.pairs ++ b.pairs⟩

instance : Append Attrs := ⟨append⟩

/-- The first value under a keyword. -/
def get? (a : Attrs) (keyword : String) : Option Value :=
  (a.pairs.find? (·.1 == keyword)).map (·.2)

/-- Whether a keyword occurs. -/
def contains (a : Attrs) (keyword : String) : Bool := (a.get? keyword).isSome

/-- The input range, if the first value under its keyword is one. -/
def bounds? (a : Attrs) : Option Span := (a.get? boundsKeyword).bind Value.bounds?

/-- The keywords in order. -/
def keywords (a : Attrs) : List String := a.pairs.map (·.1)

/-- The number of pairs. -/
def size (a : Attrs) : Nat := a.pairs.length

/-- Whether there is no pair. -/
def isEmpty (a : Attrs) : Bool := a.pairs.isEmpty

/-- Equality pair by pair. -/
def eqv (a b : Attrs) : Bool := Value.eqvEntries a.pairs b.pairs

/-- The attributes as text. -/
def display (a : Attrs) : String :=
  "\x7b" ++ ", ".intercalate (a.pairs.map fun (k, v) => k ++ ": " ++ v.display) ++ "\x7d"

@[simp] theorem pairs_append (a b : Attrs) : (a ++ b).pairs = a.pairs ++ b.pairs := rfl

theorem get?_append (a b : Attrs) (k : String) :
    (a ++ b).get? k = (a.get? k).or (b.get? k) := by
  simp only [get?, pairs_append, List.find?_append]
  cases List.find? (fun x => x.1 == k) a.pairs <;> simp

example : ((∅ : Attrs).push "a" .nil |>.push "a" (.bool true)).get? "a" = some .nil := by rfl

end Attrs

end TreeProtocol
