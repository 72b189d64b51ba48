import TreeProtocol.Fault

/-!
# Admission

Whether one more right node may be attached under a relation, judged by the relation attributes of
the right nodes that are attached already.

* A `many` relation admits every node.
* A `one` or `optional` relation admits the first node only.
* A keyed relation admits a node whose relation attributes hold the key, with a first value that
  differs from the first value of every node before it.
-/

namespace TreeProtocol

/-- Reads a cardinality; the fault quotes the text without the blanks around it. -/
def Cardinality.read (s : String) : Except BuildError Cardinality :=
  match Cardinality.parse? s with
  | some c => .ok c
  | none => .error (Fault.unreadableCardinality (String.ofList (Text.trim s.toList)))

namespace Relation

/-- Whether some attributes hold a value under the key that equals the given one. -/
def keyTaken (key : String) (value : Value) (existing : List Attrs) : Bool :=
  existing.any fun other => (other.get? key).any (·.eqv value)

/-- Checks that a right node with relation attributes `args` may join those in `existing`. -/
def accept (r : Relation) (existing : List Attrs) (args : Attrs) : Except BuildError Unit :=
  match r.cardinality with
  | .many => .ok ()
  | .one | .optional =>
    if existing.isEmpty then .ok () else .error (.located (.alreadyFilled r) args.bounds?)
  | .keyed key =>
    match args.get? key with
    | none => .error (Fault.keyMissing r key)
    | some value =>
      if keyTaken key value existing then .error (Fault.keyTaken r.name key value) else .ok ()

/-- Checks that right nodes with these relation attributes may be attached one after the other,
the ones in `existing` being there before. -/
def acceptAll (r : Relation) (existing : List Attrs) : List Attrs → Except BuildError Unit
  | [] => .ok ()
  | args :: more =>
    match r.accept existing args with
    | .error e => .error e
    | .ok () => r.acceptAll (existing ++ [args]) more

theorem accept_single {r : Relation} (h : r.cardinality = .one ∨ r.cardinality = .optional)
    (existing : List Attrs) (args : Attrs) :
    (r.accept existing args).isOk = existing.isEmpty := by
  rcases h with h | h <;> simp only [accept, h] <;> cases existing <;> rfl

end Relation

end TreeProtocol
