import TreeProtocol.Fault

/-!
# Related nodes

The right nodes of one relation, each with the attributes it was attached with, in the order of
attachment.
-/

namespace TreeProtocol

/-- Right nodes with their relation attributes. -/
structure Related (N : Type) where
  pairs : List (N × Attrs)
  deriving Inhabited

namespace Related

variable {N : Type}

/-- No right node. -/
def empty : Related N := ⟨[]⟩

/-- Pairs nodes with attributes; there must be as many of the one as of the other. -/
def ofParts (nodes : List N) (args : List Attrs) : Except BuildError (Related N) :=
  if nodes.length = args.length then .ok ⟨nodes.zip args⟩
  else .error (Fault.unequalParts nodes.length args.length)

/-- One more right node behind the others. -/
def push (r : Related N) (node : N) (args : Attrs) : Related N := ⟨r.pairs ++ [(node, args)]⟩

/-- The nodes without their attributes. -/
def nodes (r : Related N) : List N := r.pairs.map (·.1)

/-- The attributes without their nodes. -/
def args (r : Related N) : List Attrs := r.pairs.map (·.2)

/-- The first right node. -/
def first? (r : Related N) : Option (N × Attrs) := r.pairs.head?

/-- The number of right nodes. -/
def size (r : Related N) : Nat := r.pairs.length

/-- Whether there is no right node. -/
def isEmpty (r : Related N) : Bool := r.pairs.isEmpty

theorem length_nodes (r : Related N) : r.nodes.length = r.size := by simp [nodes, size]

theorem length_args (r : Related N) : r.args.length = r.size := by simp [args, size]

theorem ofParts_parts (r : Related N) : ofParts r.nodes r.args = .ok r := by
  have h : ∀ ps : List (N × Attrs), (ps.map (·.1)).zip (ps.map (·.2)) = ps := by
    intro ps
    induction ps with
    | nil => rfl
    | cons p ps ih => simp [ih]
  simp [ofParts, nodes, args, h]

end Related

end TreeProtocol
