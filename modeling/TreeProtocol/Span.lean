/-!
# Input ranges

A span `[start, stop)` says which part of an input a node was produced from. Its ends are 64-bit
positions in any order; a span whose end does not lie behind its start is empty.
-/

namespace TreeProtocol

/-- A half-open range of input positions. -/
structure Span where
  start : UInt64
  stop : UInt64
  deriving DecidableEq, Inhabited

namespace Span

/-- The number of positions in the span. -/
def length (s : Span) : Nat := s.stop.toNat - s.start.toNat

/-- Whether no position lies in the span. -/
def isEmpty (s : Span) : Bool := s.stop ≤ s.start

/-- Whether the end does not lie before the start. -/
def isOrdered (s : Span) : Bool := s.start ≤ s.stop

/-- The span as text. -/
def display (s : Span) : String :=
  "[" ++ toString s.start.toNat ++ ", " ++ toString s.stop.toNat ++ ")"

theorem isEmpty_iff_length_eq_zero (s : Span) : s.isEmpty = true ↔ s.length = 0 := by
  simp [isEmpty, length, UInt64.le_iff_toNat_le]
  omega

end Span

end TreeProtocol
