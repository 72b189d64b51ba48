import TreeProtocol.Number.Binary64

/-!
# Shortest decimals

The real numbers that round to one and the same `Binary64` form an interval. Its shortest decimal
is the member with the fewest digits, and of those the one nearest to the number itself.

On the grid of the decimals with `n` digits it is enough to look at the two neighbours of the
number: if any point of the grid lies in the interval, so does one of them. `shortest` tries the
grids of 1, 2, … 17 digits; 17 digits always suffice.
-/

namespace TreeProtocol

/-- The decimal number `digits * 10 ^ power`. -/
structure Decimal where
  digits : Nat
  power : Int
  deriving DecidableEq

/-- Which of two equally near neighbours is taken. -/
inductive Tie where
  /-- The greater one. -/
  | up
  /-- The one whose last digit is even. -/
  | even
  deriving DecidableEq

namespace Decimal

/-- The number of decimal digits of a natural number; zero has one. -/
def digitCount (n : Nat) : Nat := (Nat.toDigits 10 n).length

/-- The greatest `k` with `10 ^ k ≤ num / den`, for positive arguments. -/
def floorLog10 (num den : Nat) : Int :=
  if den ≤ num then (digitCount (num / den) : Int) - 1
  else -(digitCount ((den + num - 1) / num - 1) : Int)

/-- The interval of the reals that round to a number: the two ends over a common denominator, and
whether the ends belong to it. -/
structure Interval where
  low : Nat
  high : Nat
  denominator : Nat
  closed : Bool

/-- The reals that round to the magnitude of a finite number. Half a unit on either side, but only
a quarter of one below a power of two; the ends round to the number if its significand is even. -/
def Interval.around (x : Binary64) : Interval :=
  let m := x.significand
  let below := if m = Binary64.leadingBit ∧ 1 < x.exponent.val then 1 else 2
  let unit := Nat.pow 2 x.scale.toNat
  ⟨(4 * m - below) * unit, (4 * m + 2) * unit, 4 * x.denominator, m % 2 == 0⟩

/-- Whether a decimal lies in the interval. -/
def Interval.contains (i : Interval) (d : Decimal) : Bool :=
  let value := d.digits * Nat.pow 10 d.power.toNat * i.denominator
  let shift := Nat.pow 10 (-d.power).toNat
  if i.closed then i.low * shift ≤ value && value ≤ i.high * shift
  else i.low * shift < value && value < i.high * shift

/-- Of the two neighbours of `num / den` among the multiples of `10 ^ power`, the nearest one in
the interval. -/
def nearestOnGrid (tie : Tie) (i : Interval) (num den : Nat) (power : Int) : Option Decimal :=
  let n := num * Nat.pow 10 (-power).toNat
  let d := den * Nat.pow 10 power.toNat
  let low : Decimal := ⟨n / d, power⟩
  let high : Decimal := ⟨n / d + 1, power⟩
  let rest := n % d
  match i.contains low, i.contains high with
  | false, false => none
  | true, false => some low
  | false, true => some high
  | true, true =>
    if 2 * rest < d then some low
    else if d < 2 * rest then some high
    else match tie with
      | .up => some high
      | .even => some (if low.digits % 2 = 0 then low else high)

/-- The same decimal with its one zero at the end, if it has one, moved into the power. -/
def carried (d : Decimal) : Decimal :=
  if d.digits = 10 then ⟨1, d.power + 1⟩ else d

/-- The shortest decimal that rounds to the magnitude of a finite number other than zero. Only the
coarsest grid can yield a digit count one too high, where the upper neighbour is a power of ten. -/
def shortest (tie : Tie) (x : Binary64) : Decimal :=
  let top := floorLog10 x.numerator x.denominator
  let found := (List.range 17).findSome? fun (n : Nat) =>
    nearestOnGrid tie (.around x) x.numerator x.denominator (top - n)
  (found.getD ⟨0, 0⟩).carried

example : shortest .even (.ofWord 0x3fd3333333333334) = ⟨30000000000000004, -17⟩ := by
  decide +kernel
example : shortest .even (.ofWord 1) = ⟨5, -324⟩ := by decide +kernel
example : shortest .even (.ofQuotient false (10 ^ 23) 1) = ⟨1, 23⟩ := by decide +kernel
example : (shortest .even (.ofQuotient false 4503599627370497 4)).digits = 11258999068426242 ∧
    (shortest .up (.ofQuotient false 4503599627370497 4)).digits = 11258999068426243 := by
  decide +kernel

end Decimal

end TreeProtocol
