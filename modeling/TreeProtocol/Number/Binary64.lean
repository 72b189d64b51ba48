/-!
# Binary floating-point numbers of 64 bits

A number is given by its three fields: a sign, an exponent of eleven bits and a fraction of 52 bits.
All arithmetic is done on natural numbers and integers, so that every function here can be
evaluated and reasoned about.

* `ofQuotient` rounds a quotient of natural numbers to the nearest number, a tie to the even
  significand; `ofInt`, `mul` and `div` are instances of it.
* `eqv` is numerical equality: no NaN equals anything, and the two zeros are equal.
* `toInt64` drops the fractional part and saturates at the two ends of the signed 64-bit range.
-/

namespace TreeProtocol

/-- A binary floating-point number of 64 bits. -/
structure Binary64 where
  /-- Whether the sign bit is set. -/
  negative : Bool
  /-- The exponent field, biased by 1023. The value 0 marks the subnormal numbers, and 2047 what is
  not finite. -/
  exponent : Fin 2048
  /-- The 52 bits behind the leading bit of the significand. -/
  fraction : Fin 4503599627370496
  deriving DecidableEq

namespace Binary64

/-! ### Words -/

/-- The weight of the sign bit in a word. -/
def signBit : Nat := Nat.pow 2 63

/-- The weight of the leading bit of a significand, and of the least bit of the exponent field in a
word. -/
def leadingBit : Nat := Nat.pow 2 52

/-- The number that a 64-bit word stands for; higher bits are ignored. -/
def ofWord (w : Nat) : Binary64 where
  negative := w / signBit % 2 == 1
  exponent := Fin.ofNat 2048 (w / leadingBit)
  fraction := Fin.ofNat 4503599627370496 w

/-- The 64-bit word of a number. -/
def toWord (x : Binary64) : Nat :=
  (if x.negative then signBit else 0) + x.exponent.val * leadingBit + x.fraction.val

/-- A not-a-number. -/
def nan : Binary64 := ⟨false, 2047, 2251799813685248⟩

/-- The infinity of the given sign. -/
def infinity (negative : Bool) : Binary64 := ⟨negative, 2047, 0⟩

/-- The zero of the given sign. -/
def zero (negative : Bool) : Binary64 := ⟨negative, 0, 0⟩

instance : Inhabited Binary64 := ⟨zero false⟩

/-! ### Classes -/

/-- Neither an infinity nor a not-a-number. -/
def isFinite (x : Binary64) : Bool := x.exponent != 2047

/-- A not-a-number. -/
def isNaN (x : Binary64) : Bool := x.exponent == 2047 && x.fraction != 0

/-- One of the two zeros. -/
def isZero (x : Binary64) : Bool := x.exponent == 0 && x.fraction == 0

/-- The integer whose product with `2 ^ x.scale` is the magnitude of a finite number. -/
def significand (x : Binary64) : Nat :=
  if x.exponent = 0 then x.fraction.val else x.fraction.val + leadingBit

/-- The power of two that a unit of the significand is worth. -/
def scale (x : Binary64) : Int := (max x.exponent.val 1 : Nat) - 1075

/-- Numerator of the magnitude of a finite number. -/
def numerator (x : Binary64) : Nat := x.significand * Nat.pow 2 x.scale.toNat

/-- Denominator of the magnitude of a finite number. -/
def denominator (x : Binary64) : Nat := Nat.pow 2 (-x.scale).toNat

/-- Finite, with a whole number as its value. -/
def isWhole (x : Binary64) : Bool := x.isFinite && x.numerator % x.denominator == 0

/-! ### Equality -/

/-- Numerical equality: a not-a-number equals nothing, and the two zeros are equal. -/
def eqv (x y : Binary64) : Bool :=
  !x.isNaN && !y.isNaN && (x == y || (x.isZero && y.isZero))

theorem eqv_comm (x y : Binary64) : x.eqv y = y.eqv x := by
  have h : (x == y) = (y == x) := BEq.comm
  unfold eqv
  rw [h, Bool.and_comm (!x.isNaN), Bool.and_comm x.isZero]

theorem eqv_self (x : Binary64) : x.eqv x = !x.isNaN := by
  unfold eqv
  rw [BEq.rfl, Bool.true_or, Bool.and_true, Bool.and_self]

/-! ### Rounding -/

/-- The whole number nearest to `num / den`; of two equally near ones the even one. -/
def nearestEven (num den : Nat) : Nat :=
  let low := num / den
  let rest := num % den
  if 2 * rest < den then low
  else if den < 2 * rest then low + 1
  else low + low % 2

/-- The greatest `k` with `2 ^ k ≤ num / den`, for positive arguments. -/
def floorLog2 (num den : Nat) : Int :=
  let guess : Int := (num.log2 : Int) - den.log2
  if num * Nat.pow 2 (-guess).toNat < den * Nat.pow 2 guess.toNat then guess - 1 else guess

/-- The number with the given sign, scale and significand, which is at most twice the leading bit.
Where the exponent field has no room for it, the result is an infinity. -/
def assemble (negative : Bool) (significand : Nat) (scale : Int) : Binary64 :=
  let carry := significand == 2 * leadingBit
  let m := if carry then leadingBit else significand
  let q := if carry then scale + 1 else scale
  if m < leadingBit then ⟨negative, 0, Fin.ofNat _ m⟩
  else if q < 972 then ⟨negative, Fin.ofNat _ (q + 1075).toNat, Fin.ofNat _ (m - leadingBit)⟩
  else infinity negative

/-- The number nearest to `± num / den`, a tie going to the even significand and a magnitude past
the largest number to infinity. -/
def ofQuotient (negative : Bool) (num den : Nat) : Binary64 :=
  if num = 0 then zero negative
  else
    let q := max (floorLog2 num den - 52) (-1074)
    assemble negative (nearestEven (num * Nat.pow 2 (-q).toNat) (den * Nat.pow 2 q.toNat)) q

/-- The number nearest to an integer. -/
def ofInt (n : Int) : Binary64 := ofQuotient (n < 0) n.natAbs 1

/-- The number nearest to a natural number. -/
def ofNat (n : Nat) : Binary64 := ofQuotient false n 1

/-- The same magnitude with the opposite sign. -/
def neg (x : Binary64) : Binary64 := { x with negative := !x.negative }

/-- Product of two finite numbers, rounded once. -/
def mul (x y : Binary64) : Binary64 :=
  ofQuotient (x.negative != y.negative)
    (x.numerator * y.numerator) (x.denominator * y.denominator)

/-- Quotient of two finite numbers, the second not zero, rounded once. -/
def div (x y : Binary64) : Binary64 :=
  ofQuotient (x.negative != y.negative)
    (x.numerator * y.denominator) (x.denominator * y.numerator)

/-! ### Whole numbers -/

/-- The whole part of a finite number, saturating at the ends of the signed 64-bit range. -/
def toInt64 (x : Binary64) : Int :=
  let magnitude : Nat := x.numerator / x.denominator
  if x.negative then max (-(magnitude : Int)) (-(signBit : Int))
  else min (magnitude : Int) ((signBit : Int) - 1)

example : ofWord 0x3ff8000000000000 = ofQuotient false 3 2 := by decide +kernel
example : (ofInt (-9007199254740993)).toWord = 0xc340000000000000 := by decide +kernel
example : (ofQuotient false 1 (2 ^ 1075)).toWord = 0 := by decide +kernel
example : (ofQuotient false (2 ^ 1024 - 2 ^ 970) 1) = infinity false := by decide +kernel
example : (zero true).eqv (zero false) = true ∧ nan.eqv nan = false := by decide

end Binary64

end TreeProtocol
