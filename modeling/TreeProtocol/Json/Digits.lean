import TreeProtocol.Json.Document

/-!
# Reading numbers

A number of a document is an optional minus sign, an integer without leading zeros, an optional
fraction and an optional exponent. Without fraction and exponent it is an integer, if it fits.

Otherwise it is read in two roundings: the digits as an integer of 64 bits, as many of them as fit,
to the nearest floating-point number, and its product with, or quotient by, the nearest number to a
power of ten. So the result can differ in the last bit from the number nearest to the text. A
magnitude too large for a floating-point number is out of range; one too small is zero.
-/

namespace TreeProtocol.Json

/-- The parts of the text of a number. -/
structure NumberText where
  negative : Bool
  whole : List Nat
  fraction : Option (List Nat)
  /-- Whether the exponent is negative, and its digits. -/
  exponent : Option (Bool × List Nat)

/-- The value of a digit. -/
def digit? (c : Char) : Option Nat :=
  if c.isDigit then some (c.toNat - '0'.toNat) else none

/-- Splits the digits off the front of a text. -/
def splitDigits : List Char → List Nat × List Char
  | [] => ([], [])
  | c :: rest =>
    match digit? c with
    | some d =>
      let (ds, rest) := splitDigits rest
      (d :: ds, rest)
    | none => ([], c :: rest)

/-- Splits a fraction off the front of a text, which must have a digit behind the point. -/
def splitFraction : List Char → Option (Option (List Nat) × List Char)
  | '.' :: rest =>
    match splitDigits rest with
    | ([], _) => none
    | (ds, rest) => some (some ds, rest)
  | rest => some (none, rest)

/-- Splits an exponent off the front of a text, which must have a digit behind letter and sign. -/
def splitExponent : List Char → Option (Option (Bool × List Nat) × List Char)
  | c :: rest =>
    if c = 'e' ∨ c = 'E' then
      let (negative, rest) := match rest with
        | '-' :: rest => (true, rest)
        | '+' :: rest => (false, rest)
        | rest => (false, rest)
      match splitDigits rest with
      | ([], _) => none
      | (ds, rest) => some (some (negative, ds), rest)
    else some (none, c :: rest)
  | [] => some (none, [])

/-- Splits a number off the front of a text. -/
def splitNumber (s : List Char) : Option (NumberText × List Char) := do
  let (negative, s) := match s with
    | '-' :: s => (true, s)
    | s => (false, s)
  let (whole, s) := splitDigits s
  if whole = [] ∨ (whole.head? = some 0 ∧ 1 < whole.length) then none
  let (fraction, s) ← splitFraction s
  let (exponent, s) ← splitExponent s
  some (⟨negative, whole, fraction, exponent⟩, s)

/-- The greatest integer of 64 bits. -/
def greatestNatural : Nat := 18446744073709551615

/-- The greatest `n` for which `-n` is a signed integer of 64 bits. -/
def greatestNegative : Nat := 9223372036854775808

/-- Appends digits to an integer as long as 64 bits hold it. Yields the integer and the number of
digits left over. -/
def accumulate (n : Nat) : List Nat → Nat × Nat
  | [] => (n, 0)
  | d :: ds =>
    if n * 10 + d ≤ greatestNatural then accumulate (n * 10 + d) ds else (n, ds.length + 1)

/-- The floating-point number nearest to a power of ten. -/
def powerOfTen (k : Nat) : Binary64 := .ofNat (Nat.pow 10 k)

/-- The greatest power of ten that is finite as a floating-point number. -/
def greatestPower : Nat := 308

/-- Divides by a power of ten, in several steps if it is not finite itself. -/
def scaleDown (x : Binary64) (k : Nat) : Binary64 :=
  if k ≤ greatestPower then x.div (powerOfTen k)
  else if x.isZero then x
  else scaleDown (x.div (powerOfTen greatestPower)) (k - greatestPower)
  termination_by k
  decreasing_by simp only [greatestPower] at *; omega

/-- The floating-point number for `n * 10 ^ e`, unless it is out of range. -/
def scaled (n : Nat) (e : Int) : Option Binary64 :=
  let x := Binary64.ofNat n
  if e < 0 then some (scaleDown x e.natAbs)
  else if e.toNat ≤ greatestPower then
    let y := x.mul (powerOfTen e.toNat)
    if y.isFinite then some y else none
  else if x.isZero then some x else none

/-- The greatest exponent that is looked at digit by digit. -/
def greatestExponent : Nat := 2147483647

/-- The number that a text stands for, unless it is out of range. -/
def NumberText.value? (t : NumberText) : Option Numeral :=
  let sign (x : Binary64) : Numeral := .float (if t.negative then x.neg else x)
  let (n, left) := accumulate 0 t.whole
  match t.fraction, t.exponent with
  | none, none =>
    if left ≠ 0 then (scaled n left).map sign
    else if !t.negative then some (.natural n)
    else if n = 0 ∨ greatestNegative < n then some (sign (.ofNat n))
    else some (.negative n)
  | fraction, exponent =>
    let digits := fraction.getD []
    let (n, unread) := accumulate n digits
    let shift : Int := (left : Int) - (digits.length - unread : Nat)
    match exponent with
    | none => (scaled n shift).map sign
    | some (negative, ds) =>
      let e : Nat := ds.foldl (fun e d => e * 10 + d) 0
      if greatestExponent < e then
        if n ≠ 0 ∧ !negative then none else some (sign (.zero false))
      else (scaled n (if negative then shift - e else shift + e)).map sign

end TreeProtocol.Json
