import TreeProtocol.Number.Shortest

/-!
# Written numbers

How a number is laid out as text. `plainText` never uses an exponent and writes whole numbers as
integers of the signed 64-bit range; it is what a reader sees in messages. `exactText` always shows
that the number is a floating-point one, by a point or an exponent, and reads back to the same
number; it is what documents hold.
-/

namespace TreeProtocol

namespace Decimal

/-- The exponent of the first digit: `2` for `123.4`. -/
def topExponent (d : Decimal) : Int := d.power + (digitCount d.digits : Int) - 1

/-- Positional notation, with a fraction only if there is one. -/
def positional (d : Decimal) : String :=
  let digits := Nat.toDigits 10 d.digits
  let whole := d.topExponent + 1
  if 0 ≤ d.power then String.ofList (digits ++ List.replicate d.power.toNat '0')
  else if whole ≤ 0 then
    String.ofList ('0' :: '.' :: List.replicate (-whole).toNat '0' ++ digits)
  else String.ofList (digits.take whole.toNat ++ '.' :: digits.drop whole.toNat)

/-- Scientific notation: one digit before the point, and the sign of the exponent always there. -/
def scientific (d : Decimal) : String :=
  let fraction := match Nat.toDigits 10 d.digits with
    | first :: [] => String.ofList [first]
    | first :: more => String.ofList (first :: '.' :: more)
    | [] => ""
  let sign := if d.topExponent < 0 then "e-" else "e+"
  fraction ++ sign ++ toString d.topExponent.natAbs

end Decimal

namespace Binary64

/-- The 64 bits of a number as sixteen hexadecimal digits. -/
def wordText (x : Binary64) : String :=
  let digits := Nat.toDigits 16 x.toWord
  String.ofList (List.replicate (16 - digits.length) '0' ++ digits)

/-- Puts the sign in front of the text of a magnitude. -/
def signed (x : Binary64) (magnitude : String) : String :=
  if x.negative then "-" ++ magnitude else magnitude

/-- The text of a number in messages: whole numbers as integers that saturate at 64 bits, all
others with the fewest digits that read back, of two equally near ones the greater, and never with
an exponent. -/
def plainText (x : Binary64) : String :=
  if x.isNaN then "NaN"
  else if !x.isFinite then x.signed "inf"
  else if x.isWhole then toString x.toInt64
  else x.signed (Decimal.shortest .up x).positional

/-- The least exponent of the first digit that documents write in positional notation. -/
def leastPositional : Int := -5

/-- The greatest exponent of the first digit that documents write in positional notation. -/
def greatestPositional : Int := 15

/-- The text of a finite number in documents: the fewest digits that read back, of two equally
near ones the even one, always with a point or an exponent. -/
def exactText (x : Binary64) : String :=
  if x.isZero then x.signed "0.0"
  else
    let d := Decimal.shortest .even x
    let positional := leastPositional ≤ d.topExponent && d.topExponent ≤ greatestPositional
    if !positional then x.signed d.scientific
    else if 0 ≤ d.power then x.signed (d.positional ++ ".0")
    else x.signed d.positional

example : (ofQuotient false 1 10000000).plainText = "0.0000001" := by decide +kernel
example : (ofQuotient true (10 ^ 300) 1).plainText = "-9223372036854775808" := by decide +kernel
example : (ofQuotient false 15 100000000).exactText = "1.5e-7" := by decide +kernel
example : (ofQuotient false (10 ^ 16) 1).exactText = "1e+16" := by decide +kernel
example : (ofQuotient true 7 1).exactText = "-7.0" := by decide +kernel

end Binary64

end TreeProtocol
