/-!
# Binary floating point

The numbers of the 64-bit binary format, kept as what they denote: a sign, a whole mantissa and a
power of two. A decimal number is read by exact arithmetic and one rounding to the nearest, of two
equally near to the one with the even mantissa.
-/

namespace ImageTransfer

/-- A number of the 64-bit binary format. -/
inductive Binary64
  | nan
  | infinite (negative : Bool)
  /-- `mantissa * 2 ^ exponent`, with its sign. -/
  | finite (negative : Bool) (mantissa : Nat) (exponent : Int)
deriving DecidableEq, Repr

namespace Binary64

/-- The least exponent, that of the subnormal numbers. -/
def minExponent : Int := -1074

/-- The greatest exponent. -/
def maxExponent : Int := 971

/-- One more than the greatest mantissa. -/
def mantissaBound : Nat := Nat.pow 2 53

/-- A quotient rounded to the nearest whole number, halves to the even one. -/
def roundedDiv (num den : Nat) : Nat :=
  let q := num / den
  let r := num % den
  if 2 * r < den then q else if den < 2 * r then q + 1 else if q % 2 = 0 then q else q + 1

/-- `num / (den * 2 ^ e)` as a quotient of whole numbers. -/
def scaled (num den : Nat) (e : Int) : Nat × Nat :=
  if 0 ≤ e then (num, den * Nat.pow 2 e.toNat) else (num * Nat.pow 2 (-e).toNat, den)

/-- The number nearest to the quotient of two positive whole numbers. -/
def ofQuotient (negative : Bool) (num den : Nat) : Binary64 :=
  let guess : Int := (num.log2 : Int) - den.log2 - 52
  let (n, d) := scaled num den guess
  let e := max minExponent (if n / d < Nat.pow 2 52 then guess - 1 else guess)
  let (n, d) := scaled num den e
  let m := roundedDiv n d
  let (m, e) := if m = mantissaBound then (m / 2, e + 1) else (m, e)
  if maxExponent < e then .infinite negative else .finite negative m e

/-- Zero, with its sign. -/
def zero (negative : Bool) : Binary64 := .finite negative 0 minExponent

/-- How many digits a number has. -/
def digitCount (n : Nat) : Nat := (Nat.toDigits 10 n).length

/-- The number nearest to `digits * 10 ^ exponent`. What is out of range by its order of magnitude
alone is decided before any power is computed. -/
def ofDecimal (negative : Bool) (digits : Nat) (exponent : Int) : Binary64 :=
  if digits = 0 then zero negative
  else
    let magnitude := exponent + digitCount digits
    if 400 < magnitude then .infinite negative
    else if magnitude < -400 then zero negative
    else if 0 ≤ exponent then ofQuotient negative (digits * Nat.pow 10 exponent.toNat) 1
    else ofQuotient negative digits (Nat.pow 10 (-exponent).toNat)

/-- Whether a number is zero, of either sign. -/
def isZero : Binary64 → Bool
  | .finite _ m _ => m == 0
  | _ => false

/-- The whole part of a finite number. -/
def truncate (negative : Bool) (mantissa : Nat) (exponent : Int) : Int :=
  let n := if 0 ≤ exponent then mantissa * Nat.pow 2 exponent.toNat else mantissa / Nat.pow 2 (-exponent).toNat
  if negative then -(n : Int) else n

/-- The number that a mantissa and an exponent denote. -/
def size (mantissa : Nat) (exponent : Int) : Rat :=
  if 0 ≤ exponent then mkRat (mantissa * Nat.pow 2 exponent.toNat) 1
  else mkRat mantissa (Nat.pow 2 (-exponent).toNat)

/-- A quotient of two whole numbers, rounded to the nearest number of the format. What is beyond the
range stays as it is. -/
def roundedQuotient (num den : Nat) : Rat :=
  if num = 0 then 0
  else match ofQuotient false num den with
    | .finite _ m e => size m e
    | _ => mkRat num den

/-- A number rounded to the nearest of the format, with its sign. -/
def rounded (q : Rat) : Rat :=
  let rounded := roundedQuotient q.num.natAbs q.den
  if q.num < 0 then -rounded else rounded

/-- Whether a number equals a whole number. -/
def equalsInt (x : Binary64) (n : Int) : Bool :=
  match x with
  | .finite negative m e =>
    let whole := if 0 ≤ e then true else m % Nat.pow 2 (-e).toNat == 0
    whole && truncate negative m e == n
  | _ => false

end Binary64

end ImageTransfer
