import ImageTransfer.Decimal.Binary64

/-!
# The shortest decimal text of a floating-point number

A number is written with the fewest digits that read back as the same number, and among those with
the digits nearest to it. The reals that round to a number form an interval around it, so it is
enough to look, for one digit, two digits and so on, at the two points of the decimal grid on either
side of the number.
-/

namespace ImageTransfer.Binary64

/-- The reals that round to a number, in quarters of its unit: bounds, and whether they belong to
the interval. Below a power of two the next number is only half as far away. -/
structure Neighbourhood where
  low : Nat
  high : Nat
  closed : Bool

/-- The interval that rounds to `mantissa * 2 ^ exponent`. -/
def neighbourhood (mantissa : Nat) (exponent : Int) : Neighbourhood where
  low := if mantissa = Nat.pow 2 52 ∧ minExponent < exponent then 4 * mantissa - 1
    else 4 * mantissa - 2
  high := 4 * mantissa + 2
  closed := mantissa % 2 == 0

/-- A number `n * 2 ^ e` over the grid of `10 ^ g`, as a quotient of whole numbers. -/
def overGrid (n : Nat) (e g : Int) : Nat × Nat :=
  let num := if 0 ≤ e then n * Nat.pow 2 e.toNat else n
  let den := if 0 ≤ e then 1 else Nat.pow 2 (-e).toNat
  if 0 ≤ g then (num, den * Nat.pow 10 g.toNat) else (num * Nat.pow 10 (-g).toNat, den)

/-- Whether the grid point `k` rounds to the number. -/
def readsBack (nb : Neighbourhood) (exponent g : Int) (k : Nat) : Bool :=
  let (lowNum, lowDen) := overGrid nb.low (exponent - 2) g
  let (highNum, highDen) := overGrid nb.high (exponent - 2) g
  if nb.closed then lowNum ≤ k * lowDen && k * highDen ≤ highNum
  else lowNum < k * lowDen && k * highDen < highNum

/-- The better of the two grid points around the number, if one of them reads back. -/
def gridPoint? (mantissa : Nat) (exponent g : Int) : Option Nat :=
  let nb := neighbourhood mantissa exponent
  let (num, den) := overGrid mantissa exponent g
  let below := num / den
  let above := below + 1
  match readsBack nb exponent g below && 0 < below, readsBack nb exponent g above with
  | true, true =>
    let r := 2 * (num % den)
    some (if r < den then below else if den < r then above
      else if below % 2 = 0 then below else above)
  | true, false => some below
  | false, true => some above
  | false, false => none

/-- How many powers of ten a positive number reaches: `10 ^ (n - 1) ≤ m * 2 ^ e < 10 ^ n`. -/
def decimalMagnitude (mantissa : Nat) (exponent : Int) : Int :=
  if 0 ≤ exponent then digitCount (mantissa * Nat.pow 2 exponent.toNat)
  else
    let den := Nat.pow 2 (-exponent).toNat
    if den ≤ mantissa then digitCount (mantissa / den)
    else
      let places := digitCount (den / mantissa)
      if den ≤ mantissa * Nat.pow 10 (places - 1) then 2 - (places : Int) else 1 - (places : Int)

/-- The shortest digits of a positive number, and the power of ten of the last of them: the first
grid of one to seventeen digits that is hit. -/
def shortestDigits (mantissa : Nat) (exponent : Int) : Nat × Int :=
  let magnitude := decimalMagnitude mantissa exponent
  let hit := (List.range 17).findSome? fun (i : Nat) =>
    let g := magnitude - ((i + 1 : Nat) : Int)
    (gridPoint? mantissa exponent g).map fun k => (k, g)
  hit.getD (mantissa, exponent)

/-- How numbers are laid out: the powers of ten between which they are written without an exponent,
and the least number of digits of an exponent. -/
structure Layout where
  /-- Above this power, small numbers are written without an exponent. -/
  leastPoint : Int := -3
  /-- Up to this power, large numbers are written without an exponent. -/
  greatestPoint : Int := 16
  /-- An exponent has at least so many digits. -/
  exponentDigits : Nat := 2

/-- A list of digits without the zeros at its end. -/
def withoutFinalZeros (ds : List Char) : List Char := (ds.reverse.dropWhile (· = '0')).reverse

/-- Digits with the decimal point after the first `point` of them. -/
def Layout.arrange (layout : Layout) (ds : List Char) (point : Int) : List Char :=
  if layout.leastPoint ≤ point ∧ point ≤ layout.greatestPoint then
    if point ≤ 0 then '0' :: '.' :: (List.replicate (-point).toNat '0' ++ ds)
    else
      let n := point.toNat
      if ds.length ≤ n then ds ++ List.replicate (n - ds.length) '0' ++ ['.', '0']
      else ds.take n ++ '.' :: ds.drop n
  else
    let e := point - 1
    let es := Nat.toDigits 10 e.natAbs
    let es := List.replicate (layout.exponentDigits - es.length) '0' ++ es
    let fraction := if ds.length ≤ 1 then [] else '.' :: ds.drop 1
    ds.take 1 ++ fraction ++ 'e' :: (if e < 0 then '-' else '+') :: es

/-- A finite number as text. -/
def Layout.write (layout : Layout) (negative : Bool) (mantissa : Nat) (exponent : Int) : List Char :=
  let sign := if negative then ['-'] else []
  if mantissa = 0 then sign ++ ['0', '.', '0']
  else
    let (k, g) := shortestDigits mantissa exponent
    let ds := Nat.toDigits 10 k
    sign ++ layout.arrange (withoutFinalZeros ds) (ds.length + g)

end ImageTransfer.Binary64
