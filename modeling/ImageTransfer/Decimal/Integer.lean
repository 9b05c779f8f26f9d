import ImageTransfer.Text.Blank
import ImageTransfer.Text.Digit

/-!
# Whole numbers given as text

A whole number is an optional sign and digits of any script, with single underscores allowed between
two digits and blanks around the whole. A number of more digits than the limit is refused, so that a
hostile number cannot cost quadratic time.
-/

namespace ImageTransfer.Decimal

/-- The most digits that a number given as text may have. -/
def digitLimit : Nat := 4300

/-- Why a text is not taken as a number. -/
inductive IntegerError
  /-- The text is not written as a number. -/
  | malformed
  /-- The number has more digits than the limit. -/
  | tooLong (digits : Nat)
deriving DecidableEq, Repr

/-- The text that reports a number of too many digits. -/
def tooLongMessage (digits : Nat) : String :=
  s!"Exceeds the limit ({digitLimit} digits) for integer string conversion: " ++
  s!"value has {digits} digits; use sys.set_int_max_str_digits() to increase the limit"

/-- The number that a list of decimal digits denotes, most significant first. -/
def ofDigits (ds : List Nat) : Nat := ds.foldl (fun n d => 10 * n + d) 0

/-- Blanks around a number; the separators 0x1C to 0x1F are not among them. -/
def isNumberBlank (c : Nat) : Bool :=
  Text.isBlank c && !(0x1C ≤ c && c ≤ 0x1F)

/-- The digits of a number without its sign: `none` unless each underscore has a digit on either
side. `more` says that a digit must follow. -/
def digitsOf? (more : Bool) : List Nat → Option (List Nat)
  | [] => if more then none else some []
  | c :: rest =>
    if c = 0x5F then if more then none else digitsOf? true rest
    else match Text.digitValue? c with
      | some d => (digitsOf? false rest).map (d :: ·)
      | none => none

/-- The sign in front of a number, as "is negative", and what follows it. -/
def splitSign : List Nat → Bool × List Nat
  | 0x2D :: rest => (true, rest)
  | 0x2B :: rest => (false, rest)
  | cs => (false, cs)

/-- The number that a text denotes. -/
def readInteger (cs : List Nat) : Except IntegerError Int :=
  let inner := cs.dropWhile isNumberBlank
  let inner := (inner.reverse.dropWhile isNumberBlank).reverse
  let (negative, body) := splitSign inner
  match digitsOf? true body with
  | none => .error .malformed
  | some ds =>
    if ds.length > digitLimit then .error (.tooLong ds.length)
    else if negative then .ok (-(ofDigits ds : Int)) else .ok (ofDigits ds)

end ImageTransfer.Decimal
