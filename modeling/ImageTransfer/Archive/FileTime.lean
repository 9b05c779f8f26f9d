import ImageTransfer.Decimal.Binary64

/-!
# Times of files

A file keeps the time of its last change as whole seconds and a fraction of a second. The machine tells
it as one number in binary floating point, which is rounded: for times that are hundreds of years away
from 1970 the last microseconds of a second are not told apart from the second after it.
-/

namespace ImageTransfer.Archive

/-- A nanosecond as a fraction of a second, in binary floating point. -/
def nanosecond : Rat := Binary64.rounded (mkRat 1 1000000000)

/-- A time in microseconds since 1970, as the machine tells it in seconds: the whole seconds before it
and the nanoseconds since them are converted, multiplied and added up in binary floating point. -/
def toldTime (microseconds : Int) : Rat :=
  let seconds := microseconds / 1000000
  let nanoseconds := microseconds % 1000000 * 1000
  let fraction := Binary64.rounded (nanosecond * mkRat nanoseconds 1)
  Binary64.rounded (Binary64.rounded (mkRat seconds 1) + fraction)

/-- A number without its fraction, which is dropped toward zero. -/
def wholePart (q : Rat) : Int := q.num.tdiv q.den

end ImageTransfer.Archive
