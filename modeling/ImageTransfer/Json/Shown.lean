import ImageTransfer.Decimal.Shortest
import ImageTransfer.Json.Value
import ImageTransfer.Text.Quoted

/-!
# Values in messages

A message that doubts a value shows it as it was understood: text is quoted, and the three constants
and the numbers without a value have names of their own.
-/

namespace ImageTransfer.Json.Value

/-- A whole number in a message. -/
def shownInteger (n : Int) : String := toString n

/-- A floating-point number in a message. -/
def shownReal (x : Binary64) : String :=
  match x with
  | .nan => "nan"
  | .infinite negative => if negative then "-inf" else "inf"
  | .finite negative m e => String.ofList (Binary64.Layout.write {} negative m e)

mutual

/-- A value in a message. -/
def shown : Value → String
  | .null => "None"
  | .bool b => if b then "True" else "False"
  | .integer n => shownInteger n
  | .real x => shownReal x
  | .text t => Text.quoted t
  | .array [] => "[]"
  | .array (v :: vs) => "[" ++ shown v ++ shownItems vs ++ "]"
  | .object [] => "\x7b\x7d"
  | .object ((name, v) :: ms) =>
    "\x7b" ++ Text.quoted name ++ ": " ++ shown v ++ shownMembers ms ++ "\x7d"

/-- The items after the first. -/
def shownItems : List Value → String
  | [] => ""
  | v :: vs => ", " ++ shown v ++ shownItems vs

/-- The members after the first. -/
def shownMembers : List (Text × Value) → String
  | [] => ""
  | (name, v) :: ms => ", " ++ Text.quoted name ++ ": " ++ shown v ++ shownMembers ms

end

end ImageTransfer.Json.Value
