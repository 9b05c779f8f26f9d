/-!
# Sets of code points by their boundaries

A set of code points that comes in runs is written as the ascending list of its boundaries: where
the first run begins, where it has ended, where the second begins, and so on. A code point is inside
exactly if an odd number of boundaries lies at or below it.
-/

namespace ImageTransfer.Text

/-- Whether an ascending list of boundaries puts `c` inside a run. -/
def insideBoundaries : List Nat → Nat → Bool
  | begin :: finish :: rest, c =>
    if c < begin then false else c < finish || insideBoundaries rest c
  | [begin], c => begin ≤ c
  | [], _ => false

end ImageTransfer.Text
