/-!
# Copies

All formats shorten data by copies: bytes are given as those that came some distance before. The
distance may be shorter than the copy, which then repeats itself.
-/

namespace ImageTransfer.Compression

/-- Copies `count` bytes from `distance` bytes back, one after the other. -/
def copyBack (history : Array UInt8) (distance : Nat) : Nat → Array UInt8
  | 0 => history
  | count + 1 => copyBack (history.push (history.getD (history.size - distance) 0)) distance count

@[simp] theorem size_copyBack (history : Array UInt8) (distance count : Nat) :
    (copyBack history distance count).size = history.size + count := by
  induction count generalizing history with
  | zero => rfl
  | succ n ih => simp [copyBack, ih]; omega

end ImageTransfer.Compression
