/-!
# Canonical codes

Deflate and bzip2 send codes by the lengths of their code words alone: shorter words come first in
the order of their numbers, and words of one length follow the order of their symbols. Reading a
word bit by bit needs to know only how many words of each length there are and the symbols in the
order of their words.
-/

namespace ImageTransfer.Compression

/-- A canonical code. -/
structure CanonicalCode where
  /-- How many words there are of each length, from 0. -/
  counts : Array Nat
  /-- The symbols in the order of their words. -/
  symbols : Array Nat
  /-- The length of the longest word. -/
  longest : Nat

namespace CanonicalCode

/-- The code in which the `i`th symbol has a word of the `i`th length, and no word if that is 0. -/
def ofLengths (lengths : List Nat) : CanonicalCode :=
  let longest := lengths.foldl max 0
  let indexed := lengths.zipIdx
  let counts := (List.range (longest + 1)).map fun n => if n = 0 then 0 else lengths.count n
  let symbols := (List.range longest).flatMap fun n =>
    indexed.filterMap fun (len, symbol) => if len = n + 1 then some symbol else none
  ⟨counts.toArray, symbols.toArray, longest⟩

/-- How many words of the longest possible length the words of a code leave free; negative if there
are more words than fit. -/
def spare (limit : Nat) (code : CanonicalCode) : Int :=
  (List.range limit).foldl (fun (left : Int) n => 2 * left - code.counts.getD (n + 1) 0) 1

/-- Whether some length has more words than are left for it. -/
def isOversubscribed (limit : Nat) (code : CanonicalCode) : Bool :=
  ((List.range limit).foldl (fun (left : Option Int) n => left.bind fun left =>
    let left := 2 * left - code.counts.getD (n + 1) 0
    if left < 0 then none else some left) (some 1)).isNone

end CanonicalCode

/-- A word that is being read. -/
structure CodeWord where
  /-- The bits so far, as a number. -/
  value : Nat
  /-- How many bits there are. -/
  length : Nat
  /-- The least word of this length that is not the beginning of a longer one. -/
  first : Nat
  /-- How many shorter words there are. -/
  before : Nat

namespace CodeWord

/-- A word of which nothing has been read. -/
def empty : CodeWord := ⟨0, 0, 0, 0⟩

/-- A word with one more bit, and its symbol if that makes it complete. -/
def push (w : CodeWord) (code : CanonicalCode) (bit : Bool) : CodeWord × Option Nat :=
  let value := 2 * w.value + (if bit then 1 else 0)
  let length := w.length + 1
  let first := 2 * w.first
  let count := code.counts.getD length 0
  if value < first + count then
    (⟨value, length, first, w.before⟩, code.symbols[w.before + (value - first)]?)
  else (⟨value, length, first + count, w.before + count⟩, none)

end CodeWord

end ImageTransfer.Compression
