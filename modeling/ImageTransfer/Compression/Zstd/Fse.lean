import ImageTransfer.Compression.Zstd.Bits

/-!
# Finite state entropy

A table of states stands for how likely symbols are: the likelier a symbol, the more states it has.
A state gives its symbol, and the next state from a few bits. Tables are described by the number of
states of each symbol, of which the rarest have one that is put at the end of the table.
-/

namespace ImageTransfer.Compression.Zstd

/-- One state. -/
structure FseCell where
  symbol : Nat
  /-- How many bits tell the next state, above the base. -/
  bits : Nat
  base : Nat
deriving Inhabited

/-- A table of states; their number is a power of two. -/
structure FseTable where
  log : Nat
  cells : Array FseCell

/-- How many states a symbol has. -/
inductive FseCount
  /-- One, at the end of the table. -/
  | rare
  | states (n : Nat)
deriving DecidableEq

namespace FseCount

/-- How much of the table a symbol takes. -/
def weight : FseCount → Nat
  | rare => 1
  | states n => n

/-- The count that a number stands for. -/
def ofNat : Nat → FseCount
  | 0 => rare
  | n + 1 => states n

end FseCount

/-- The symbols of all states, in the order of the states. Rare symbols are at the end, the first of
them last; the others are spread by a step that reaches every state. -/
def spread (log : Nat) (counts : List FseCount) : Array Nat :=
  let size := Nat.pow 2 log
  let indexed := counts.zipIdx
  let rare := indexed.filterMap fun (c, symbol) => if c = .rare then some symbol else none
  let common := indexed.flatMap fun (c, symbol) =>
    match c with
    | .rare => []
    | .states n => List.replicate n symbol
  let step := size / 2 + size / 8 + 3
  let places := ((List.range size).map fun i => i * step % size).filter (· < size - rare.length)
  let start := (rare.zipIdx.foldl (fun (cells : Array Nat) (symbol, i) =>
    cells.setIfInBounds (size - 1 - i) symbol) (Array.replicate size 0))
  (places.zip common).foldl (fun cells (place, symbol) => cells.setIfInBounds place symbol) start

namespace FseTable

/-- The table that is described by the numbers of states. The states of a symbol share all states
that may follow, the first of them with one bit more than the last. -/
def ofCounts (log : Nat) (counts : List FseCount) : FseTable :=
  let seen := (counts.map FseCount.weight).toArray
  let (_, cells) := (spread log counts).foldl (fun (seen, cells) symbol =>
    let next := seen.getD symbol 0
    let bits := log - next.log2
    (seen.setIfInBounds symbol (next + 1),
      Array.push cells (FseCell.mk symbol bits (next * Nat.pow 2 bits - Nat.pow 2 log)))) (seen, #[])
  ⟨log, cells⟩

/-- The table of a single symbol, which takes no bits. -/
def single (symbol : Nat) : FseTable := ⟨0, #[⟨symbol, 0, 0⟩]⟩

/-- A state of a table. -/
def cell (t : FseTable) (state : Nat) : FseCell := t.cells.getD state ⟨0, 0, 0⟩

/-- The first state, from as many bits as a state has. -/
def first? (t : FseTable) (b : BackwardBits) : Option (Nat × BackwardBits) := b.take? t.log

/-- The state after a state. -/
def next? (t : FseTable) (state : Nat) (b : BackwardBits) : Option (Nat × BackwardBits) :=
  let c := t.cell state
  (b.take? c.bits).map fun (n, b) => (c.base + n, b)

end FseTable

/-- Reads how many symbols without states follow one without states: threes go on, anything less
ends. There may not be more than `slots`. -/
def readAbsent? (bytes : Array UInt8) (position slots : Nat) : Option (Nat × Nat) :=
  match bitsAt bytes position 2 with
  | 3 =>
    match slots with
    | slots + 3 => (readAbsent? bytes (position + 2) slots).map fun (n, p) => (n + 3, p)
    | _ => none
  | n => if n ≤ slots then some (n, position + 2) else none

/-- Reads a number that is at most `remaining`; the lesser ones take one bit less. -/
def readCount (bytes : Array UInt8) (position remaining : Nat) : Nat × Nat :=
  let log := remaining.log2
  let threshold := Nat.pow 2 log
  let short := 2 * threshold - 1 - remaining
  let low := bitsAt bytes position log
  if low < short then (low, position + log)
  else
    let n := bitsAt bytes position (log + 1)
    (if n < threshold then n else n - short, position + log + 1)

/-- Reads the numbers of states of at most `slots` symbols, until they fill the table. -/
def readCounts? (bytes : Array UInt8) (slots : Nat) :
    Nat → Nat → Nat → List FseCount → Option (List FseCount × Nat)
  | 0, _, _, _ => none
  | fuel + 1, position, remaining, counts => do
    let (counts, position) ←
      if counts.head? = some (.states 0) then
        (readAbsent? bytes position (slots - counts.length)).map fun (n, p) =>
          (List.replicate n (.states 0) ++ counts, p)
      else some (counts, position)
    if slots ≤ counts.length then none
    let (n, position) := readCount bytes position remaining
    let count := FseCount.ofNat n
    let remaining := remaining - count.weight
    if remaining ≤ 1 then some ((count :: counts).reverse, position)
    else readCounts? bytes slots fuel position remaining (count :: counts)

/-- Reads the description of a table with at most `slots` symbols and at most `2 ^ maxLog` states,
and gives how many bytes it takes. -/
def readTable? (slots maxLog : Nat) (bytes : Array UInt8) : Option (FseTable × Nat) := do
  let log := bitsAt bytes 0 4 + 5
  if maxLog < log then none
  let (counts, position) ← readCounts? bytes slots (slots + 1) 4 (Nat.pow 2 log + 1) []
  let size := (position + 7) / 8
  if bytes.size < size then none
  return (FseTable.ofCounts log counts, size)

end ImageTransfer.Compression.Zstd
