import ImageTransfer.Compression.History
import ImageTransfer.Compression.Zstd.Literals

/-!
# Sequences of zstd blocks

After its literals a block has sequences. Each says how many literals come next, and which copy
follows them: its length, and its distance as a new one or as one of the last three. The three
numbers are classes with extra bits, and each class is coded with a table of its own. What literals
are left follow the last sequence.
-/

namespace ImageTransfer.Compression.Zstd

/-- The three tables that sequences are coded with. -/
structure SequenceTables where
  literals : FseTable
  distances : FseTable
  copies : FseTable

/-- The bases of the classes of literal lengths, and how many bits are added to them. -/
def literalClasses : Array (Nat × Nat) :=
  #[(0, 0), (1, 0), (2, 0), (3, 0), (4, 0), (5, 0), (6, 0), (7, 0), (8, 0), (9, 0), (10, 0),
    (11, 0), (12, 0), (13, 0), (14, 0), (15, 0), (16, 1), (18, 1), (20, 1), (22, 1), (24, 2),
    (28, 2), (32, 3), (40, 3), (48, 4), (64, 6), (128, 7), (256, 8), (512, 9), (1024, 10),
    (2048, 11), (4096, 12), (8192, 13), (16384, 14), (32768, 15), (65536, 16)]

/-- The bases of the classes of the lengths of copies, and how many bits are added to them. -/
def copyClasses : Array (Nat × Nat) :=
  #[(3, 0), (4, 0), (5, 0), (6, 0), (7, 0), (8, 0), (9, 0), (10, 0), (11, 0), (12, 0), (13, 0),
    (14, 0), (15, 0), (16, 0), (17, 0), (18, 0), (19, 0), (20, 0), (21, 0), (22, 0), (23, 0),
    (24, 0), (25, 0), (26, 0), (27, 0), (28, 0), (29, 0), (30, 0), (31, 0), (32, 0), (33, 0),
    (34, 0), (35, 1), (37, 1), (39, 1), (41, 1), (43, 2), (47, 2), (51, 3), (59, 3), (67, 4),
    (83, 4), (99, 5), (131, 7), (259, 8), (515, 9), (1027, 10), (2051, 11), (4099, 12), (8195, 13),
    (16387, 14), (32771, 15), (65539, 16)]

/-- How many classes of distances there are. -/
def distanceClasses : Nat := 32

/-- A table in which a run of symbols has the same number of states, several runs in order. -/
def tableOfRuns (log : Nat) (runs : List (Nat × FseCount)) : FseTable :=
  .ofCounts log (runs.flatMap fun (n, c) => List.replicate n c)

/-- The tables of blocks that describe none. -/
def defaultTables : SequenceTables where
  literals := tableOfRuns 6 [(1, .states 4), (1, .states 3), (11, .states 2), (3, .states 1),
    (9, .states 2), (1, .states 3), (1, .states 2), (5, .states 1), (4, .rare)]
  distances := tableOfRuns 5 [(6, .states 1), (3, .states 2), (15, .states 1), (5, .rare)]
  copies := tableOfRuns 6 [(1, .states 1), (1, .states 4), (1, .states 3), (6, .states 2),
    (37, .states 1), (7, .rare)]

/-- Reads a table: the default one, that of a single class, a described one, or the one before. Gives
what follows it. -/
def readSequenceTable? (mode classes maxLog : Nat) (default : FseTable) (before? : Option FseTable)
    (bytes : List UInt8) : Option (FseTable × List UInt8) :=
  match mode with
  | 0 => some (default, bytes)
  | 1 =>
    match bytes with
    | [] => none
    | b :: rest => if classes ≤ b.toNat then none else some (.single b.toNat, rest)
  | 2 => (readTable? classes maxLog bytes.toArray).map fun (t, size) => (t, bytes.drop size)
  | _ => before?.map fun t => (t, bytes)

/-- Reads the tables of a block, and gives what follows them. -/
def readTables? (before? : Option SequenceTables) (bytes : List UInt8) :
    Option (SequenceTables × List UInt8) := do
  let modes := (← bytes.head?).toNat
  let bytes := bytes.drop 1
  if modes % 4 ≠ 0 then none
  let (literals, bytes) ← readSequenceTable? (modes / 64) literalClasses.size 9
    defaultTables.literals (before?.map (·.literals)) bytes
  let (distances, bytes) ← readSequenceTable? (modes / 16 % 4) distanceClasses 8
    defaultTables.distances (before?.map (·.distances)) bytes
  let (copies, bytes) ← readSequenceTable? (modes / 4 % 4) copyClasses.size 9
    defaultTables.copies (before?.map (·.copies)) bytes
  return (⟨literals, distances, copies⟩, bytes)

/-- Reads how many sequences a block has, and gives what follows the number. -/
def readSequenceCount? (bytes : List UInt8) : Option (Nat × List UInt8) :=
  match bytes with
  | [] => none
  | a :: rest =>
    if a < 128 then some (a.toNat, rest)
    else if a = 255 then
      match rest with
      | b :: c :: rest => some (natOfBytesLE [b, c] + 0x7F00, rest)
      | _ => none
    else
      match rest with
      | b :: rest => some ((a.toNat - 128) * 256 + b.toNat, rest)
      | [] => none

/-- The last three distances. -/
abbrev Distances := Nat × Nat × Nat

/-- The distance that a class with its extra bits gives, and the last three with it. The three least
values name one of the last three. After no literals the latest is of no use, so they name the
others, and one less than the latest. -/
def Distances.push (last : Distances) (noLiterals : Bool) (value : Nat) : Distances :=
  let (a, b, c) := last
  if 3 < value then (value - 3, a, b)
  else match value + (if noLiterals then 1 else 0) with
    | 1 => (a, b, c)
    | 2 => (b, a, c)
    | 3 => (c, a, b)
    | _ => (a - 1, a, b)

/-- What is known while sequences are carried out. -/
structure SequenceState where
  bits : BackwardBits
  literalState : Nat
  distanceState : Nat
  copyState : Nat
  last : Distances
  /-- The literals that have not been used. -/
  literals : List UInt8
  history : Array UInt8

/-- A class with its extra bits. -/
def takeClass? (classes : Array (Nat × Nat)) (n : Nat) (b : BackwardBits) :
    Option (Nat × BackwardBits) := do
  let (base, width) ← classes[n]?
  let (extra, b) ← b.take? width
  return (base + extra, b)

/-- Adds so many of the literals to the history, if there are so many. -/
def giveLiterals? : Nat → Array UInt8 → List UInt8 → Option (Array UInt8 × List UInt8)
  | 0, history, literals => some (history, literals)
  | count + 1, history, b :: literals => giveLiterals? count (history.push b) literals
  | _ + 1, _, [] => none

/-- Moves the states of all three tables. -/
def SequenceState.next? (s : SequenceState) (t : SequenceTables) : Option SequenceState := do
  let ⟨bits, literalState, distanceState, copyState, last, literals, history⟩ := s
  let (literalState, bits) ← t.literals.next? literalState bits
  let (copyState, bits) ← t.copies.next? copyState bits
  let (distanceState, bits) ← t.distances.next? distanceState bits
  return ⟨bits, literalState, distanceState, copyState, last, literals, history⟩

/-- Carries out one sequence, after which the history may not be longer than `limit`. -/
def SequenceState.step? (s : SequenceState) (t : SequenceTables) (limit : Nat) :
    Option SequenceState := do
  let ⟨bits, literalState, distanceState, copyState, last, literals, history⟩ := s
  let literalClass := (t.literals.cell literalState).symbol
  let distanceClass := (t.distances.cell distanceState).symbol
  let (extra, bits) ← bits.take? distanceClass
  let (copyLength, bits) ← takeClass? copyClasses (t.copies.cell copyState).symbol bits
  let (literalLength, bits) ← takeClass? literalClasses literalClass bits
  let last := last.push (literalClass = 0) (Nat.pow 2 distanceClass + extra)
  if limit < history.size + literalLength + copyLength then none
  let (history, literals) ← giveLiterals? literalLength history literals
  if last.1 = 0 ∨ history.size < last.1 then none
  return ⟨bits, literalState, distanceState, copyState, last, literals,
    copyBack history last.1 copyLength⟩

/-- Carries out so many sequences. -/
def SequenceState.run? (t : SequenceTables) (limit : Nat) :
    Nat → SequenceState → Option SequenceState
  | 0, s => some s
  | 1, s => s.step? t limit
  | count + 1, s => do
    let s ← s.step? t limit
    let s ← s.next? t
    run? t limit count s

/-- Where sequences begin. -/
def SequenceState.start? (t : SequenceTables) (last : Distances) (literals : List UInt8)
    (history : Array UInt8) (bytes : List UInt8) : Option SequenceState := do
  let bits ← BackwardBits.ofBytes? bytes.toArray
  let (literalState, bits) ← t.literals.first? bits
  let (distanceState, bits) ← t.distances.first? bits
  let (copyState, bits) ← t.copies.first? bits
  return ⟨bits, literalState, distanceState, copyState, last, literals, history⟩

end ImageTransfer.Compression.Zstd
