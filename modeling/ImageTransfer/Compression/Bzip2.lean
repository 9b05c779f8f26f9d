import ImageTransfer.Checksum.Crc
import ImageTransfer.Compression.Huffman
import ImageTransfer.Compression.Member

/-!
# Bzip2 members

A member is a header, blocks, and a check over the checks of its blocks. Within a block the data is
shortened by runs, sorted by what follows each byte, moved to front, shortened by runs of zeros, and
written in several canonical codes that change every fifty symbols.

Bits come from the most significant bit of each byte on, and only the member as a whole fills its
last byte. The reader goes from bit to bit; a block is undone when its last symbol has been read.
-/

namespace ImageTransfer.Compression.Bzip2

/-- What is known of a block before its symbols. -/
structure BlockHeader where
  check : UInt32
  isRandomised : Bool
  /-- Where the data begins in the order of the sorted rotations. -/
  origin : Nat

/-- The symbols of a block, as far as they have been read. -/
structure Symbols where
  header : BlockHeader
  codes : Array CanonicalCode
  /-- Which code each group of fifty symbols is in, from the current group on. -/
  selectors : List Nat
  /-- How many symbols of the current group are left. -/
  groupLeft : Nat
  /-- How many different bytes the block has. -/
  usedCount : Nat
  /-- The bytes of the block, the most recent one first. -/
  recent : List UInt8
  /-- How long the run that is being read is so far, and what its next digit counts. -/
  runLength : Nat
  runWeight : Nat
  data : Array UInt8

/-- What is known of the codes of a block while they are read. -/
structure Tables where
  header : BlockHeader
  used : List UInt8
  selectors : List Nat
  /-- How many codes are still to come. -/
  left : Nat
  codes : Array CanonicalCode

/-- Numbers of a fixed count of bits. -/
inductive Field
  /-- A byte that has to be the first of these. -/
  | streamMagic (expected : List Nat)
  | level
  /-- The first byte of a block or of the end of the member. -/
  | sectionStart
  | blockMagic (expected : List Nat)
  | endMagic (expected : List Nat)
  | blockCheck
  | randomised (check : UInt32)
  | origin (check : UInt32) (isRandomised : Bool)
  /-- Which of the sixteen groups of sixteen bytes the block uses. -/
  | usedGroups (header : BlockHeader)
  /-- Which bytes of a group are used, with the groups to come after it. -/
  | usedBytes (header : BlockHeader) (group : Nat) (left : List Nat) (used : List UInt8)
  | codeCount (header : BlockHeader) (used : List UInt8)
  | selectorCount (header : BlockHeader) (used : List UInt8) (codeCount : Nat)
  | firstLength (tables : Tables)
  | memberCheck

/-- Where the reader stands. -/
inductive Phase
  | field (f : Field) (need got value : Nat)
  /-- In a selector that is `rank` so far. -/
  | selector (header : BlockHeader) (used : List UInt8) (codeCount left rank : Nat)
      (done : Array Nat)
  /-- At a length, which a bit says to keep or to change. -/
  | length (tables : Tables) (current : Nat) (done : Array Nat)
  /-- At the bit that says how a length changes. -/
  | lengthChange (tables : Tables) (current : Nat) (done : Array Nat)
  | symbol (w : CodeWord) (code : CanonicalCode) (symbols : Symbols)
  | finished

/-- A member that is being read. -/
structure State where
  /-- How many bytes a block may have. -/
  blockLimit : Nat
  /-- The check over the checks of the blocks so far. -/
  combined : UInt32
  phase : Phase
  /-- What the current byte has completed. -/
  output : List UInt8

/-- Where the reader is before a number. -/
def fieldPhase (f : Field) (need : Nat) : Phase := .field f need 0 0

/-- Before the first bit. -/
def start : State := ⟨0, 0, fieldPhase (.streamMagic [0x42, 0x5A, 0x68]) 8, []⟩

/-- The longest word of a code. -/
def maxLength : Nat := 20

/-- How many selectors count; further ones are read and dropped. -/
def maxSelectors : Nat := 18002

/-- How many symbols are in one code. -/
def groupSize : Nat := 50

/-- The least weight that no digit of a run may have. -/
def runWeightLimit : Nat := 2 * 1024 * 1024

/-- The distances between the bytes that randomised blocks have flipped. -/
def randomDistances : Array Nat :=
  #[619, 720, 127, 481, 931, 816, 813, 233, 566, 247, 985, 724, 205, 454, 863, 491, 741, 242, 949,
    214, 733, 859, 335, 708, 621, 574, 73, 654, 730, 472, 419, 436, 278, 496, 867, 210, 399, 680,
    480, 51, 878, 465, 811, 169, 869, 675, 611, 697, 867, 561, 862, 687, 507, 283, 482, 129, 807,
    591, 733, 623, 150, 238, 59, 379, 684, 877, 625, 169, 643, 105, 170, 607, 520, 932, 727, 476,
    693, 425, 174, 647, 73, 122, 335, 530, 442, 853, 695, 249, 445, 515, 909, 545, 703, 919, 874,
    474, 882, 500, 594, 612, 641, 801, 220, 162, 819, 984, 589, 513, 495, 799, 161, 604, 958, 533,
    221, 400, 386, 867, 600, 782, 382, 596, 414, 171, 516, 375, 682, 485, 911, 276, 98, 553, 163,
    354, 666, 933, 424, 341, 533, 870, 227, 730, 475, 186, 263, 647, 537, 686, 600, 224, 469, 68,
    770, 919, 190, 373, 294, 822, 808, 206, 184, 943, 795, 384, 383, 461, 404, 758, 839, 887, 715,
    67, 618, 276, 204, 918, 873, 777, 604, 560, 951, 160, 578, 722, 79, 804, 96, 409, 713, 940,
    652, 934, 970, 447, 318, 353, 859, 672, 112, 785, 645, 863, 803, 350, 139, 93, 354, 99, 820,
    908, 609, 772, 154, 274, 580, 184, 79, 626, 630, 742, 653, 282, 762, 623, 680, 81, 927, 626,
    789, 125, 411, 521, 938, 300, 821, 78, 343, 175, 128, 250, 170, 774, 972, 275, 999, 639, 495,
    78, 352, 126, 857, 956, 358, 619, 580, 124, 737, 594, 701, 612, 669, 112, 134, 694, 363, 992,
    809, 743, 168, 974, 944, 375, 748, 52, 600, 747, 642, 182, 862, 81, 344, 805, 988, 739, 511,
    655, 814, 334, 249, 515, 897, 955, 664, 981, 649, 113, 974, 459, 893, 228, 433, 837, 553, 268,
    926, 240, 102, 654, 459, 51, 686, 754, 806, 760, 493, 403, 415, 394, 687, 700, 946, 670, 656,
    610, 738, 392, 760, 799, 887, 653, 978, 321, 576, 617, 626, 502, 894, 679, 243, 440, 680, 879,
    194, 572, 640, 724, 926, 56, 204, 700, 707, 151, 457, 449, 797, 195, 791, 558, 945, 679, 297,
    59, 87, 824, 713, 663, 412, 693, 342, 606, 134, 108, 571, 364, 631, 212, 174, 643, 304, 329,
    343, 97, 430, 751, 497, 314, 983, 374, 822, 928, 140, 206, 73, 263, 980, 736, 876, 478, 430,
    305, 170, 514, 364, 692, 829, 82, 855, 953, 676, 246, 369, 970, 294, 750, 807, 827, 150, 790,
    288, 923, 804, 378, 215, 828, 592, 281, 565, 555, 710, 82, 896, 831, 547, 261, 524, 462, 293,
    465, 502, 56, 661, 821, 976, 991, 658, 869, 905, 758, 745, 193, 768, 550, 608, 933, 378, 286,
    215, 979, 792, 961, 61, 688, 793, 644, 986, 403, 106, 366, 905, 644, 372, 567, 466, 434, 645,
    210, 389, 550, 919, 135, 780, 773, 635, 389, 707, 100, 626, 958, 165, 504, 920, 176, 193, 713,
    857, 265, 203, 50, 668, 108, 645, 990, 626, 197, 510, 357, 358, 850, 858, 364, 936, 638]

/-- Flips the bytes of a randomised block, of which the next one is `togo` bytes away and takes its
successor's distance from `place` on. -/
def derandomise (togo place : Nat) : List UInt8 → List UInt8
  | [] => []
  | b :: rest =>
    let (togo, place) :=
      if togo = 0 then (randomDistances.getD place 0, (place + 1) % randomDistances.size)
      else (togo, place)
    let togo := togo - 1
    (if togo = 1 then b ^^^ 1 else b) :: derandomise togo place rest

/-- Undoes the shortening by runs: after four equal bytes, which `count` of have been seen, comes
the number of further ones. -/
def expandRuns (last : UInt8) (count : Nat) (done : Array UInt8) :
    List UInt8 → Option (Array UInt8)
  | [] => if count = 4 then none else some done
  | b :: rest =>
    if count = 4 then expandRuns b 0 (done ++ Array.replicate b.toNat last) rest
    else if 0 < count && b == last then expandRuns last (count + 1) (done.push b) rest
    else expandRuns b 1 (done.push b) rest

/-- Where the rotations that begin with each byte begin among the sorted rotations. -/
def bucketStarts (data : Array UInt8) : Array Nat :=
  let counts := data.foldl (fun (c : Array Nat) b => c.modify b.toNat (· + 1)) (Array.replicate 256 0)
  (counts.foldl (fun (s : Array Nat × Nat) n => (s.1.push s.2, s.2 + n)) (#[], 0)).1

/-- For each place among the sorted rotations, the place of the rotation one byte on. -/
def successors (data : Array UInt8) : Array Nat :=
  let place (s : Array Nat × Array Nat) (i : Nat) : Array Nat × Array Nat :=
    let (next, starts) := s
    let b := (data.getD i 0).toNat
    (next.setIfInBounds (starts.getD b 0) i, starts.modify b (· + 1))
  ((List.range data.size).foldl place (Array.replicate data.size 0, bucketStarts data)).1

/-- The bytes read by going from rotation to rotation. -/
def followRotations (data : Array UInt8) (next : Array Nat) :
    Nat → Nat → Array UInt8 → Array UInt8
  | 0, _, done => done
  | left + 1, place, done =>
    followRotations data next left (next.getD place 0) (done.push (data.getD place 0))

/-- The data of a block whose symbols have all been read. -/
def Symbols.undo? (s : Symbols) : Option (List UInt8) :=
  if s.data.size ≤ s.header.origin then none
  else
    let next := successors s.data
    let sorted :=
      (followRotations s.data next s.data.size (next.getD s.header.origin 0) #[]).toList
    let runs := if s.header.isRandomised then derandomise 0 0 sorted else sorted
    (expandRuns 0 0 #[] runs).map Array.toList

/-- The next symbol: every fifty symbols the next selector says in which code. -/
def Symbols.next? (s : Symbols) : Option Phase :=
  match s.groupLeft, s.selectors with
  | 0, _ :: selector :: rest =>
    some (.symbol .empty (s.codes.getD selector ⟨#[], #[], 0⟩)
      { s with groupLeft := groupSize - 1, selectors := selector :: rest })
  | left + 1, selector :: _ =>
    some (.symbol .empty (s.codes.getD selector ⟨#[], #[], 0⟩) { s with groupLeft := left })
  | _, _ => none

/-- The symbols after a run of the most recent byte. -/
def Symbols.endRun? (limit : Nat) (s : Symbols) : Option Symbols :=
  if limit < s.data.size + s.runLength then none
  else
    let ⟨header, codes, selectors, groupLeft, usedCount, recent, runLength, _, data⟩ := s
    some ⟨header, codes, selectors, groupLeft, usedCount, recent, 0, 1,
      data ++ Array.replicate runLength (recent.headD 0)⟩

/-- The state before the next block or the end of the member. -/
def State.atSection (s : State) : State := { s with phase := fieldPhase .sectionStart 8 }

/-- The state after a block. -/
def State.endBlock? (s : State) (symbols : Symbols) : Option State := do
  let data ← symbols.undo?
  let check := Crc.crcForward data
  if check ≠ symbols.header.check then none
  else
    let combined := ((s.combined <<< 1) ||| (s.combined >>> 31)) ^^^ check
    return { s.atSection with combined := combined, output := s.output ++ data }

/-- What follows a symbol: a digit of a run, the end of the block, or a byte by its rank. -/
def State.afterSymbol? (s : State) (symbols : Symbols) (symbol : Nat) : Option State :=
  if symbol ≤ 1 then
    if runWeightLimit ≤ symbols.runWeight then none
    else
      let symbols := { symbols with
        runLength := symbols.runLength + (symbol + 1) * symbols.runWeight
        runWeight := 2 * symbols.runWeight }
      symbols.next?.map fun phase => { s with phase := phase }
  else do
    let symbols ← symbols.endRun? s.blockLimit
    if symbol = symbols.usedCount + 1 then s.endBlock? symbols
    else if s.blockLimit ≤ symbols.data.size then none
    else
      let ⟨header, codes, selectors, groupLeft, usedCount, recent, runLength, runWeight, data⟩ :=
        symbols
      let b ← recent[symbol - 1]?
      let symbols : Symbols := ⟨header, codes, selectors, groupLeft, usedCount,
        b :: recent.eraseIdx (symbol - 1), runLength, runWeight, data.push b⟩
      symbols.next?.map fun phase => { s with phase := phase }

/-- The selectors that ranks among the recently used codes stand for. -/
def selectorsOfRanks (recent : List Nat) : List Nat → List Nat
  | [] => []
  | rank :: rest =>
    let selector := recent.getD rank 0
    selector :: selectorsOfRanks (selector :: recent.eraseIdx rank) rest

/-- What follows the codes. -/
def State.afterTables? (s : State) (tables : Tables) : Option State :=
  let symbols : Symbols := {
    header := tables.header
    codes := tables.codes
    -- the first group begins with the first selector
    selectors := 0 :: tables.selectors
    groupLeft := 0
    usedCount := tables.used.length
    recent := tables.used
    runLength := 0
    runWeight := 1
    data := #[] }
  symbols.next?.map fun phase => { s with phase := phase }

/-- A length of a word, which has to stay in its bounds. -/
def State.atLength? (s : State) (tables : Tables) (current : Nat) (done : Array Nat) :
    Option State :=
  if current < 1 ∨ maxLength < current then none
  else some { s with phase := .length tables current done }

/-- What follows a length that is kept. -/
def State.afterLength? (s : State) (tables : Tables) (current : Nat) (done : Array Nat) :
    Option State :=
  let done := done.push current
  if done.size < tables.used.length + 2 then s.atLength? tables current done
  else
    let tables := { tables with
      left := tables.left - 1, codes := tables.codes.push (.ofLengths done.toList) }
    if tables.left = 0 then s.afterTables? tables
    else some { s with phase := fieldPhase (.firstLength tables) 5 }

/-- What follows the selectors. -/
def State.afterSelectors (s : State) (header : BlockHeader) (used : List UInt8) (codeCount : Nat)
    (ranks : Array Nat) : State :=
  let selectors := selectorsOfRanks (List.range codeCount) (ranks.toList.take maxSelectors)
  { s with phase := fieldPhase (.firstLength ⟨header, used, selectors, codeCount, #[]⟩) 5 }

/-- The bits of a number of sixteen bits that are set, from the most significant on. -/
def setBits (value : Nat) : List Nat := (List.range 16).filter fun i => value.testBit (15 - i)

/-- What follows the bytes that a block uses. -/
def State.atUsed? (s : State) (header : BlockHeader) (groups : List Nat) (used : List UInt8) :
    Option State :=
  match groups with
  | group :: left => some { s with phase := fieldPhase (.usedBytes header group left used) 16 }
  | [] =>
    if used.isEmpty then none else some { s with phase := fieldPhase (.codeCount header used) 3 }

/-- What follows a number. -/
def State.afterField? (s : State) (f : Field) (value : Nat) : Option State :=
  match f with
  | .streamMagic expected =>
    match expected with
    | [] => none
    | e :: rest =>
      if value ≠ e then none
      else if rest.isEmpty then some { s with phase := fieldPhase .level 8 }
      else some { s with phase := fieldPhase (.streamMagic rest) 8 }
  | .level =>
    if value < 0x31 ∨ 0x39 < value then none
    else some { s.atSection with blockLimit := 100000 * (value - 0x30) }
  | .sectionStart =>
    if value = 0x31 then
      some { s with phase := fieldPhase (.blockMagic [0x41, 0x59, 0x26, 0x53, 0x59]) 8 }
    else if value = 0x17 then
      some { s with phase := fieldPhase (.endMagic [0x72, 0x45, 0x38, 0x50, 0x90]) 8 }
    else none
  | .blockMagic expected =>
    match expected with
    | [] => none
    | e :: rest =>
      if value ≠ e then none
      else if rest.isEmpty then some { s with phase := fieldPhase .blockCheck 32 }
      else some { s with phase := fieldPhase (.blockMagic rest) 8 }
  | .endMagic expected =>
    match expected with
    | [] => none
    | e :: rest =>
      if value ≠ e then none
      else if rest.isEmpty then some { s with phase := fieldPhase .memberCheck 32 }
      else some { s with phase := fieldPhase (.endMagic rest) 8 }
  | .blockCheck => some { s with phase := fieldPhase (.randomised (UInt32.ofNat value)) 1 }
  | .randomised check => some { s with phase := fieldPhase (.origin check (value == 1)) 24 }
  | .origin check isRandomised =>
    if 10 + s.blockLimit < value then none
    else some { s with phase := fieldPhase (.usedGroups ⟨check, isRandomised, value⟩) 16 }
  | .usedGroups header => s.atUsed? header (setBits value) []
  | .usedBytes header group left used =>
    s.atUsed? header left (used ++ (setBits value).map fun i => UInt8.ofNat (16 * group + i))
  | .codeCount header used =>
    if value < 2 ∨ 6 < value then none
    else some { s with phase := fieldPhase (.selectorCount header used value) 15 }
  | .selectorCount header used codeCount =>
    if value = 0 then none
    else some { s with phase := .selector header used codeCount (value - 1) 0 #[] }
  | .firstLength tables => s.atLength? tables value #[]
  | .memberCheck =>
    if value = s.combined.toNat then some { s with phase := .finished } else none

/-- One more bit. -/
def State.pushBit? (s : State) (bit : Bool) : Option State :=
  match s.phase with
  | .field f need got value =>
    let value := 2 * value + (if bit then 1 else 0)
    if got + 1 < need then some { s with phase := .field f need (got + 1) value }
    else s.afterField? f value
  | .selector header used codeCount left rank done =>
    if bit then
      if codeCount ≤ rank + 1 then none
      else some { s with phase := .selector header used codeCount left (rank + 1) done }
    else
      let done := done.push rank
      match left with
      | 0 => some (s.afterSelectors header used codeCount done)
      | left + 1 => some { s with phase := .selector header used codeCount left 0 done }
  | .length tables current done =>
    if bit then some { s with phase := .lengthChange tables current done }
    else s.afterLength? tables current done
  | .lengthChange tables current done =>
    s.atLength? tables (if bit then current - 1 else current + 1) done
  | .symbol w code symbols =>
    match w.push code bit with
    | (w, some symbol) =>
      if maxLength < w.length then none else { s with phase := .finished }.afterSymbol? symbols symbol
    | (w, none) =>
      if maxLength < w.length then none else some { s with phase := .symbol w code symbols }
  | .finished => some s

/-- Whether the member is complete. -/
def State.isFinished (s : State) : Bool :=
  match s.phase with
  | .finished => true
  | _ => false

/-- One more byte, from its most significant bit on. -/
def State.push (s : State) (b : UInt8) : Progress State :=
  let next := (List.range 8).foldlM (fun (s : State) i => s.pushBit? (b.toNat.testBit (7 - i)))
    { s with output := [] }
  match next with
  | none => .corrupt
  | some s => if s.isFinished then .complete s.output else .more s s.output

/-- The decoder of bzip2 members. -/
def decoder : MemberDecoder := ⟨State, start, State.push⟩

end ImageTransfer.Compression.Bzip2
