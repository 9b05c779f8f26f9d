import ImageTransfer.Compression.History
import ImageTransfer.Compression.Huffman

/-!
# Deflate

A deflate stream is a sequence of blocks. A block is stored as it is, or written in two canonical
codes: one for literal bytes and the lengths of copies, one for the distances that copies reach
back. The codes are fixed ones or are sent with the block, themselves coded by their lengths.

Bits come from the least significant bit of each byte on. The reader goes from bit to bit, and where
it stands between two bits is a `Phase`.
-/

namespace ImageTransfer.Compression.Deflate

/-- The codes of a block. -/
structure Codes where
  literals : CanonicalCode
  distances : CanonicalCode

/-- How many lengths of words a block sends, and those sent so far. -/
structure Lengths where
  literalCount : Nat
  distanceCount : Nat
  done : Array Nat

/-- Numbers of a fixed count of bits. -/
inductive Field
  | blockHeader
  | storedSizes
  | storedByte (left : Nat)
  /-- How many words of each code there are. -/
  | wordCounts
  /-- A length of a word in the code for lengths. -/
  | orderedLength (lengths : Lengths) (count : Nat) (done : Array Nat)
  /-- How often `value` is repeated, beyond `least` times. -/
  | repetition (code : CanonicalCode) (lengths : Lengths) (value : Option Nat) (least : Nat)
  | lengthExtra (codes : Codes) (base : Nat)
  | distanceExtra (length base : Nat) (codes : Codes)

/-- What a code word is read for. -/
inductive WordUse
  | wordLength (code : CanonicalCode) (lengths : Lengths)
  | literal (codes : Codes)
  | distance (codes : Codes) (length : Nat)

/-- Where the reader stands. -/
inductive Phase
  /-- In a number of `need` bits, of which `got` bits make `value`. -/
  | field (f : Field) (need got value : Nat)
  /-- In a code word. -/
  | word (w : CodeWord) (use : WordUse)
  /-- Before a number that begins with the next byte. -/
  | aligning (f : Field) (need : Nat)
  /-- After the last block. -/
  | finished

/-- A stream that is being read. -/
structure State where
  /-- What has been decoded; copies reach back into it. -/
  history : Array UInt8
  /-- Whether the current block is the last. -/
  isLast : Bool
  phase : Phase

/-- Before the first bit. -/
def start : State := ⟨#[], false, .field .blockHeader 3 0 0⟩

/-- The longest word of any code. -/
def maxLength : Nat := 15

/-- The bases of the lengths of copies, and how many bits are added to them. -/
def lengthBases : Array (Nat × Nat) :=
  #[(3, 0), (4, 0), (5, 0), (6, 0), (7, 0), (8, 0), (9, 0), (10, 0), (11, 1), (13, 1), (15, 1),
    (17, 1), (19, 2), (23, 2), (27, 2), (31, 2), (35, 3), (43, 3), (51, 3), (59, 3), (67, 4),
    (83, 4), (99, 4), (115, 4), (131, 5), (163, 5), (195, 5), (227, 5), (258, 0)]

/-- The bases of the distances of copies, and how many bits are added to them. -/
def distanceBases : Array (Nat × Nat) :=
  #[(1, 0), (2, 0), (3, 0), (4, 0), (5, 1), (7, 1), (9, 2), (13, 2), (17, 3), (25, 3), (33, 4),
    (49, 4), (65, 5), (97, 5), (129, 6), (193, 6), (257, 7), (385, 7), (513, 8), (769, 8),
    (1025, 9), (1537, 9), (2049, 10), (3073, 10), (4097, 11), (6145, 11), (8193, 12), (12289, 12),
    (16385, 13), (24577, 13)]

/-- The order in which the lengths of the code for lengths are sent. -/
def lengthOrder : List Nat := [16, 17, 18, 0, 8, 7, 9, 6, 10, 5, 11, 4, 12, 3, 13, 2, 14, 1, 15]

/-- The codes of blocks that send none. -/
def fixedCodes : Codes where
  literals := .ofLengths (List.replicate 144 8 ++ List.replicate 112 9 ++ List.replicate 24 7 ++
    List.replicate 8 8)
  distances := .ofLengths (List.replicate 32 5)

/-- Whether a code leaves no word free. -/
def isComplete (code : CanonicalCode) : Bool :=
  !code.isOversubscribed maxLength && code.spare maxLength == 0

/-- Whether a code may be used in a block: it is complete, or has a single word of one bit, or has
no word at all. -/
def isUsable (code : CanonicalCode) : Bool :=
  isComplete code || code.longest ≤ 1 && !code.isOversubscribed maxLength

/-- The state at the next literal of a block. -/
def State.atLiteral (s : State) (codes : Codes) : State :=
  { s with phase := .word .empty (.literal codes) }

/-- The state after a block. -/
def State.afterBlock (s : State) : State :=
  { s with phase := if s.isLast then .finished else .field .blockHeader 3 0 0 }

/-- A copy whose distance is known. -/
def State.copy? (s : State) (codes : Codes) (length distance : Nat) : Option State :=
  if s.history.size < distance then none
  else
    let ⟨history, isLast, _⟩ := s
    some ⟨copyBack history distance length, isLast, .word .empty (.literal codes)⟩

/-- The next length of a word, or the block's content if all lengths are there. -/
def State.atLength? (s : State) (code : CanonicalCode) (lengths : Lengths) : Option State :=
  if lengths.done.size < lengths.literalCount + lengths.distanceCount then
    some { s with phase := .word .empty (.wordLength code lengths) }
  else
    let all := lengths.done.toList
    let codes : Codes := ⟨.ofLengths (all.take lengths.literalCount),
      .ofLengths (all.drop lengths.literalCount)⟩
    -- the end of the block must have a word
    if lengths.done.getD 256 0 = 0 then none
    else if isUsable codes.literals && isUsable codes.distances then some (s.atLiteral codes)
    else none

/-- What follows a number. -/
def State.afterField? (s : State) (f : Field) (value : Nat) : Option State :=
  match f with
  | .blockHeader =>
    let s := { s with isLast := value % 2 == 1 }
    match value / 2 with
    | 0 => some { s with phase := .aligning .storedSizes 32 }
    | 1 => some (s.atLiteral fixedCodes)
    | 2 => some { s with phase := .field .wordCounts 14 0 0 }
    | _ => none
  | .storedSizes =>
    let size := value % 0x10000
    if size + value / 0x10000 ≠ 0xFFFF then none
    else if size = 0 then some s.afterBlock
    else some { s with phase := .field (.storedByte (size - 1)) 8 0 0 }
  | .storedByte left =>
    let ⟨history, isLast, _⟩ := s
    let s : State := ⟨history.push (UInt8.ofNat value), isLast, .finished⟩
    match left with
    | 0 => some s.afterBlock
    | left + 1 => some { s with phase := .field (.storedByte left) 8 0 0 }
  | .wordCounts =>
    let literals := value % 32 + 257
    let distances := value / 32 % 32 + 1
    if 286 < literals ∨ 30 < distances then none
    else some { s with
      phase := .field (.orderedLength ⟨literals, distances, #[]⟩ (value / 1024 + 4) #[]) 3 0 0 }
  | .orderedLength lengths count done =>
    let done := done.push value
    if done.size < count then
      some { s with phase := .field (.orderedLength lengths count done) 3 0 0 }
    else
      let sent := lengthOrder.zip done.toList
      let code := CanonicalCode.ofLengths ((List.range 19).map fun i => (sent.lookup i).getD 0)
      if isComplete code || code.longest = 0 then s.atLength? code lengths else none
  | .repetition code lengths value? least =>
    match value? with
    | none => none
    | some repeated =>
      let done := lengths.done ++ Array.replicate (least + value) repeated
      if lengths.literalCount + lengths.distanceCount < done.size then none
      else s.atLength? code { lengths with done := done }
  | .lengthExtra codes base =>
    some { s with phase := .word .empty (.distance codes (base + value)) }
  | .distanceExtra length base codes => s.copy? codes length (base + value)

/-- What follows a code word. -/
def State.afterWord? (s : State) (use : WordUse) (symbol : Nat) : Option State :=
  match use with
  | .wordLength code lengths =>
    let again (value? : Option Nat) (least bits : Nat) : Option State :=
      some { s with phase := .field (.repetition code lengths value? least) bits 0 0 }
    match symbol with
    | 16 => again lengths.done.back? 3 2
    | 17 => again (some 0) 3 3
    | 18 => again (some 0) 11 7
    | length => s.atLength? code { lengths with done := lengths.done.push length }
  | .literal codes =>
    if symbol < 256 then
      let ⟨history, isLast, _⟩ := s
      some ⟨history.push (UInt8.ofNat symbol), isLast, .word .empty (.literal codes)⟩
    else if symbol = 256 then some s.afterBlock
    else match lengthBases[symbol - 257]? with
      | some (base, 0) => some { s with phase := .word .empty (.distance codes base) }
      | some (base, bits) => some { s with phase := .field (.lengthExtra codes base) bits 0 0 }
      | none => none
  | .distance codes length =>
    match distanceBases[symbol]? with
    | some (base, 0) => s.copy? codes length base
    | some (base, bits) =>
      some { s with phase := .field (.distanceExtra length base codes) bits 0 0 }
    | none => none

/-- The code that a word is read in. -/
def WordUse.code : WordUse → CanonicalCode
  | .wordLength code _ => code
  | .literal codes => codes.literals
  | .distance codes _ => codes.distances

/-- One more bit. -/
def State.pushBit? (s : State) (bit : Bool) : Option State :=
  match s.phase with
  | .field f need got value =>
    let value := value + (if bit then Nat.pow 2 got else 0)
    if got + 1 < need then some { s with phase := .field f need (got + 1) value }
    else s.afterField? f value
  | .word w use =>
    let code := use.code
    match use, code.longest with
    -- in a code for lengths without words, each bit is a length of zero
    | .wordLength .., 0 => s.afterWord? use 0
    | _, _ =>
      match w.push code bit with
      | (_, some symbol) => s.afterWord? use symbol
      | (w, none) =>
        if code.longest ≤ w.length then none else some { s with phase := .word w use }
  | .aligning .. => some s
  | .finished => some s

/-- The end of a byte. -/
def State.endByte (s : State) : State :=
  match s.phase with
  | .aligning f need => { s with phase := .field f need 0 0 }
  | _ => s

/-- Whether the last block has ended. -/
def State.isFinished (s : State) : Bool :=
  match s.phase with
  | .finished => true
  | _ => false

/-- One more byte, from its least significant bit on. -/
def State.push? (s : State) (b : UInt8) : Option State := do
  let s ← (List.range 8).foldlM (fun (s : State) i => s.pushBit? (b.toNat.testBit i)) s
  return s.endByte

end ImageTransfer.Compression.Deflate
