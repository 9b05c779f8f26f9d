import ImageTransfer.Compression.Zstd.Fse
import ImageTransfer.Digest.Word

/-!
# Literals of zstd blocks

A compressed block begins with its literal bytes: as they are, one byte repeated, or in a prefix
code. The code is described by a weight for each byte, where the last weight follows from the others,
or is the one that was used before. The weights themselves are plain or written with finite state
entropy. Larger literals are coded in four streams.
-/

namespace ImageTransfer.Compression.Zstd

/-- A prefix code: for each number of `log` bits, the symbol whose word it begins with and the length
of that word. -/
structure PrefixCode where
  log : Nat
  cells : Array (UInt8 × Nat)

/-- The longest word of a prefix code. -/
def maxWord : Nat := 12

/-- The weight that is missing to a power of two, and the power. A byte of weight `w` takes
`2 ^ (w - 1)` of the numbers. -/
def lastWeight? (weights : List Nat) : Option (Nat × Nat) :=
  let sum := weights.foldl (fun n w => n + Nat.pow 2 w / 2) 0
  let log := sum.log2 + 1
  let rest := Nat.pow 2 log - sum
  if sum = 0 ∨ maxWord < log ∨ Nat.pow 2 rest.log2 ≠ rest then none else some (rest.log2 + 1, log)

/-- The code that is described by all weights but the last. The words of one weight follow the order
of their bytes, the longest words come first. -/
def PrefixCode.ofWeights? (weights : List Nat) : Option PrefixCode :=
  if weights.any (maxWord < ·) then none
  else do
    let (last, log) ← lastWeight? weights
    let all := (weights ++ [last]).zipIdx
    let ones := all.countP fun (w, _) => w = 1
    if ones < 2 ∨ ones % 2 = 1 then none
    else
      let cells := (List.range log).flatMap fun i =>
        (all.filter fun (w, _) => w = i + 1).flatMap fun (_, symbol) =>
          List.replicate (Nat.pow 2 i) (UInt8.ofNat symbol, log - i)
      some ⟨log, cells.toArray⟩

/-- Reads so many symbols; afterwards nothing may be left. -/
def PrefixCode.decode? (code : PrefixCode) : Nat → BackwardBits → List UInt8 → Option (List UInt8)
  | 0, b, done => if b.left = 0 then some done.reverse else none
  | count + 1, b, done =>
    let (symbol, bits) := code.cells.getD (b.peek code.log) (0, 0)
    match b.skip? bits with
    | some b => decode? code count b (symbol :: done)
    | none => none

/-- Reads weights with two states in turn, until a state would need more bits than there are. Then
the other state gives the last weight. -/
def readWeights? (t : FseTable) : Nat → Nat → Nat → BackwardBits → List Nat → Option (List Nat)
  | 0, _, _, _, _ => none
  | fuel + 1, state, other, b, done =>
    let done := (t.cell state).symbol :: done
    match t.next? state b with
    | some (state, b) => readWeights? t fuel other state b done
    | none => some ((t.cell other).symbol :: done).reverse

/-- The most weights that may be described. -/
def maxWeights : Nat := 255

/-- The weights of a description, and how many bytes it takes. -/
def weightsOf? (bytes : List UInt8) : Option (List Nat × Nat) :=
  match bytes with
  | [] => none
  | head :: rest =>
    let head := head.toNat
    if 128 ≤ head then
      let count := head - 127
      let size := (count + 1) / 2
      if rest.length < size then none
      else
        let weights := (rest.take size).flatMap fun b => [b.toNat / 16, b.toNat % 16]
        some (weights.take count, size + 1)
    else if rest.length < head then none
    else do
      let content := (rest.take head).toArray
      let (t, size) ← readTable? 256 6 content
      let b ← BackwardBits.ofBytes? (content.extract size content.size)
      let (state, b) ← t.first? b
      let (other, b) ← t.first? b
      let weights ← readWeights? t (maxWeights - 1) state other b []
      some (weights, head + 1)

/-- Decodes one stream. -/
def decodeStream? (code : PrefixCode) (count : Nat) (bytes : List UInt8) : Option (List UInt8) :=
  (BackwardBits.ofBytes? bytes.toArray).bind fun b => code.decode? count b []

/-- Decodes four streams, of which the sizes of the first three come first. All but the last give
equally many bytes. -/
def decodeFourStreams? (code : PrefixCode) (count : Nat) (bytes : List UInt8) :
    Option (List UInt8) := do
  let size (i : Nat) := natOfBytesLE ((bytes.drop (2 * i)).take 2)
  let content := bytes.drop 6
  let part := (count + 3) / 4
  if bytes.length < 10 ∨ count < 3 * part ∨ content.length < size 0 + size 1 + size 2 then none
  let first ← decodeStream? code part (content.take (size 0))
  let content := content.drop (size 0)
  let second ← decodeStream? code part (content.take (size 1))
  let content := content.drop (size 1)
  let third ← decodeStream? code part (content.take (size 2))
  let fourth ← decodeStream? code (count - 3 * part) (content.drop (size 2))
  return first ++ (second ++ (third ++ fourth))

/-- The literals of a block, the prefix code that the next block may use, and the rest of the
block. -/
structure Literals where
  bytes : List UInt8
  code? : Option PrefixCode
  rest : List UInt8

/-- The size of plain or repeated literals, and how many bytes tell it. -/
def plainSize (block : List UInt8) : Nat × Nat :=
  match (block.headD 0).toNat / 4 % 4 with
  | 1 => (natOfBytesLE (block.take 2) / 16, 2)
  | 3 => (natOfBytesLE (block.take 3) / 16, 3)
  | _ => ((block.headD 0).toNat / 8, 1)

/-- The sizes of coded literals, decoded and coded, how many bytes tell them, and whether there is
only one stream. -/
def codedSizes (block : List UInt8) : Nat × Nat × Nat × Bool :=
  let fields (width : Nat) (count : Nat) : Nat × Nat :=
    let n := natOfBytesLE (block.take count) / 16
    (n % Nat.pow 2 width, n / Nat.pow 2 width % Nat.pow 2 width)
  match (block.headD 0).toNat / 4 % 4 with
  | 0 => let (size, coded) := fields 10 3; (size, coded, 3, true)
  | 1 => let (size, coded) := fields 10 3; (size, coded, 3, false)
  | 2 => let (size, coded) := fields 14 4; (size, coded, 4, false)
  | _ => let (size, coded) := fields 18 5; (size, coded, 5, false)

/-- The least size of literals in four streams. -/
def fourStreamsLeast : Nat := 6

/-- Coded literals, with the prefix code that is used if none comes with them. -/
def readCoded? (limit : Nat) (code? : Option PrefixCode) (block : List UInt8) : Option Literals := do
  let (size, coded, header, isSingle) := codedSizes block
  if block.length < 5 ∨ limit < size ∨ block.length < header + coded then none
  if !isSingle && size < fourStreamsLeast then none
  let content := (block.drop header).take coded
  let (code, content) ←
    match code? with
    | some code => some (code, content)
    | none => do
      let (weights, used) ← weightsOf? content
      let code ← PrefixCode.ofWeights? weights
      some (code, content.drop used)
  let bytes ← if isSingle then decodeStream? code size content else decodeFourStreams? code size content
  return ⟨bytes, some code, block.drop (header + coded)⟩

/-- Reads the literals of a block, of which there may not be more than `limit`. -/
def readLiterals? (limit : Nat) (code? : Option PrefixCode) (block : List UInt8) :
    Option Literals :=
  if block.length < 2 then none
  else
    let (size, header) := plainSize block
    match (block.headD 0).toNat % 4 with
    | 0 =>
      if limit < size ∨ block.length < header + size then none
      else some ⟨(block.drop header).take size, code?, block.drop (header + size)⟩
    | 1 =>
      match block.drop header with
      | [] => none
      | b :: rest => if limit < size then none else some ⟨List.replicate size b, code?, rest⟩
    | 2 => readCoded? limit none block
    | _ =>
      match code? with
      | none => none
      | some code => readCoded? limit (some code) block

end ImageTransfer.Compression.Zstd
