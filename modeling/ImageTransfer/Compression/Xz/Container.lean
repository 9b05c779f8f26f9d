import ImageTransfer.Compression.Lzma2
import ImageTransfer.Compression.Xz.Header
import ImageTransfer.Compression.Member
import ImageTransfer.Digest.Sha2

/-!
# Xz streams

An xz stream is a header, blocks, an index of the sizes of the blocks, and a footer. A block is a
header, LZMA2 data, padding to a multiple of four bytes, and a check of what the data decodes to.
The index has to agree with the blocks, and the footer with the header and the index.
-/

namespace ImageTransfer.Compression.Xz

/-- The sizes of a block: without its padding, and decoded. -/
structure BlockSizes where
  unpadded : Nat
  decoded : Nat
deriving DecidableEq

/-- An index that is being read. -/
structure Index where
  /-- The bytes so far, which the check of the index is about. -/
  bytes : Array UInt8
  /-- The sizes of blocks, the last one first. -/
  records : List BlockSizes

/-- Where the reader stands. -/
inductive Stage
  | header (done : List UInt8)
  /-- Before a block or the index. -/
  | boundary
  | blockHeader (need : Nat) (done : List UInt8)
  /-- In the data of a block, of which so many bytes have been read. -/
  | data (block : BlockHeader) (read : Nat) (s : Lzma2.State)
  /-- In the padding or the check of a block. -/
  | padding (need : Nat) (decoded : List UInt8)
  | check (done decoded : List UInt8)
  | indexCount (index : Index) (f : SizeField)
  | indexUnpadded (index : Index) (left : Nat) (f : SizeField)
  | indexDecoded (index : Index) (left unpadded : Nat) (f : SizeField)
  | indexPadding (index : Index) (need : Nat)
  | indexCheck (index : Index) (done : List UInt8)
  | footer (indexSize : Nat) (done : List UInt8)

/-- A stream that is being read. -/
structure State where
  check : CheckKind
  /-- The sizes of the blocks so far, the last one first. -/
  blocks : List BlockSizes
  stage : Stage

/-- Before the first byte. -/
def start : State := ⟨.absent, [], .header []⟩

/-- A copy of the state at a stage. -/
def State.atStage (s : State) (stage : Stage) : State := { s with stage := stage }

/-- How many bytes are missing to a multiple of four. -/
def missingToFour (n : Nat) : Nat := (4 - n % 4) % 4

/-- The check of what a block decodes to, if it can be computed. -/
def CheckKind.compute? (check : CheckKind) (decoded : List UInt8) : Option (List UInt8) :=
  match check with
  | .crc32 => some (bytesLE 4 (Crc.crc32 decoded).toNat)
  | .crc64 => some (bytesLE 8 (Crc.crc64 decoded).toNat)
  | .sha256 => some (Digest.sha256.hash decoded)
  | _ => none

/-- The end of a block. -/
def State.endBlock (s : State) (decoded : List UInt8) : Progress State :=
  .more (s.atStage .boundary) decoded

/-- What follows the padding of a block. -/
def State.atCheck (s : State) (decoded : List UInt8) : Progress State :=
  if s.check.size = 0 then s.endBlock decoded else .more (s.atStage (.check [] decoded)) []

/-- The end of the data of a block, which has to have the sizes that its header tells. -/
def State.endData (s : State) (block : BlockHeader) (read : Nat) (decoded : List UInt8) :
    Progress State :=
  let size := decoded.length
  if block.codedSize?.any (· ≠ read) || block.decodedSize?.any (· ≠ size) then .corrupt
  else
    let s := { s with blocks := ⟨block.size + read + s.check.size, size⟩ :: s.blocks }
    let decoded := undoFilters block.filters decoded
    match missingToFour read with
    | 0 => s.atCheck decoded
    | need => .more (s.atStage (.padding need decoded)) []

/-- The sum of some size over blocks. -/
def total (size : BlockSizes → Nat) (blocks : List BlockSizes) : Nat :=
  blocks.foldl (fun n b => n + size b) 0

/-- How many bytes a block takes with its padding. -/
def BlockSizes.padded (b : BlockSizes) : Nat := b.unpadded + missingToFour b.unpadded

/-- How many bytes the record of a block takes in the index. -/
def BlockSizes.recordLength (b : BlockSizes) : Nat := sizeLength b.unpadded + sizeLength b.decoded

/-- Whether records do not say more than the blocks have. -/
def fits (records blocks : List BlockSizes) : Bool :=
  [BlockSizes.padded, BlockSizes.decoded, BlockSizes.recordLength].all fun size =>
    total size records ≤ total size blocks

/-- An index with one more byte. -/
def Index.push (index : Index) (b : UInt8) : Index := { index with bytes := index.bytes.push b }

/-- What follows the padding of the index: its check, if it lists the sizes of all blocks. -/
def State.endRecords (s : State) (index : Index) : Progress State :=
  if index.records = s.blocks then .more (s.atStage (.indexCheck index [])) [] else .corrupt

/-- What follows a record of the index. -/
def State.atRecord (s : State) (index : Index) (left : Nat) : Progress State :=
  if left = 0 then
    match missingToFour index.bytes.size with
    | 0 => s.endRecords index
    | need => .more (s.atStage (.indexPadding index need)) []
  else .more (s.atStage (.indexUnpadded index left ⟨0, 0⟩)) []

/-- A byte of a size, with what follows the size. -/
def State.pushSize (s : State) (f : SizeField) (b : UInt8) (stage : SizeField → Stage)
    (next : Nat → Progress State) : Progress State :=
  match f.push b with
  | .more f => .more (s.atStage (stage f)) []
  | .complete value => next value
  | .corrupt => .corrupt

/-- A byte in the data of a block. The data has to end where the header says. -/
def State.pushData (s : State) (block : BlockHeader) (read : Nat) (data : Lzma2.State) (b : UInt8) :
    Progress State :=
  match data.push? b with
  | none => .corrupt
  | some data =>
    let read := read + 1
    if data.isFinished then s.endData block read data.history.toList
    else if block.codedSize? = some read then .corrupt
    else .more (s.atStage (.data block read data)) []

/-- One more byte. -/
def State.push (s : State) (b : UInt8) : Progress State :=
  let ⟨check, blocks, stage⟩ := s
  -- the stage is taken out, so that what it holds can be changed in place
  let s : State := ⟨check, blocks, .boundary⟩
  match stage with
  | .header done =>
    let done := done ++ [b]
    if done.length < 12 then .more (s.atStage (.header done)) []
    else match checkOfStreamHeader? done with
      | some check => .more ⟨check, blocks, .boundary⟩ []
      | none => .corrupt
  | .boundary =>
    if b = 0 then .more (s.atStage (.indexCount ⟨#[0], []⟩ ⟨0, 0⟩)) []
    else .more (s.atStage (.blockHeader (4 * b.toNat + 3) [b])) []
  | .blockHeader need done =>
    if 1 < need then .more (s.atStage (.blockHeader (need - 1) (b :: done))) []
    else match BlockHeader.ofBytes? (b :: done).reverse with
      | some block =>
        .more (s.atStage (.data block 0 (Lzma2.start block.dictionarySize block.decodedSize?))) []
      | none => .corrupt
  | .data block read data => s.pushData block read data b
  | .padding need decoded =>
    if b ≠ 0 then .corrupt
    else if need ≤ 1 then s.atCheck decoded
    else .more (s.atStage (.padding (need - 1) decoded)) []
  | .check done decoded =>
    let done := done ++ [b]
    if done.length < check.size then .more (s.atStage (.check done decoded)) []
    else if (check.compute? decoded).any (· ≠ done) then .corrupt
    else s.endBlock decoded
  | .indexCount index f =>
    let index := index.push b
    s.pushSize f b (.indexCount index) fun count =>
      if count = blocks.length then s.atRecord index count else .corrupt
  | .indexUnpadded index left f =>
    let index := index.push b
    s.pushSize f b (.indexUnpadded index left) fun unpadded =>
      if unpadded < 5 ∨ Nat.pow 2 63 - 4 < unpadded then .corrupt
      else .more (s.atStage (.indexDecoded index left unpadded ⟨0, 0⟩)) []
  | .indexDecoded index left unpadded f =>
    let index := index.push b
    s.pushSize f b (.indexDecoded index left unpadded) fun decoded =>
      let index := { index with records := ⟨unpadded, decoded⟩ :: index.records }
      if fits index.records blocks then s.atRecord index (left - 1) else .corrupt
  | .indexPadding index need =>
    let index := index.push b
    if b ≠ 0 then .corrupt
    else if need ≤ 1 then s.endRecords index
    else .more (s.atStage (.indexPadding index (need - 1))) []
  | .indexCheck index done =>
    let expected := bytesLE 4 (Crc.crc32 index.bytes.toList).toNat
    if expected.getD done.length 0 ≠ b then .corrupt
    else if done.length < 3 then .more (s.atStage (.indexCheck index (done ++ [b]))) []
    else .more (s.atStage (.footer (index.bytes.size + 4) [])) []
  | .footer indexSize done =>
    let done := done ++ [b]
    if done.length < 12 then .more (s.atStage (.footer indexSize done)) []
    else if isStreamFooter check indexSize done then .complete []
    else .corrupt

end ImageTransfer.Compression.Xz
