import ImageTransfer.Checksum.Xxh64
import ImageTransfer.Compression.Member
import ImageTransfer.Compression.Zstd.Sequences

/-!
# Zstd frames

A frame is a header, blocks, and a check if the header says so. A block is stored as it is, is one
byte repeated, or is compressed; it is decoded when its last byte has been read. There also are
frames that only have to be skipped.
-/

namespace ImageTransfer.Compression.Zstd

/-- What the header of a frame tells. -/
structure FrameHeader where
  /-- How far back copies reach. -/
  window : Nat
  /-- How much the frame decodes to, if that is told. -/
  contentSize? : Option Nat
  hasCheck : Bool

/-- No block is larger, coded or decoded. -/
def maxBlock : Nat := Nat.pow 2 17

/-- The largest window that is accepted. -/
def maxWindow : Nat := Nat.pow 2 27

/-- How large the blocks of a frame may be. -/
def FrameHeader.blockLimit (h : FrameHeader) : Nat := min h.window maxBlock

/-- The kinds of blocks. -/
inductive BlockKind
  | stored
  | repeated (count : Nat)
  | compressed
deriving DecidableEq

/-- Where the reader stands. -/
inductive Stage
  | magic (done : List UInt8)
  | skipSize (done : List UInt8)
  | skipping (left : Nat)
  /-- In the header, whose first byte tells how long it is. -/
  | descriptor
  | header (descriptor : UInt8) (need : Nat) (done : List UInt8)
  | blockHeader (done : List UInt8)
  /-- In a block, with its bytes, the last one first. -/
  | block (isLast : Bool) (kind : BlockKind) (need : Nat) (done : List UInt8)
  | check (done : List UInt8)

/-- A frame that is being read. -/
structure State where
  frame : FrameHeader
  /-- What has been decoded. -/
  history : Array UInt8
  code? : Option PrefixCode
  tables? : Option SequenceTables
  /-- The last three distances. -/
  last : Distances
  stage : Stage

/-- Before the first byte. -/
def start : State := ⟨⟨0, none, false⟩, #[], none, none, (1, 4, 8), .magic []⟩

/-- What a frame begins with. -/
def frameMagic : List UInt8 := [0x28, 0xB5, 0x2F, 0xFD]

/-- What a frame that is skipped begins with; the last four bits of its first byte are free. -/
def skippedMagic : List UInt8 := [0x50, 0x2A, 0x4D, 0x18]

/-- The first bytes of a frame with the free bits of the first cleared. -/
def withoutFreeBits : List UInt8 → List UInt8
  | b :: rest => (b &&& 0xF0) :: rest
  | [] => []

/-- How many bytes the size of the content takes, by the first byte of the header. -/
def contentSizeLength (descriptor : UInt8) : Nat :=
  match descriptor.toNat / 64 with
  | 0 => if descriptor &&& 0x20 ≠ 0 then 1 else 0
  | n => Nat.pow 2 n

/-- How many bytes the number of the dictionary takes. -/
def dictionaryLength (descriptor : UInt8) : Nat := [0, 1, 2, 4].getD (descriptor.toNat % 4) 0

/-- How many bytes the size of the window takes: none if the window is the content. -/
def windowLength (descriptor : UInt8) : Nat := if descriptor &&& 0x20 ≠ 0 then 0 else 1

/-- The size of the window that a byte tells. -/
def windowSize (b : UInt8) : Nat :=
  let base := Nat.pow 2 (b.toNat / 8 + 10)
  base + base / 8 * (b.toNat % 8)

/-- The header with this first byte and these further ones. A dictionary cannot be used, and too
large a window is refused. -/
def FrameHeader.ofBytes? (descriptor : UInt8) (bytes : List UInt8) : Option FrameHeader :=
  let window := bytes.take (windowLength descriptor)
  let bytes := bytes.drop (windowLength descriptor)
  let dictionary := bytes.take (dictionaryLength descriptor)
  let content := bytes.drop (dictionaryLength descriptor)
  let contentSize? : Option Nat :=
    match content.length with
    | 0 => none
    | 2 => some (natOfBytesLE content + 256)
    | _ => some (natOfBytesLE content)
  let window := match window with
    | [b] => windowSize b
    | _ => contentSize?.getD 0
  if descriptor &&& 8 ≠ 0 ∨ natOfBytesLE dictionary ≠ 0 ∨ maxWindow < window then none
  else some ⟨window, contentSize?, descriptor &&& 4 ≠ 0⟩

/-- Puts the reader at a stage. -/
def State.atStage (s : State) (stage : Stage) : State := { s with stage := stage }

/-- The reader at a stage, which goes on. -/
def State.goTo (s : State) (stage : Stage) : Progress State := .more (s.atStage stage) []

/-- Adds what a compressed block decodes to. -/
def State.decompress? (s : State) (block : List UInt8) : Option State := do
  let ⟨frame, history, code?, tables?, last, stage⟩ := s
  let limit := frame.blockLimit
  let literals ← readLiterals? limit code? block
  let (count, rest) ← readSequenceCount? literals.rest
  if count = 0 then
    if rest.isEmpty then
      some ⟨frame, history.appendList literals.bytes, literals.code?, tables?, last, stage⟩
    else none
  else
    let (tables, rest) ← readTables? tables? rest
    let limit := history.size + limit
    let first ← SequenceState.start? tables last literals.bytes history rest
    let final ← first.run? tables limit count
    if final.bits.left ≠ 0 ∨ limit < final.history.size + final.literals.length then none
    else
      some ⟨frame, final.history.appendList final.literals, literals.code?, some tables, final.last,
        stage⟩

/-- Adds what a block decodes to. -/
def State.addBlock? (s : State) (kind : BlockKind) (block : List UInt8) : Option State :=
  match kind with
  | .compressed => s.decompress? block
  | .stored =>
    let ⟨frame, history, code?, tables?, last, stage⟩ := s
    some ⟨frame, history.appendList block, code?, tables?, last, stage⟩
  | .repeated count =>
    let ⟨frame, history, code?, tables?, last, stage⟩ := s
    if frame.blockLimit < count then none
    else
      some ⟨frame, history.appendList (List.replicate count (block.headD 0)), code?, tables?, last,
        stage⟩

/-- The end of a block, which has added what follows `before` bytes. -/
def State.afterBlock (s : State) (isLast : Bool) (before : Nat) : Progress State :=
  let output := (s.history.extract before s.history.size).toList
  if !isLast then .more (s.atStage (.blockHeader [])) output
  else if s.frame.contentSize?.any (· ≠ s.history.size) then .corrupt
  else if s.frame.hasCheck then .more (s.atStage (.check [])) output
  else .complete output

/-- What follows the header of a block. -/
def State.afterBlockHeader (s : State) (header : Nat) : Progress State :=
  let isLast := header % 2 == 1
  let size := header / 8
  let block (kind : BlockKind) (need : Nat) : Progress State :=
    if s.frame.blockLimit < need ∨ kind = .compressed ∧ need = 0 then .corrupt
    else if need = 0 then s.afterBlock isLast s.history.size
    else s.goTo (.block isLast kind need [])
  match header / 2 % 4 with
  | 0 => block .stored size
  | 1 => block (.repeated size) 1
  | 2 => block .compressed size
  | _ => .corrupt

/-- A further byte of what frames begin with, which must be able to begin one. -/
def State.pushMagic (s : State) (done : List UInt8) : Progress State :=
  let n := done.length
  if frameMagic.take n = done then
    s.goTo (if n < 4 then .magic done else .descriptor)
  else if skippedMagic.take n = withoutFreeBits done then
    s.goTo (if n < 4 then .magic done else .skipSize [])
  else .corrupt

/-- One more byte. -/
def State.push (s : State) (b : UInt8) : Progress State :=
  let ⟨frame, history, code?, tables?, last, stage⟩ := s
  -- the stage is taken out, so that what it holds can be changed in place
  let s : State := ⟨frame, history, code?, tables?, last, .descriptor⟩
  match stage with
  | .magic done => s.pushMagic (done ++ [b])
  | .skipSize done =>
    let done := done ++ [b]
    if done.length < 4 then s.goTo (.skipSize done)
    else match natOfBytesLE done with
      | 0 => .complete []
      | size => s.goTo (.skipping size)
  | .skipping left => if left ≤ 1 then .complete [] else s.goTo (.skipping (left - 1))
  | .descriptor =>
    s.goTo (.header b (windowLength b + dictionaryLength b + contentSizeLength b) [])
  | .header descriptor need done =>
    let done := done ++ [b]
    if 1 < need then s.goTo (.header descriptor (need - 1) done)
    else match FrameHeader.ofBytes? descriptor done with
      | some frame => .more ⟨frame, history, code?, tables?, last, .blockHeader []⟩ []
      | none => .corrupt
  | .blockHeader done =>
    let done := done ++ [b]
    if done.length < 3 then s.goTo (.blockHeader done) else s.afterBlockHeader (natOfBytesLE done)
  | .block isLast kind need done =>
    let done := b :: done
    if 1 < need then s.goTo (.block isLast kind (need - 1) done)
    else
      let before := history.size
      match s.addBlock? kind done.reverse with
      | some s => s.afterBlock isLast before
      | none => .corrupt
  | .check done =>
    let done := done ++ [b]
    if done.length < 4 then s.goTo (.check done)
    else if natOfBytesLE done = (Xxh64.hash history.toList).toNat % Nat.pow 2 32 then .complete []
    else .corrupt

/-- The decoder of zstd frames. -/
def decoder : MemberDecoder := ⟨State, start, State.push⟩

end ImageTransfer.Compression.Zstd
