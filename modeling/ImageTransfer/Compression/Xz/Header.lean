import ImageTransfer.Checksum.Crc
import ImageTransfer.Compression.Branch

/-!
# Headers of xz streams

An xz stream says in its first twelve bytes which check its blocks end in. A block begins with a
header that may tell the sizes of the block and tells the filters that its data has gone through, of
which the last is LZMA2. Sizes are written in groups of seven bits, the lowest first.
-/

namespace ImageTransfer.Compression.Xz

/-- The checks that blocks may end in; of one that is not known, only the size is. -/
inductive CheckKind
  | absent
  | crc32
  | crc64
  | sha256
  | unknown (number : Nat)
deriving DecidableEq, Repr

/-- The check with a number below sixteen. -/
def CheckKind.ofNat (n : Nat) : CheckKind :=
  match n with
  | 0 => .absent
  | 1 => .crc32
  | 4 => .crc64
  | 10 => .sha256
  | n => .unknown n

/-- How many bytes a check takes. -/
def CheckKind.size : CheckKind → Nat
  | .absent => 0
  | .crc32 => 4
  | .crc64 => 8
  | .sha256 => 32
  | .unknown n => [0, 4, 4, 4, 8, 8, 8, 16, 16, 16, 32, 32, 32, 64, 64, 64].getD n 0

/-- A size that is being read, or has been read. -/
structure SizeField where
  value : Nat
  /-- How many groups have been read. -/
  groups : Nat

/-- What a byte of a size makes of it. -/
inductive SizeStep
  | more (f : SizeField)
  | complete (value : Nat)
  | corrupt

/-- One more byte of a size. It has at most nine, and the last of several is not zero. -/
def SizeField.push (f : SizeField) (b : UInt8) : SizeStep :=
  let value := f.value + b.toNat % 128 * Nat.pow 2 (7 * f.groups)
  if b < 128 then if b = 0 ∧ 0 < f.groups then .corrupt else .complete value
  else if f.groups = 8 then .corrupt
  else .more ⟨value, f.groups + 1⟩

/-- Reads a size, and gives what follows it. -/
def readSize? (f : SizeField) : List UInt8 → Option (Nat × List UInt8)
  | [] => none
  | b :: rest =>
    match f.push b with
    | .more f => readSize? f rest
    | .complete value => some (value, rest)
    | .corrupt => none

/-- How many bytes a size is written in. -/
def sizeLength (value : Nat) : Nat := (value.log2 + 7) / 7

/-- The filters before LZMA2. -/
inductive Filter
  /-- Each byte is given by its difference from the one so many bytes before. -/
  | delta (distance : Nat)
  | branch (p : Branch.Processor) (address : UInt32)
deriving DecidableEq, Repr

/-- The header of a block. -/
structure BlockHeader where
  /-- How many bytes the header takes. -/
  size : Nat
  codedSize? : Option Nat
  decodedSize? : Option Nat
  /-- In the order in which the data went through them. -/
  filters : List Filter
  dictionarySize : Nat

/-- The processor that a filter is numbered by. -/
def processorOf? (n : Nat) : Option Branch.Processor :=
  match n with
  | 4 => some .x86
  | 5 => some .powerPC
  | 6 => some .itanium
  | 7 => some .arm
  | 8 => some .armThumb
  | 9 => some .sparc
  | _ => none

/-- The filter with a number and properties. -/
def Filter.ofProperties? (n : Nat) (properties : List UInt8) : Option Filter :=
  match n, properties with
  | 3, [b] => some (.delta (b.toNat + 1))
  | n, properties => do
    let p ← processorOf? n
    match properties with
    | [] => some (.branch p 0)
    | [_, _, _, _] =>
      let address := natOfBytesLE properties
      if address % p.alignment = 0 then some (.branch p (UInt32.ofNat address)) else none
    | _ => none

/-- The size of the dictionary that the properties of LZMA2 tell. -/
def dictionarySize? (properties : List UInt8) : Option Nat :=
  match properties with
  | [b] =>
    let n := b.toNat
    if 40 < n then none
    else if n = 40 then some (Nat.pow 2 32 - 1)
    else some ((2 + n % 2) * Nat.pow 2 (n / 2 + 11))
  | _ => none

/-- Reads so many filters before LZMA2, and LZMA2, and gives what follows them. -/
def readFilters? : Nat → List UInt8 → Option (List Filter × Nat × List UInt8)
  | count, bytes => do
    let (n, bytes) ← readSize? ⟨0, 0⟩ bytes
    let (size, bytes) ← readSize? ⟨0, 0⟩ bytes
    if bytes.length < size then none
    else match count with
      | 0 =>
        if n ≠ 0x21 then none
        else (dictionarySize? (bytes.take size)).map fun d => ([], d, bytes.drop size)
      | count + 1 =>
        let filter ← Filter.ofProperties? n (bytes.take size)
        let (filters, d, rest) ← readFilters? count (bytes.drop size)
        some (filter :: filters, d, rest)

/-- A size that is there only if a flag is set. -/
def readOptional? (isThere : Bool) (bytes : List UInt8) : Option (Option Nat × List UInt8) :=
  if isThere then (readSize? ⟨0, 0⟩ bytes).map fun (n, rest) => (some n, rest)
  else some (none, bytes)

/-- The header of a block from all its bytes. -/
def BlockHeader.ofBytes? (bytes : List UInt8) : Option BlockHeader := do
  let size := bytes.length
  let content := bytes.take (size - 4)
  if (Crc.crc32 content).toNat ≠ natOfBytesLE (bytes.drop (size - 4)) then none
  let flags := content.getD 1 0
  if flags &&& 0x3C ≠ 0 then none
  let (codedSize?, rest) ← readOptional? (flags &&& 0x40 ≠ 0) (content.drop 2)
  if codedSize? = some 0 then none
  let (decodedSize?, rest) ← readOptional? (flags &&& 0x80 ≠ 0) rest
  let (filters, dictionarySize, rest) ← readFilters? (flags &&& 3).toNat rest
  if rest.any (· ≠ 0) then none
  return ⟨size, codedSize?, decodedSize?, filters, dictionarySize⟩

/-- The check that two bytes of flags tell. -/
def checkOfFlags? (flags : List UInt8) : Option CheckKind :=
  match flags with
  | [zero, n] => if zero = 0 ∧ n < 16 then some (.ofNat n.toNat) else none
  | _ => none

/-- The twelve bytes that a stream begins with: what it is known by, flags and their check. -/
def checkOfStreamHeader? (bytes : List UInt8) : Option CheckKind :=
  let flags := (bytes.drop 6).take 2
  if bytes.take 6 = [0xFD, 0x37, 0x7A, 0x58, 0x5A, 0x00] ∧
      (Crc.crc32 flags).toNat = natOfBytesLE (bytes.drop 8) then checkOfFlags? flags
  else none

/-- Whether twelve bytes end a stream: the check of the size of the index and of the flags, these,
and two letters. -/
def isStreamFooter (check : CheckKind) (indexSize : Nat) (bytes : List UInt8) : Bool :=
  let content := (bytes.drop 4).take 6
  bytes.drop 10 == [0x59, 0x5A] &&
    (Crc.crc32 content).toNat == natOfBytesLE (bytes.take 4) &&
    checkOfFlags? (content.drop 4) == some check &&
    4 * (natOfBytesLE (content.take 4) + 1) == indexSize

/-- Adds to each byte the one that lies `distance` bytes before it in the result. -/
def addBefore (distance : Nat) (done : Array UInt8) : List UInt8 → Array UInt8
  | [] => done
  | b :: rest =>
    let before := if done.size < distance then 0 else done.getD (done.size - distance) 0
    addBefore distance (done.push (b + before)) rest

/-- Data as it was before a filter. -/
def Filter.undo (f : Filter) (data : List UInt8) : List UInt8 :=
  match f with
  | .delta distance => (addBefore distance #[] data).toList
  | .branch p address => Branch.decode p address data

/-- Data as it was before filters that it has gone through in order. -/
def undoFilters (filters : List Filter) (data : List UInt8) : List UInt8 :=
  filters.foldr Filter.undo data

end ImageTransfer.Compression.Xz
