import ImageTransfer.Compression.Lzma
import ImageTransfer.Compression.Member
import ImageTransfer.Digest.Word

/-!
# Files of a single LZMA stream

The older container of an LZMA stream has a header of thirteen bytes: properties, the size of the
dictionary, and the size of what is decoded. If that is not known, a mark ends the stream; if it is
known, a mark may.
-/

namespace ImageTransfer.Compression.LzmaFile

/-- Whether the size of a dictionary is one that programs choose: a power of two, one and a half
times a power of two, nothing, or as much as can be told. -/
def isUsualSize (size : Nat) : Bool :=
  size == 0 || size == Nat.pow 2 32 - 1 ||
    (List.range 32).any fun k => size == Nat.pow 2 k || size == 3 * Nat.pow 2 k

/-- The least size of decoded data that is taken for an accident. -/
def sizeLimit : Nat := Nat.pow 2 38

/-- The size that means that none is known. -/
def unknownSize : Nat := Nat.pow 2 64 - 1

/-- Where the reader stands. -/
inductive State
  | header (done : List UInt8)
  | stream (s : Lzma.State)

/-- The stream that a whole header announces. -/
def State.ofHeader? (header : List UInt8) : Option State :=
  match header with
  | [] => none
  | b :: sizes =>
    let dictionary := natOfBytesLE (sizes.take 4)
    let size := natOfBytesLE (sizes.drop 4)
    if size ≠ unknownSize ∧ sizeLimit ≤ size then none
    else (Lzma.Properties.ofByte? b).map fun p =>
      .stream { Lzma.start p dictionary with
        left := if size = unknownSize then none else some size
        allowsMark := true }

/-- What the decoder has added to the history, which had some size before. -/
def addedSince (size : Nat) (s : Lzma.State) : List UInt8 :=
  (s.history.extract size s.history.size).toList

/-- One more byte. -/
def State.push (s : State) (b : UInt8) : Progress State :=
  match s with
  | .header done =>
    let done := done ++ [b]
    match done.length with
    | 1 => if (Lzma.Properties.ofByte? b).isSome then .more (.header done) [] else .corrupt
    | 5 => if isUsualSize (natOfBytesLE (done.drop 1)) then .more (.header done) [] else .corrupt
    | 13 =>
      match State.ofHeader? done with
      | some s => .more s []
      | none => .corrupt
    | _ => .more (.header done) []
  | .stream lzma =>
    let size := lzma.history.size
    match lzma.push b with
    | .hungry lzma => .more (.stream lzma) (addedSince size lzma)
    | .finished lzma => .complete (addedSince size lzma)
    | .corrupt => .corrupt

end ImageTransfer.Compression.LzmaFile
