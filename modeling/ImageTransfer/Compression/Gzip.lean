import ImageTransfer.Checksum.Crc
import ImageTransfer.Compression.Deflate
import ImageTransfer.Compression.Member
import ImageTransfer.Digest.Word

/-!
# Gzip members

A member is a header of ten bytes with optional fields, a deflate stream, and the check and the
length of what the stream decodes to. The header may end in a check of its own.
-/

namespace ImageTransfer.Compression.Gzip

/-- The flags of a header that tell which fields follow. -/
structure Flags where
  hasCheck : Bool
  hasExtra : Bool
  hasName : Bool
  hasComment : Bool

/-- The flags that a byte sets; the three that mean nothing must not be set. -/
def Flags.ofByte? (b : UInt8) : Option Flags :=
  if b &&& 0xE0 ≠ 0 then none
  else some ⟨b &&& 2 ≠ 0, b &&& 4 ≠ 0, b &&& 8 ≠ 0, b &&& 16 ≠ 0⟩

/-- Where in a member the reader stands. -/
inductive Stage
  /-- In the first ten bytes. -/
  | fixed
  /-- In the length of the extra field, with its first byte if that is there. -/
  | extraLength (low : Option UInt8)
  | extra (left : Nat)
  | name
  | comment
  /-- In the check of the header, with its first byte if that is there. -/
  | headerCheck (low : Option UInt8)
  /-- In the stream, of which `given` decoded bytes have been given out. -/
  | body (s : Deflate.State) (given : Nat)
  /-- After the stream, of which everything decoded is kept for the check. -/
  | trailer (decoded : Array UInt8) (done : List UInt8)

/-- A member that is being read. -/
structure State where
  /-- The bytes of the header, which its check is about. -/
  header : Array UInt8
  flags : Flags
  stage : Stage

/-- Before the first byte. -/
def start : State := ⟨#[], ⟨false, false, false, false⟩, .fixed⟩

/-- The stage after the comment. -/
def Flags.afterComment (flags : Flags) : Stage :=
  if flags.hasCheck then .headerCheck none else .body Deflate.start 0

/-- The stage after the name. -/
def Flags.afterName (flags : Flags) : Stage :=
  if flags.hasComment then .comment else flags.afterComment

/-- The stage after the extra field. -/
def Flags.afterExtra (flags : Flags) : Stage :=
  if flags.hasName then .name else flags.afterName

/-- The stage after the first ten bytes. -/
def Flags.afterFixed (flags : Flags) : Stage :=
  if flags.hasExtra then .extraLength none else flags.afterExtra

/-- A further byte of the header. -/
def State.pushHeader (s : State) (b : UInt8) (stage : Stage) : State :=
  { s with header := s.header.push b, stage := stage }

/-- A byte among the first ten. The first two and the next two are checked together. -/
def State.pushFixed (s : State) (b : UInt8) : Progress State :=
  let t := s.pushHeader b .fixed
  match t.header.size with
  | 2 => if t.header.toList == [0x1F, 0x8B] then .more t [] else .corrupt
  | 4 =>
    match Flags.ofByte? b with
    | some flags => if t.header.getD 2 0 = 8 then .more { t with flags := flags } [] else .corrupt
    | none => .corrupt
  | 10 => .more { t with stage := t.flags.afterFixed } []
  | _ => .more t []

/-- One more byte of the header. -/
def State.pushField (s : State) (b : UInt8) : Progress State :=
  match s.stage with
  | .fixed => s.pushFixed b
  | .extraLength none => .more (s.pushHeader b (.extraLength (some b))) []
  | .extraLength (some low) =>
    match low.toNat + 256 * b.toNat with
    | 0 => .more (s.pushHeader b (s.flags.afterExtra)) []
    | length => .more (s.pushHeader b (.extra length)) []
  | .extra left =>
    .more (s.pushHeader b (if left ≤ 1 then s.flags.afterExtra else .extra (left - 1))) []
  | .name => .more (s.pushHeader b (if b = 0 then s.flags.afterName else .name)) []
  | .comment =>
    .more (s.pushHeader b (if b = 0 then s.flags.afterComment else .comment)) []
  | .headerCheck none => .more { s with stage := .headerCheck (some b) } []
  | .headerCheck (some low) =>
    if (Crc.crc32 s.header.toList).toNat % 0x10000 = low.toNat + 256 * b.toNat then
      .more { s with stage := .body Deflate.start 0 } []
    else .corrupt
  | .body _ _ | .trailer _ _ => .corrupt

/-- One more byte of the deflate stream. -/
def pushBody (header : Array UInt8) (flags : Flags) (body : Deflate.State) (given : Nat)
    (b : UInt8) : Progress State :=
  match body.push? b with
  | none => .corrupt
  | some body =>
    let size := body.history.size
    let output := (body.history.extract given size).toList
    if body.isFinished then .more ⟨header, flags, .trailer body.history []⟩ output
    else .more ⟨header, flags, .body body size⟩ output

/-- One more byte of the check and the length. -/
def pushTrailer (header : Array UInt8) (flags : Flags) (decoded : Array UInt8) (done : List UInt8)
    (b : UInt8) : Progress State :=
  let done := done ++ [b]
  match done.length with
  | 4 =>
    if natOfBytesLE done = (Crc.crc32 decoded.toList).toNat then
      .more ⟨header, flags, .trailer decoded done⟩ []
    else .corrupt
  | 8 => if natOfBytesLE (done.drop 4) = decoded.size % Nat.pow 2 32 then .complete [] else .corrupt
  | _ => .more ⟨header, flags, .trailer decoded done⟩ []

/-- One more byte. -/
def State.push (s : State) (b : UInt8) : Progress State :=
  match s with
  | ⟨header, flags, .body body given⟩ => pushBody header flags body given b
  | ⟨header, flags, .trailer decoded done⟩ => pushTrailer header flags decoded done b
  | s => s.pushField b

/-- The decoder of gzip members. -/
def decoder : MemberDecoder := ⟨State, start, State.push⟩

end ImageTransfer.Compression.Gzip
