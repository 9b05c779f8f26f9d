import ImageTransfer.Compression.Format
import ImageTransfer.Compression.Member

/-!
# Streams that may be compressed

A stream tells by its first six bytes, or by all of them if it is shorter, how it is compressed. A
compressed stream is a sequence of members of that format, back to back; it may end only where a
member does. What follows is decoded piece by piece, however the stream is cut.
-/

namespace ImageTransfer.Compression

/-- A decoder of members for each format. -/
abbrev Decoders := Compression → MemberDecoder

/-- Where in a stream the reader stands, with the decoders that it uses. -/
inductive Stream (decoders : Decoders)
  /-- The format is not known yet; these bytes have been seen. -/
  | unknown (header : List UInt8)
  /-- The stream is not compressed. -/
  | plain
  /-- A member is complete, and nothing has followed it. -/
  | between (c : Compression)
  /-- In a member. -/
  | inside (c : Compression) (s : (decoders c).State)

/-- Why a stream cannot be decoded. -/
inductive StreamError
  /-- A member is not what its format asks for. -/
  | corrupt (c : Compression)
  /-- The stream ends inside a member. -/
  | truncated (c : Compression)
deriving DecidableEq, Repr

namespace Stream

variable {decoders : Decoders}

/-- Before the first byte. -/
def start (decoders : Decoders) : Stream decoders := .unknown []

/-- The format of a stream, once it is known. -/
def format? : Stream decoders → Option Compression
  | .unknown _ => none
  | .plain => some .identity
  | .between c => some c
  | .inside c _ => some c

/-- One more byte of a member. -/
def pushInside (c : Compression) (s : (decoders c).State) (b : UInt8) :
    Except StreamError (Stream decoders × List UInt8) :=
  match (decoders c).push s b with
  | .more t output => .ok (.inside c t, output)
  | .complete output => .ok (.between c, output)
  | .corrupt => .error (.corrupt c)

/-- One more byte of a stream whose format is known. -/
def pushKnown (s : Stream decoders) (b : UInt8) :
    Except StreamError (Stream decoders × List UInt8) :=
  match s with
  | .plain => .ok (.plain, [b])
  | .between c => pushInside c (decoders c).start b
  | .inside c t => pushInside c t b
  | .unknown header => .ok (.unknown (header ++ [b]), [])

/-- Further bytes of a stream whose format is known, after `done` has been decoded. -/
def feedKnown (s : Stream decoders) (done : Array UInt8) :
    List UInt8 → Except StreamError (Stream decoders × Array UInt8)
  | [] => .ok (s, done)
  | b :: rest =>
    match s.pushKnown b with
    | .ok (t, output) => feedKnown t (done.appendList output) rest
    | .error e => .error e

/-- The stream that begins with these bytes, taken to be all that its format is told by. -/
def sniff (header : List UInt8) : Stream decoders :=
  match detect header with
  | .identity => .plain
  | c => .inside c (decoders c).start

/-- A further piece of the stream. -/
def feed (s : Stream decoders) (piece : List UInt8) :
    Except StreamError (Stream decoders × Array UInt8) :=
  match s with
  | .unknown header =>
    let seen := header ++ piece
    if seen.length < magicLength then .ok (.unknown seen, #[])
    else feedKnown (sniff (seen.take magicLength)) #[] seen
  | _ => feedKnown s #[] piece

/-- The end of the stream: bytes that were too few to tell the format are decoded now. -/
def finish (s : Stream decoders) : Except StreamError (Stream decoders × Array UInt8) :=
  match s with
  | .unknown header => feedKnown (sniff header) #[] header
  | _ => .ok (s, #[])

/-- The member that a stream has ended in, if it is not complete. -/
def unfinished? : Stream decoders → Option Compression
  | .inside c _ => some c
  | _ => none

/-- The end of the stream, with the check that no member is left incomplete. -/
def close (s : Stream decoders) : Except StreamError (Stream decoders × Array UInt8) :=
  match s.finish with
  | .error e => .error e
  | .ok (t, output) =>
    match t.unfinished? with
    | some c => .error (.truncated c)
    | none => .ok (t, output)

end Stream

end ImageTransfer.Compression
