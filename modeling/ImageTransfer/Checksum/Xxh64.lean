import ImageTransfer.Digest.Word

/-!
# XXH64

The hash that zstd frames end in. Stripes of 32 bytes go through four accumulators; what is left
over is mixed in by words of eight and four bytes and by single bytes.
-/

namespace ImageTransfer.Xxh64

/-- The five odd constants of the hash. -/
def prime1 : UInt64 := 0x9E3779B185EBCA87
@[inherit_doc prime1] def prime2 : UInt64 := 0xC2B2AE3D27D4EB4F
@[inherit_doc prime1] def prime3 : UInt64 := 0x165667B19E3779F9
@[inherit_doc prime1] def prime4 : UInt64 := 0x85EBCA77C2B2AE63
@[inherit_doc prime1] def prime5 : UInt64 := 0x27D4EB2F165667C5

/-- Mixes a word into an accumulator. -/
def round (acc word : UInt64) : UInt64 := rotateLeft64 (acc + word * prime2) 31 * prime1

/-- Mixes an accumulator into the hash. -/
def merge (hash acc : UInt64) : UInt64 := (hash ^^^ round 0 acc) * prime1 + prime4

/-- The four accumulators. -/
structure Lanes where
  (a b c d : UInt64)

/-- One stripe of four words. -/
def Lanes.stripe (s : Lanes) (words : List UInt64) : Lanes :=
  match words with
  | [w, x, y, z] => ⟨round s.a w, round s.b x, round s.c y, round s.d z⟩
  | _ => s

/-- The hash of the accumulators. -/
def Lanes.converge (s : Lanes) : UInt64 :=
  let h := rotateLeft64 s.a 1 + rotateLeft64 s.b 7 + rotateLeft64 s.c 12 + rotateLeft64 s.d 18
  merge (merge (merge (merge h s.a) s.b) s.c) s.d

/-- Mixes in fewer than four bytes. -/
def mixBytes (h : UInt64) (bytes : List UInt8) : UInt64 :=
  bytes.foldl (fun h b => rotateLeft64 (h ^^^ (b.toUInt64 * prime5)) 11 * prime1) h

/-- Mixes in fewer than eight bytes. -/
def mixHalf (h : UInt64) (bytes : List UInt8) : UInt64 :=
  if bytes.length < 4 then mixBytes h bytes
  else
    let word := UInt64.ofNat (natOfBytesLE (bytes.take 4))
    mixBytes (rotateLeft64 (h ^^^ (word * prime1)) 23 * prime2 + prime3) (bytes.drop 4)

/-- Mixes in what is left over after the stripes. -/
def mixRest (h : UInt64) (bytes : List UInt8) : UInt64 :=
  let h := (words64LE bytes).foldl (fun h w =>
    rotateLeft64 (h ^^^ round 0 w) 27 * prime1 + prime4) h
  mixHalf h (bytes.drop (bytes.length / 8 * 8))

/-- The last mixing of the bits. -/
def avalanche (h : UInt64) : UInt64 :=
  let h := (h ^^^ (h >>> 33)) * prime2
  let h := (h ^^^ (h >>> 29)) * prime3
  h ^^^ (h >>> 32)

/-- The hash of bytes, with the seed zero. -/
def hash (bytes : List UInt8) : UInt64 :=
  let size := bytes.length
  let whole := size / 32 * 32
  let h :=
    if size < 32 then prime5
    else ((groupsOf 32 bytes).foldl (fun (s : Lanes) stripe => s.stripe (words64LE stripe))
      ⟨prime1 + prime2, prime2, 0, 0 - prime1⟩).converge
  avalanche (mixRest (h + UInt64.ofNat size) (bytes.drop whole))

end ImageTransfer.Xxh64
