import ImageTransfer.Digest.Sha2

/-!
# SHA-1

Five working words of 32 bits, most significant byte first, in blocks of 64 bytes.
-/

namespace ImageTransfer.Digest

namespace Sha1

/-- The words of a block, continued to one word for each round. -/
def schedule (block : List UInt8) : Array UInt32 :=
  (List.range 64).foldl (fun w i =>
    w.push (rotateLeft32
      (w.getD (i + 13) 0 ^^^ w.getD (i + 8) 0 ^^^ w.getD (i + 2) 0 ^^^ w.getD i 0) 1))
    (words32BE block).toArray

/-- The five working words. -/
structure Chain where
  (a b c d e : UInt32)

/-- One round over the schedule. -/
def Chain.round (w : Array UInt32) (s : Chain) (i : Nat) : Chain :=
  let (mix, constant) : UInt32 × UInt32 :=
    match i / 20 with
    | 0 => ((s.b &&& s.c) ||| (~~~s.b &&& s.d), 0x5a827999)
    | 1 => (s.b ^^^ s.c ^^^ s.d, 0x6ed9eba1)
    | 2 => ((s.b &&& s.c) ||| (s.b &&& s.d) ||| (s.c &&& s.d), 0x8f1bbcdc)
    | _ => (s.b ^^^ s.c ^^^ s.d, 0xca62c1d6)
  ⟨rotateLeft32 s.a 5 + mix + s.e + constant + w.getD i 0, s.a, rotateLeft32 s.b 30, s.c, s.d⟩

/-- Absorbs one block. -/
def absorb (s : Chain) (block : List UInt8) : Chain :=
  let t := (List.range 80).foldl (Chain.round (schedule block)) s
  ⟨s.a + t.a, s.b + t.b, s.c + t.c, s.d + t.d, s.e + t.e⟩

end Sha1

/-- SHA-1. -/
def sha1 : BlockHash where
  State := Sha1.Chain
  blockSize := 64
  blockSize_pos := sixtyFour_pos
  start := ⟨0x67452301, 0xefcdab89, 0x98badcfe, 0x10325476, 0xc3d2e1f0⟩
  absorb := Sha1.absorb
  padding := paddingBE 64 8
  output s := [s.a, s.b, s.c, s.d, s.e].flatMap fun x => bytesBE 4 x.toNat

end ImageTransfer.Digest
