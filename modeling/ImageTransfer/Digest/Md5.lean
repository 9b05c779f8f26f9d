import ImageTransfer.Digest.BlockHash
import ImageTransfer.Digest.Word

/-!
# MD5

Four working words of 32 bits, least significant byte first, in blocks of 64 bytes. Each of the four
passes over a block takes its words in another order.
-/

namespace ImageTransfer.Digest

namespace Md5

/-- The constants of the rounds: the whole parts of 2^32 times the sines of 1, 2, 3, … -/
def roundConstants : Array UInt32 :=
  #[0xd76aa478, 0xe8c7b756, 0x242070db, 0xc1bdceee, 0xf57c0faf, 0x4787c62a, 0xa8304613,
    0xfd469501, 0x698098d8, 0x8b44f7af, 0xffff5bb1, 0x895cd7be, 0x6b901122, 0xfd987193,
    0xa679438e, 0x49b40821, 0xf61e2562, 0xc040b340, 0x265e5a51, 0xe9b6c7aa, 0xd62f105d,
    0x02441453, 0xd8a1e681, 0xe7d3fbc8, 0x21e1cde6, 0xc33707d6, 0xf4d50d87, 0x455a14ed,
    0xa9e3e905, 0xfcefa3f8, 0x676f02d9, 0x8d2a4c8a, 0xfffa3942, 0x8771f681, 0x6d9d6122,
    0xfde5380c, 0xa4beea44, 0x4bdecfa9, 0xf6bb4b60, 0xbebfbc70, 0x289b7ec6, 0xeaa127fa,
    0xd4ef3085, 0x04881d05, 0xd9d4d039, 0xe6db99e5, 0x1fa27cf8, 0xc4ac5665, 0xf4292244,
    0x432aff97, 0xab9423a7, 0xfc93a039, 0x655b59c3, 0x8f0ccc92, 0xffeff47d, 0x85845dd1,
    0x6fa87e4f, 0xfe2ce6e0, 0xa3014314, 0x4e0811a1, 0xf7537e82, 0xbd3af235, 0x2ad7d2bb,
    0xeb86d391]

/-- How far each of the rounds turns, in groups of four by pass. -/
def turns : Array UInt32 := #[7, 12, 17, 22, 5, 9, 14, 20, 4, 11, 16, 23, 6, 10, 15, 21]

/-- The four working words. -/
structure Chain where
  (a b c d : UInt32)

/-- One round over the words of a block. -/
def Chain.round (w : Array UInt32) (s : Chain) (i : Nat) : Chain :=
  let (mix, position) :=
    match i / 16 with
    | 0 => ((s.b &&& s.c) ||| (~~~s.b &&& s.d), i)
    | 1 => ((s.d &&& s.b) ||| (~~~s.d &&& s.c), (5 * i + 1) % 16)
    | 2 => (s.b ^^^ s.c ^^^ s.d, (3 * i + 5) % 16)
    | _ => (s.c ^^^ (s.b ||| ~~~s.d), 7 * i % 16)
  let sum := mix + s.a + roundConstants.getD i 0 + w.getD position 0
  ⟨s.d, s.b + rotateLeft32 sum (turns.getD (4 * (i / 16) + i % 4) 1), s.b, s.c⟩

/-- Absorbs one block. -/
def absorb (s : Chain) (block : List UInt8) : Chain :=
  let w := (words32LE block).toArray
  let t := (List.range 64).foldl (Chain.round w) s
  ⟨s.a + t.a, s.b + t.b, s.c + t.c, s.d + t.d⟩

/-- One bit, then zeros, then the length in bits, least significant byte first. -/
def padding (size : Nat) : List UInt8 :=
  0x80 :: (List.replicate ((64 - (size + 9) % 64) % 64) 0 ++ bytesLE 8 (8 * size))

end Md5

/-- MD5. -/
def md5 : BlockHash where
  State := Md5.Chain
  blockSize := 64
  blockSize_pos := sixtyFour_pos
  start := ⟨0x67452301, 0xefcdab89, 0x98badcfe, 0x10325476⟩
  absorb := Md5.absorb
  padding := Md5.padding
  output s := [s.a, s.b, s.c, s.d].flatMap fun x => bytesLE 4 x.toNat

end ImageTransfer.Digest
