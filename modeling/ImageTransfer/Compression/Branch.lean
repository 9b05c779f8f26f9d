import ImageTransfer.Digest.Word

/-!
# Branch filters

Machine code compresses better if the targets of its branches are written as addresses from the
beginning of the code on, and not as distances from the branch. A branch filter has written them as
addresses; here they become distances again. Each kind of processor has its own form of branches,
found by the bits of single instructions alone.
-/

namespace ImageTransfer.Compression.Branch

/-- The kinds of processors whose branches are known. -/
inductive Processor
  | x86
  | powerPC
  | itanium
  | arm
  | armThumb
  | sparc
deriving DecidableEq, Repr

/-- The code, which begins at an address that is a multiple of this. -/
def Processor.alignment : Processor → Nat
  | .x86 => 1
  | .armThumb => 2
  | .itanium => 16
  | _ => 4

/-- A word as four bytes, most significant first. -/
def word32BE (w : UInt32) : List UInt8 := bytesBE 4 w.toNat

/-- A word as four bytes, least significant first. -/
def word32LE (w : UInt32) : List UInt8 := bytesLE 4 w.toNat

/-- One instruction of a PowerPC at an address. -/
def powerPC (address instruction : UInt32) : UInt32 :=
  if instruction >>> 26 = 0x12 ∧ instruction &&& 3 = 1 then
    let source : UInt32 := instruction &&& 0x3FFFFFC
    0x48000001 ||| ((source - address) &&& 0x3FFFFFC)
  else instruction

/-- One instruction of a SPARC at an address. -/
def sparc (address instruction : UInt32) : UInt32 :=
  if instruction >>> 22 = 0x100 ∨ instruction >>> 22 = 0x1FF then
    let source : UInt32 := instruction <<< 2
    let target : UInt32 := (source - address) >>> 2
    let high : UInt32 := if target &&& 0x400000 = 0 then 0 else 0x3FC00000
    high ||| (target &&& 0x3FFFFF) ||| 0x40000000
  else instruction

/-- One instruction of an ARM at an address. -/
def arm (address instruction : UInt32) : UInt32 :=
  if instruction >>> 24 = 0xEB then
    let source : UInt32 := (instruction &&& 0xFFFFFF) <<< 2
    let target : UInt32 := (source - (address + 8)) >>> 2
    (instruction &&& 0xFF000000) ||| (target &&& 0xFFFFFF)
  else instruction

/-- Which of the three slots of a bundle of an Itanium hold branches, by the kind of the bundle. -/
def branchSlots (kind : Nat) : List Nat :=
  match kind with
  | 16 | 17 | 24 | 25 | 28 | 29 => [2]
  | 18 | 19 => [1, 2]
  | 22 | 23 => [0, 1, 2]
  | _ => []

/-- The field of `width` bits of a number that begins at a bit. -/
def bitField (n start width : Nat) : Nat := n / Nat.pow 2 start % Nat.pow 2 width

/-- A number with the field of `width` bits that begins at a bit replaced. -/
def setBitField (n start width value : Nat) : Nat :=
  n - bitField n start width * Nat.pow 2 start + value % Nat.pow 2 width * Nat.pow 2 start

/-- One bundle of an Itanium, as a number of 128 bits, at an address. -/
def itanium (address : UInt32) (bundle : Nat) : Nat :=
  (branchSlots (bundle % 32)).foldl (fun bundle slot =>
    let at' := 5 + 41 * slot
    if bitField bundle (at' + 37) 4 = 5 ∧ bitField bundle (at' + 9) 3 = 0 then
      let source := bitField bundle (at' + 13) 20 + bitField bundle (at' + 36) 1 * Nat.pow 2 20
      let target := ((UInt32.ofNat (16 * source) - address) >>> 4).toNat
      let bundle := setBitField bundle (at' + 13) 20 target
      setBitField bundle (at' + 36) 1 (target / Nat.pow 2 20)
    else bundle) bundle

/-- Code whose instructions are words of four bytes. -/
def convertWords (convert : UInt32 → UInt32 → UInt32) (ofBytes : List UInt8 → Nat)
    (toBytes : UInt32 → List UInt8) (address : UInt32) : List UInt8 → List UInt8
  | a :: b :: c :: d :: rest =>
    toBytes (convert address (UInt32.ofNat (ofBytes [a, b, c, d]))) ++
      convertWords convert ofBytes toBytes (address + 4) rest
  | rest => rest

/-- Code of an Itanium. -/
def convertBundles (address : UInt32) (code : List UInt8) : List UInt8 :=
  let bundles := groupsOf 16 code
  (bundles.zipIdx.flatMap fun (bundle, i) =>
    bytesLE 16 (itanium (address + UInt32.ofNat (16 * i)) (natOfBytesLE bundle))) ++
    code.drop (16 * bundles.length)

/-- Code of an ARM in its short form, in which a branch takes two instructions. -/
def convertThumb (address : UInt32) : List UInt8 → List UInt8
  | a :: b :: c :: d :: rest =>
    if b &&& 0xF8 = 0xF0 ∧ d &&& 0xF8 = 0xF8 then
      let source := ((b.toNat % 8 * 256 + a.toNat) * 8 + d.toNat % 8) * 256 + c.toNat
      let target := ((UInt32.ofNat (2 * source) - (address + 4)) >>> 1).toNat
      UInt8.ofNat (target / Nat.pow 2 11) :: UInt8.ofNat (0xF0 + target / Nat.pow 2 19 % 8) ::
        UInt8.ofNat target :: UInt8.ofNat (0xF8 + target / Nat.pow 2 8 % 8) ::
        convertThumb (address + 4) rest
    else a :: b :: convertThumb (address + 2) (c :: d :: rest)
  | rest => rest

/-- Whether a byte may be the most significant one of a distance on an x86. -/
def isSignByte (b : UInt8) : Bool := b == 0 || b == 0xFF

/-- What is remembered of an x86's code: which of the last bytes were taken for branches. -/
structure Recent where
  /-- How many bytes ago the last one that looks like a branch was; more than five do not matter. -/
  ago : Nat
  /-- The bytes before the current one that look like branches, one bit each from the second lowest
  on, and higher up those of them whose distance had a byte of a sign on top. -/
  mask : Nat

/-- What is remembered at the next byte that looks like a branch. -/
def Recent.atBranch (r : Recent) : Nat :=
  if 5 < r.ago then 0 else (List.range r.ago).foldl (fun mask _ => 2 * (mask &&& 0x77)) r.mask

/-- Whether a branch may be converted after those before it. -/
def mayConvert (mask : Nat) : Bool := [0, 1, 2, 4].contains (mask / 2)

/-- The distance of a branch on an x86 whose address is known. A byte of the distance that an earlier
branch also reaches must not have become the byte of a sign; if it has, it was flipped before, and
so it is flipped back with all below it. -/
def x86Distance (mask : Nat) (next source : UInt32) : UInt32 :=
  let target := source - next
  if mask = 0 then target
  else
    let bits : UInt32 := match mask / 2 with
      | 1 => 24
      | 2 => 16
      | _ => 8
    if isSignByte (target >>> (bits - 8)).toUInt8 then (target ^^^ ((1 <<< bits) - 1)) - next
    else target

/-- Code of an x86. -/
def convertX86 (address : UInt32) (recent : Recent) : List UInt8 → List UInt8
  | op :: a :: b :: c :: d :: rest =>
    if op ≠ 0xE8 ∧ op ≠ 0xE9 then
      op :: convertX86 (address + 1) { recent with ago := recent.ago + 1 } (a :: b :: c :: d :: rest)
    else
      let mask := recent.atBranch
      if isSignByte d && mayConvert mask then
        let target := x86Distance mask (address + 5) (UInt32.ofNat (natOfBytesLE [a, b, c, d]))
        let sign : UInt8 := if (target >>> 24) &&& 1 = 1 then 0xFF else 0
        op :: (bytesLE 3 target.toNat ++ sign :: convertX86 (address + 5) ⟨5, 0⟩ rest)
      else
        let mask := (mask ||| 1) ||| (if isSignByte d then 0x10 else 0)
        op :: convertX86 (address + 1) ⟨1, mask⟩ (a :: b :: c :: d :: rest)
  | rest => rest
termination_by code => code.length

/-- Code that begins at an address, with distances instead of addresses. -/
def decode (p : Processor) (address : UInt32) (code : List UInt8) : List UInt8 :=
  match p with
  | .x86 => convertX86 address ⟨6, 0⟩ code
  | .powerPC => convertWords powerPC natOfBytesBE word32BE address code
  | .itanium => convertBundles address code
  | .arm => convertWords arm natOfBytesLE word32LE address code
  | .armThumb => convertThumb address code
  | .sparc => convertWords sparc natOfBytesBE word32BE address code

end ImageTransfer.Compression.Branch
