/-!
# Cyclic redundancy checks

The remainder of a message, taken as a polynomial over two elements, by a fixed polynomial. Two
checks take the bits of a byte from the least significant on and keep the remainder reversed; the
third takes them from the most significant on. Each is computed byte by byte with a table of the
remainders of single bytes.
-/

namespace ImageTransfer.Crc

/-- One bit of a reversed remainder. -/
def shiftReversed32 (polynomial crc : UInt32) : UInt32 :=
  if crc &&& 1 = 1 then (crc >>> 1) ^^^ polynomial else crc >>> 1

/-- One bit of a reversed remainder of 64 bits. -/
def shiftReversed64 (polynomial crc : UInt64) : UInt64 :=
  if crc &&& 1 = 1 then (crc >>> 1) ^^^ polynomial else crc >>> 1

/-- One bit of a remainder that is not reversed. -/
def shiftForward32 (polynomial crc : UInt32) : UInt32 :=
  if crc &&& 0x80000000 = 0 then crc <<< 1 else (crc <<< 1) ^^^ polynomial

/-- A step taken for each bit of a byte. -/
def eightTimes {α : Type} (f : α → α) (x : α) : α := f (f (f (f (f (f (f (f x)))))))

/-- The remainders of bytes in the check of 32 bits. -/
def table32 : Array UInt32 :=
  Array.ofFn fun i : Fin 256 => eightTimes (shiftReversed32 0xEDB88320) (UInt32.ofNat i)

/-- The remainders of bytes in the check of 64 bits. -/
def table64 : Array UInt64 :=
  Array.ofFn fun i : Fin 256 => eightTimes (shiftReversed64 0xC96C5795D7870F42) (UInt64.ofNat i)

/-- The remainders of bytes in the check of bzip2 blocks. -/
def tableForward : Array UInt32 :=
  Array.ofFn fun i : Fin 256 =>
    eightTimes (shiftForward32 0x04C11DB7) (UInt32.ofNat i <<< 24)

/-- One byte more of the check of 32 bits. -/
def step32 (crc : UInt32) (b : UInt8) : UInt32 :=
  (crc >>> 8) ^^^ table32.getD ((crc ^^^ b.toUInt32) &&& 0xFF).toNat 0

/-- One byte more of the check of 64 bits. -/
def step64 (crc : UInt64) (b : UInt8) : UInt64 :=
  (crc >>> 8) ^^^ table64.getD ((crc ^^^ b.toUInt64) &&& 0xFF).toNat 0

/-- One byte more of the check of bzip2 blocks. -/
def stepForward (crc : UInt32) (b : UInt8) : UInt32 :=
  (crc <<< 8) ^^^ tableForward.getD ((crc >>> 24) ^^^ b.toUInt32).toNat 0

/-- The check of 32 bits of gzip and xz. -/
def crc32 (bytes : List UInt8) : UInt32 := ~~~(bytes.foldl step32 0xFFFFFFFF)

/-- The check of 64 bits of xz. -/
def crc64 (bytes : List UInt8) : UInt64 := ~~~(bytes.foldl step64 0xFFFFFFFFFFFFFFFF)

/-- The check of the blocks of bzip2. -/
def crcForward (bytes : List UInt8) : UInt32 := ~~~(bytes.foldl stepForward 0xFFFFFFFF)

end ImageTransfer.Crc
