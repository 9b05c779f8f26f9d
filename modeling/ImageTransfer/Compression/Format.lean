/-!
# Compression formats

Layers come compressed in one of four formats, or not at all. A format is recognised by the bytes
that its streams begin with.
-/

namespace ImageTransfer

/-- How a stream is compressed. -/
inductive Compression
  | gzip
  | bzip2
  | xz
  | zstd
  /-- Not at all. -/
  | identity
deriving DecidableEq, Repr

namespace Compression

/-- The name of a format. -/
def name : Compression → String
  | gzip => "gzip"
  | bzip2 => "bzip2"
  | xz => "xz"
  | zstd => "zstd"
  | identity => "none"

/-- The bytes that streams of a format begin with. -/
def magic : Compression → List UInt8
  | gzip => [0x1F, 0x8B, 0x08]
  | bzip2 => [0x42, 0x5A, 0x68]
  | xz => [0xFD, 0x37, 0x7A, 0x58, 0x5A, 0x00]
  | zstd => [0x28, 0xB5, 0x2F, 0xFD]
  | identity => []

/-- How many bytes tell all formats apart. -/
def magicLength : Nat := 6

/-- The format of a stream by its first bytes. -/
def detect (header : List UInt8) : Compression :=
  ([gzip, bzip2, xz, zstd].find? fun c => c.magic.isPrefixOf header).getD identity

/-- **A stream is told to have a format only by the bytes of that format.** -/
theorem magic_isPrefixOf_of_detect (header : List UInt8) :
    (detect header).magic.isPrefixOf header = true := by
  unfold detect
  cases h : [gzip, bzip2, xz, zstd].find? fun c => c.magic.isPrefixOf header with
  | none => rfl
  | some c =>
    have hc := List.find?_some h
    exact hc

end Compression

end ImageTransfer
