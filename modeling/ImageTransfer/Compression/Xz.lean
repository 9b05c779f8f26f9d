import ImageTransfer.Compression.LzmaFile
import ImageTransfer.Compression.Xz.Container

/-!
# Members of the xz family

A member of an xz stream is told by its first byte to be in one of two containers. The first
member of a stream always is an xz stream, because the format is told by its first bytes.

How a member is cut into pieces decides which call gives which of the decoded bytes, and here some
bytes come with a later piece than liblzma gives them with. What all calls give together is the same,
and so is whether the member is accepted.
-/

namespace ImageTransfer.Compression.Xz

/-- A member that is being read. -/
inductive MemberState
  /-- Before the first byte. -/
  | unknown
  | xz (s : State)
  | lzma (s : LzmaFile.State)

/-- The container that a member with this first byte is in. -/
def MemberState.ofFirst (b : UInt8) : MemberState :=
  if b = 0xFD then .xz start else .lzma (.header [])

/-- One more byte of a member in a container. -/
def MemberState.pushInside (s : MemberState) (b : UInt8) : Progress MemberState :=
  match s with
  | .unknown => .corrupt
  | .xz s => (s.push b).mapState .xz
  | .lzma s => (s.push b).mapState .lzma

/-- One more byte. -/
def MemberState.push (s : MemberState) (b : UInt8) : Progress MemberState :=
  match s with
  | .unknown => (MemberState.ofFirst b).pushInside b
  | s => s.pushInside b

/-- The decoder of members of the xz family. -/
def decoder : MemberDecoder := ⟨MemberState, .unknown, MemberState.push⟩

end ImageTransfer.Compression.Xz
