/-!
# Decoders of members

A compressed stream is a sequence of members, each complete in itself. A decoder of a member takes
one byte at a time and says after each whether the member goes on, is complete with this byte, or is
corrupt. So the bytes of a member may arrive in any pieces, and a decoder never sees a byte after
the last one of its member.
-/

namespace ImageTransfer.Compression

/-- What becomes of a member with one more byte. -/
inductive Progress (σ : Type)
  /-- The member goes on, and these bytes have been decoded. -/
  | more (s : σ) (output : List UInt8)
  /-- This was the last byte of the member. -/
  | complete (output : List UInt8)
  /-- No member goes on like this. -/
  | corrupt

/-- The progress of a member whose state is kept inside another. -/
def Progress.mapState {σ τ : Type} (f : σ → τ) : Progress σ → Progress τ
  | more s output => more (f s) output
  | complete output => complete output
  | corrupt => corrupt

/-- A decoder of one member. -/
structure MemberDecoder where
  /-- What is known of a member that is not complete. -/
  State : Type
  /-- Before the first byte. -/
  start : State
  /-- One more byte. -/
  push : State → UInt8 → Progress State

end ImageTransfer.Compression
