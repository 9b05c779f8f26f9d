import ImageTransfer.Digest.Address

/-!
# Digests of content

The digest of bytes that are all at hand is `Digest.ofBytes`. A `Digester` follows a stream instead:
it takes the bytes as they pass and can be asked at any time how many there were and what their
digest is.
-/

namespace ImageTransfer.Digest

/-- The digest of bytes. -/
def ofBytes (algorithm : Algorithm) (bytes : List UInt8) : String :=
  write algorithm (algorithm.hash.hash bytes)

/-- The digest of bytes under the canonical algorithm. -/
def canonical (bytes : List UInt8) : String := ofBytes .canonical bytes

/-- The algorithm of a name, or the error that there is none. -/
def algorithmOf (name : String) : Except Error Algorithm :=
  match Algorithm.ofName? name with
  | some a => .ok a
  | none => .error (.unsupported name)

/-- What somebody asks a digest of. -/
inductive Content
  | bytes (bs : List UInt8)
  | text (s : String)

/-- The digest of content under a named algorithm. Text is refused before the name is looked at, for
it has no bytes until an encoding is chosen. -/
def ofContent (content : Content) (name : String) : Except Error String :=
  match content with
  | .text _ => .error .notBytes
  | .bytes bs => (algorithmOf name).map (ofBytes · bs)

/-- Whether bytes have a digest; the digest must be an address. -/
def matchesBytes (bytes : List UInt8) (digest : String) : Except Error Bool :=
  if isAddress digest then
    (algorithmOf (algorithmName digest)).map fun a => ofBytes a bytes == digest
  else .error (.malformed digest)

/-- The digest of a stream, as far as the stream has been seen. -/
structure Digester where
  algorithm : Algorithm
  absorbed : Absorbed algorithm.hash

namespace Digester

/-- A digester that has seen nothing. -/
def start (algorithm : Algorithm) : Digester := ⟨algorithm, .empty _⟩

/-- A digester of a named algorithm. -/
def ofName (name : String) : Except Error Digester := (algorithmOf name).map start

/-- The next piece of the stream. -/
def update (d : Digester) (bytes : List UInt8) : Digester :=
  ⟨d.algorithm, d.absorbed.append bytes⟩

/-- How many bytes were seen. -/
def size (d : Digester) : Nat := d.absorbed.size

/-- The digest of the bytes seen. -/
def digest (d : Digester) : String := write d.algorithm d.absorbed.hash

end Digester

end ImageTransfer.Digest
