import ImageTransfer.Digest.Algorithm
import ImageTransfer.Text.Quoted
import ImageTransfer.Text.Split

/-!
# Digests as text

A digest names content by an algorithm and a hash: the algorithm's name, a colon, and the hash in
small hexadecimal digits. A registry addresses a blob by such a text, and a manifest lists them.
-/

namespace ImageTransfer.Digest

/-- Why a digest could not be computed or used. -/
inductive Error
  /-- No algorithm has this name. -/
  | unsupported (name : String)
  /-- The text does not have the form of a digest. -/
  | malformed (digest : String)
  /-- Text was given where bytes are hashed. -/
  | notBytes
deriving DecidableEq, Repr

/-- The text that reports the error. -/
def Error.message : Error → String
  | .unsupported name => s!"Unsupported algorithm: {name}"
  | .malformed digest => s!"Invalid digest format: {digest}"
  | .notBytes => "Data must be bytes or bytearray"

/-- A digit of a written hash. -/
def isHashDigit (c : Char) : Bool := ('0' ≤ c && c ≤ '9') || ('a' ≤ c && c ≤ 'f')

/-- A list without the line break that it may end in. -/
def dropFinalNewline (cs : List Char) : List Char :=
  if cs.getLast? = some '\n' then cs.dropLast else cs

/-- Whether a text is the address of a blob: the name of an addressing algorithm, a colon, and
hexadecimal digits up to the end of the line. -/
def isAddress (digest : String) : Bool :=
  match Text.splitFirst ':' digest.toList with
  | (algorithm, some hash) =>
    let digits := dropFinalNewline hash
    Algorithm.addressing.any (·.name.toList == algorithm) && !digits.isEmpty && digits.all isHashDigit
  | (_, none) => false

/-- The part of a digest that names its algorithm: all before the first colon. -/
def algorithmName (digest : String) : String :=
  String.ofList (Text.splitFirst ':' digest.toList).1

/-- The part of a digest that holds the hash: all after the first colon. -/
def hashPart (digest : String) : Except Error String :=
  match Text.splitFirst ':' digest.toList with
  | (_, some hash) => .ok (String.ofList hash)
  | (_, none) => .error (.malformed digest)

/-- The hexadecimal digits of bytes. -/
def hexOfBytes (bytes : List UInt8) : List Char := bytes.flatMap fun b => Text.hexDigits 2 b.toNat

/-- The digest that an algorithm and a hash make. -/
def write (algorithm : Algorithm) (hash : List UInt8) : String :=
  String.ofList (algorithm.name.toList ++ ':' :: hexOfBytes hash)

end ImageTransfer.Digest
