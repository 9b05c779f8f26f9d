import ImageTransfer.Digest.Blake2
import ImageTransfer.Digest.Md5
import ImageTransfer.Digest.Sha1
import ImageTransfer.Digest.Sha2
import ImageTransfer.Digest.Sha3

/-!
# Hash algorithms by name
-/

namespace ImageTransfer.Digest

/-- The hash algorithms that content can be digested with. -/
inductive Algorithm
  | md5
  | sha1
  | sha224
  | sha256
  | sha384
  | sha512
  | sha512Short224
  | sha512Short256
  | sha3Of224
  | sha3Of256
  | sha3Of384
  | sha3Of512
  | blake2b
  | blake2s
deriving DecidableEq, Repr

namespace Algorithm

/-- Every algorithm. -/
def all : List Algorithm :=
  [md5, sha1, sha224, sha256, sha384, sha512, sha512Short224, sha512Short256, sha3Of224, sha3Of256,
    sha3Of384, sha3Of512, blake2b, blake2s]

/-- The name that a digest begins with. -/
def name : Algorithm → String
  | md5 => "md5"
  | sha1 => "sha1"
  | sha224 => "sha224"
  | sha256 => "sha256"
  | sha384 => "sha384"
  | sha512 => "sha512"
  | sha512Short224 => "sha512_224"
  | sha512Short256 => "sha512_256"
  | sha3Of224 => "sha3_224"
  | sha3Of256 => "sha3_256"
  | sha3Of384 => "sha3_384"
  | sha3Of512 => "sha3_512"
  | blake2b => "blake2b"
  | blake2s => "blake2s"

/-- The algorithm of a name. -/
def ofName? (s : String) : Option Algorithm := all.find? (·.name == s)

/-- The hash function of an algorithm. -/
def hash : Algorithm → BlockHash
  | md5 => Digest.md5
  | sha1 => Digest.sha1
  | sha224 => Digest.sha224
  | sha256 => Digest.sha256
  | sha384 => Digest.sha384
  | sha512 => Digest.sha512
  | sha512Short224 => Digest.sha512Short224
  | sha512Short256 => Digest.sha512Short256
  | sha3Of224 => Digest.sha3Of224
  | sha3Of256 => Digest.sha3Of256
  | sha3Of384 => Digest.sha3Of384
  | sha3Of512 => Digest.sha3Of512
  | blake2b => Digest.blake2b
  | blake2s => Digest.blake2s

theorem mem_all (a : Algorithm) : a ∈ all := by cases a <;> simp [all]

/-- **An algorithm is found under its own name.** -/
theorem ofName?_name (a : Algorithm) : ofName? a.name = some a := by cases a <;> decide

/-- The algorithm of content that nobody named one for. -/
def canonical : Algorithm := sha256

/-- The algorithms that may address a blob. -/
def addressing : List Algorithm := [sha256, sha512, sha1, md5]

end Algorithm

end ImageTransfer.Digest
