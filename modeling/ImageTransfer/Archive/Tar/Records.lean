import ImageTransfer.Archive.Tar.Header

/-!
# Records of tar members

What does not fit into a header is told by a member of its own before it, whose content is a list of
records. A record is its length, a blank, a keyword, an equals sign, a value and a line break; its
length counts its own digits too.
-/

namespace ImageTransfer.Archive.Tar

/-- A keyword and its value. -/
abbrev Record := String × String

/-- The decimal digits of a number. -/
def decimalDigits (n : Nat) : List UInt8 := asciiBytes (String.ofList (Nat.toDigits 10 n))

/-- The length of a record whose other parts have length `n`: with its digits the length may get one
digit more. -/
def recordLength (n : Nat) : Nat :=
  let once := n + (decimalDigits n).length
  n + (decimalDigits once).length

/-- A record as bytes. -/
def recordBytes (r : Record) : List UInt8 :=
  let content := 0x20 :: Text.utf8OfString r.1 ++ 0x3D :: Text.utf8OfString r.2 ++ [0x0A]
  decimalDigits (recordLength content.length) ++ content

/-- The name of members that hold records. -/
def recordsName : List UInt8 := asciiBytes "././@PaxHeader"

/-- The member that holds records; without records there is none. -/
def recordsMember (records : List Record) : List UInt8 :=
  if records.isEmpty then []
  else
    let content := records.flatMap recordBytes
    let header : Header := ⟨recordsName, 0, 0, 0, content.length, 0, .records, [], []⟩
    header.block ++ padded content

end ImageTransfer.Archive.Tar
