import ImageTransfer.Digest.Word
import ImageTransfer.Text.Utf8

/-!
# Headers of tar members

A tar archive is a sequence of blocks of 512 bytes. A member begins with a block that tells its name,
kind, size and the like in fields of fixed width: text in ASCII, and numbers in octal digits. One
field holds the sum of all bytes of the block, with blanks in that field itself.
-/

namespace ImageTransfer.Archive.Tar

/-- The size of a block. -/
def blockSize : Nat := 512

/-- The kinds of members. -/
inductive Kind
  | file
  | directory
  /-- Records that are about the next member. -/
  | records
deriving DecidableEq, Repr

/-- The byte of a kind. -/
def Kind.byte : Kind → UInt8
  | file => 0x30
  | directory => 0x35
  | records => 0x78

/-- The kind of a byte. -/
def Kind.ofByte? (b : UInt8) : Option Kind := [file, directory, records].find? (·.byte == b)

/-- What a header tells. -/
structure Header where
  name : List UInt8
  mode : Nat
  owner : Nat
  group : Nat
  size : Nat
  /-- In seconds since 1970. -/
  modified : Nat
  kind : Kind
  ownerName : List UInt8
  groupName : List UInt8
deriving DecidableEq, Repr

/-- The widths of fields. -/
def nameWidth : Nat := 100
@[inherit_doc nameWidth] def numberWidth : Nat := 8
@[inherit_doc nameWidth] def longNumberWidth : Nat := 12
@[inherit_doc nameWidth] def ownerNameWidth : Nat := 32

/-- What a number in a long field stays below. -/
def numberLimit : Nat := Nat.pow 8 (longNumberWidth - 1)

/-- Bytes cut or filled up with zeros to a width. -/
def textField (width : Nat) (bytes : List UInt8) : List UInt8 :=
  bytes.take width ++ List.replicate (width - bytes.length) 0

/-- The last `count` octal digits of a number. -/
def octalDigits : Nat → Nat → List UInt8
  | 0, _ => []
  | count + 1, n => octalDigits count (n / 8) ++ [UInt8.ofNat (0x30 + n % 8)]

/-- A number in octal digits that fill a field but for a zero byte at its end. -/
def numberField (width n : Nat) : List UInt8 := octalDigits (width - 1) n ++ [0]

/-- What marks the format and its version. -/
def format : List UInt8 := [0x75, 0x73, 0x74, 0x61, 0x72, 0x00, 0x30, 0x30]

/-- The fields before the sum. -/
def Header.fieldsBeforeSum (h : Header) : List UInt8 :=
  textField nameWidth h.name ++ numberField numberWidth h.mode ++ numberField numberWidth h.owner ++
    numberField numberWidth h.group ++ numberField longNumberWidth h.size ++
    numberField longNumberWidth h.modified

/-- The fields after the sum. What a link leads to, the numbers of a device and the beginning of a
long name are empty. -/
def Header.fieldsAfterSum (h : Header) : List UInt8 :=
  [h.kind.byte] ++ textField nameWidth [] ++ format ++ textField ownerNameWidth h.ownerName ++
    textField ownerNameWidth h.groupName ++ textField 183 []

/-- The sum of the bytes of a header, with blanks for the sum itself. -/
def sumOf (before after : List UInt8) : Nat :=
  before.foldl (fun n b => n + b.toNat) 0 + 8 * 0x20 + after.foldl (fun n b => n + b.toNat) 0

/-- The sum as it is written: six octal digits, a zero byte and a blank. -/
def sumField (sum : Nat) : List UInt8 := octalDigits 6 sum ++ [0, 0x20]

/-- The block of a header. -/
def Header.block (h : Header) : List UInt8 :=
  h.fieldsBeforeSum ++ sumField (sumOf h.fieldsBeforeSum h.fieldsAfterSum) ++ h.fieldsAfterSum

/-- Content filled up with zeros to whole blocks. -/
def padded (content : List UInt8) : List UInt8 :=
  content ++ List.replicate ((blockSize - content.length % blockSize) % blockSize) 0

/-- Text in ASCII; anything else becomes a question mark. -/
def asciiBytes (s : String) : List UInt8 :=
  s.toList.map fun c => if c.toNat < 0x80 then UInt8.ofNat c.toNat else 0x3F

@[simp] theorem length_textField (width : Nat) (bytes : List UInt8) :
    (textField width bytes).length = width := by
  simp only [textField, List.length_append, List.length_take, List.length_replicate]
  omega

@[simp] theorem length_octalDigits (count n : Nat) : (octalDigits count n).length = count := by
  induction count generalizing n with
  | zero => rfl
  | succ k ih => simp [octalDigits, ih]

/-- **A header is one block.** -/
theorem length_block (h : Header) : h.block.length = blockSize := by
  simp [Header.block, Header.fieldsBeforeSum, Header.fieldsAfterSum, sumField, numberField, format,
    nameWidth, numberWidth, longNumberWidth, ownerNameWidth, blockSize]

end ImageTransfer.Archive.Tar
