import ImageTransfer.Archive.Tar.Writer

/-!
# Reading tar archives

An archive is read member by member until a block of zeros. Records before a member win over its
header. A header whose sum is wrong ends the reading.
-/

namespace ImageTransfer.Archive.Tar

/-- A member as it was read. -/
structure Member where
  name : String
  kind : Kind
  mode : Nat
  owner : Nat
  group : Nat
  ownerName : List UInt8
  groupName : List UInt8
  /-- In seconds since 1970. -/
  modified : Int
  records : List Record
  content : List UInt8
  /-- Where the member begins, with its records. -/
  offset : Nat
  /-- Where its content begins. -/
  dataOffset : Nat

/-- A field of text, up to its first zero byte. -/
def readText (field : List UInt8) : List UInt8 := field.takeWhile (· ≠ 0)

/-- A field of octal digits, up to the first byte that is none. -/
def readNumber (field : List UInt8) : Nat :=
  (field.takeWhile fun b => 0x30 ≤ b && b ≤ 0x37).foldl (fun n b => 8 * n + (b.toNat - 0x30)) 0

/-- The field of a block that begins at an offset. -/
def fieldAt (block : List UInt8) (offset width : Nat) : List UInt8 := (block.drop offset).take width

/-- The header in a block. -/
def Header.ofBlock? (block : List UInt8) : Option Header := do
  let before := block.take 148
  let after := block.drop 156
  if readNumber (fieldAt block 148 8) ≠ sumOf before after then none
  let kind ← Kind.ofByte? (block.getD 156 0)
  return {
    name := readText (fieldAt block 0 nameWidth)
    mode := readNumber (fieldAt block 100 numberWidth)
    owner := readNumber (fieldAt block 108 numberWidth)
    group := readNumber (fieldAt block 116 numberWidth)
    size := readNumber (fieldAt block 124 longNumberWidth)
    modified := readNumber (fieldAt block 136 longNumberWidth)
    kind := kind
    ownerName := readText (fieldAt block 265 ownerNameWidth)
    groupName := readText (fieldAt block 297 ownerNameWidth) }

/-- The text of bytes in UTF-8. -/
def textOf? (bytes : List UInt8) : Option String :=
  match Text.decodeUtf8 bytes with
  | .ok t => some t.toString
  | .error _ => none

/-- Reads records, of which the length says how many bytes there are at most. -/
def readRecords? : Nat → List UInt8 → Option (List Record)
  | _, [] => some []
  | 0, _ => none
  | fuel + 1, bytes => do
    let digits := bytes.takeWhile fun b => 0x30 ≤ b && b ≤ 0x39
    let length := digits.foldl (fun n b => 10 * n + (b.toNat - 0x30)) 0
    let content := (bytes.take length).drop (digits.length + 1)
    let keyword ← textOf? (content.takeWhile (· ≠ 0x3D))
    let value ← textOf? ((content.dropWhile (· ≠ 0x3D)).drop 1).dropLast
    let rest ← readRecords? fuel (bytes.drop length)
    some ((keyword, value) :: rest)

/-- The value of the last record with a keyword. -/
def recordValue? (records : List Record) (keyword : String) : Option String :=
  (records.reverse.find? (·.1 == keyword)).map (·.2)

/-- The number that decimal digits spell. -/
def naturalOf? (digits : List Char) : Option Nat :=
  if !digits.isEmpty && digits.all (·.isDigit) then some (Nat.ofDigitChars 10 digits 0) else none

/-- The whole number that a text spells, with a minus in front if it is negative. -/
def integerOf? (s : String) : Option Int :=
  match s.toList with
  | '-' :: digits => (naturalOf? digits).map fun (n : Nat) => -(n : Int)
  | digits => (naturalOf? digits).map Int.ofNat

/-- The number in the last record with a keyword. -/
def recordNumber? (records : List Record) (keyword : String) : Option Int :=
  (recordValue? records keyword).bind integerOf?

/-- The time in a record. -/
def recordTime? (records : List Record) : Option Int := recordNumber? records "mtime"

/-- How many bytes of content a member has. -/
def contentSize (records : List Record) (h : Header) : Nat :=
  ((recordNumber? records "size").map Int.toNat).getD h.size

/-- A name without the slash that ends it. -/
def withoutSlash (s : String) : String :=
  match s.toList.reverse with
  | '/' :: rest => String.ofList rest.reverse
  | _ => s

/-- The name of a member as it is written. -/
def writtenName? (records : List Record) (h : Header) : Option String :=
  match recordValue? records "path" with
  | some name => some name
  | none => textOf? h.name

/-- The member with a header, records and content. -/
def Member.of? (offset dataOffset : Nat) (records : List Record) (h : Header)
    (content : List UInt8) : Option Member :=
  (writtenName? records h).map fun name => {
    name := withoutSlash name
    kind := h.kind
    mode := h.mode
    owner := h.owner
    group := h.group
    ownerName := h.ownerName
    groupName := h.groupName
    modified := (recordTime? records).getD h.modified
    records := records
    content := content
    offset := offset
    dataOffset := dataOffset }

/-- Reads members from an offset on, which begin with records that have been read. -/
def readMembers? : Nat → Nat → Nat → List Record → List UInt8 → Option (List Member)
  | 0, _, _, _, _ => none
  | fuel + 1, start, offset, records, bytes =>
    let block := bytes.take blockSize
    if block.length < blockSize ∨ block.all (· = 0) then some []
    else do
      let h ← Header.ofBlock? block
      let size := if h.kind = .records then h.size else contentSize records h
      let content := (bytes.drop blockSize).take size
      let length := blockSize + (padded content).length
      let next := offset + length
      match h.kind with
      | .records =>
        let records ← readRecords? content.length content
        readMembers? fuel start next records (bytes.drop length)
      | _ =>
        let first ← Member.of? start (offset + blockSize) records h content
        let rest ← readMembers? fuel next next [] (bytes.drop length)
        some (first :: rest)

/-- The members of an archive. -/
def read? (bytes : List UInt8) : Option (List Member) :=
  readMembers? (bytes.length / blockSize + 1) 0 0 [] bytes

end ImageTransfer.Archive.Tar
