import ImageTransfer.Digest.Word
import ImageTransfer.Text.Utf8

/-!
# The encoding of a JSON document

A document says by its first bytes how it is encoded: by a byte order mark, or, since its first
character is ASCII, by where the zero bytes are. Anything else is UTF-8. Surrogates that stand alone
are let through in every encoding.
-/

namespace ImageTransfer.Json

/-- The order of the bytes of a code unit. -/
inductive ByteOrder
  | big
  | little
deriving DecidableEq, Repr

/-- How a document is encoded, and how many bytes of mark it begins with. -/
inductive Encoding
  | utf8 (mark : Nat)
  | utf16 (order : ByteOrder) (mark : Nat)
  | utf32 (order : ByteOrder) (mark : Nat)
deriving DecidableEq, Repr

/-- The byte order marks and what they tell. A mark that begins with another one comes before it. -/
def Encoding.marks : List (List UInt8 × Encoding) :=
  [([0x00, 0x00, 0xFE, 0xFF], .utf32 .big 4), ([0xFF, 0xFE, 0x00, 0x00], .utf32 .little 4),
    ([0xFE, 0xFF], .utf16 .big 2), ([0xFF, 0xFE], .utf16 .little 2), ([0xEF, 0xBB, 0xBF], .utf8 3)]

/-- The encoding that the zeros among the first bytes tell. -/
def Encoding.ofZeros : List UInt8 → Encoding
  | a :: b :: c :: d :: _ =>
    if a = 0 then if b = 0 then .utf32 .big 0 else .utf16 .big 0
    else if b = 0 then if c = 0 ∧ d = 0 then .utf32 .little 0 else .utf16 .little 0
    else .utf8 0
  | [a, b] => if a = 0 then .utf16 .big 0 else if b = 0 then .utf16 .little 0 else .utf8 0
  | _ => .utf8 0

/-- The encoding that the first bytes of a document tell. -/
def Encoding.detect (bytes : List UInt8) : Encoding :=
  match marks.find? (·.1.isPrefixOf bytes) with
  | some (_, encoding) => encoding
  | none => ofZeros bytes

/-- **Bytes that begin with ASCII and have no zero among them are told to be UTF-8.** -/
theorem Encoding.detect_of_ascii {b : UInt8} {rest : List UInt8} (hzero : b ≠ 0) (hascii : b < 0x80)
    (hrest : ∀ x ∈ rest, x ≠ 0) : detect (b :: rest) = .utf8 0 := by
  have hlow := UInt8.lt_iff_toNat_lt.1 hascii
  have hunmarked : marks.find? (·.1.isPrefixOf (b :: rest)) = none := by
    have hmark : b ≠ 0xFF ∧ b ≠ 0xFE ∧ b ≠ 0xEF := by
      refine ⟨?_, ?_, ?_⟩ <;> rintro rfl <;> exact absurd hlow (by decide)
    have hne : ∀ m : UInt8, b ≠ m → (m == b) = false := fun m h => beq_eq_false_iff_ne.2 h.symm
    simp only [marks, List.find?_cons, List.find?_nil, List.isPrefixOf_cons_cons, hne _ hzero,
      hne _ hmark.1, hne _ hmark.2.1, hne _ hmark.2.2, Bool.false_and]
  rw [detect, hunmarked]
  match rest, hrest with
  | [], _ => rfl
  | [x], hrest => exact (if_neg hzero).trans (if_neg (hrest x (by simp)))
  | [x, y], _ => rfl
  | x :: y :: z :: more, hrest => exact (if_neg hzero).trans (if_neg (hrest x (by simp)))

/-- The number that the bytes of a code unit make. -/
def ByteOrder.unit (order : ByteOrder) (bytes : List UInt8) : Nat :=
  match order with
  | .big => natOfBytesBE bytes
  | .little => natOfBytesLE bytes

/-- The name of a codec with its byte order. -/
def ByteOrder.codec (order : ByteOrder) (name : String) : String :=
  match order with
  | .big => name ++ "-be"
  | .little => name ++ "-le"

/-- The code units of UTF-16 with pairs of surrogates joined. -/
def joinSurrogates : List Nat → Text
  | high :: low :: rest =>
    if 0xD800 ≤ high ∧ high < 0xDC00 ∧ 0xDC00 ≤ low ∧ low < 0xE000 then
      Text.codePoint (0x10000 + (high - 0xD800) * 0x400 + (low - 0xDC00)) :: joinSurrogates rest
    else Text.codePoint high :: joinSurrogates (low :: rest)
  | [unit] => [Text.codePoint unit]
  | [] => []

/-- The code units of UTF-16; a byte left over at the end is an error. -/
def utf16Units (order : ByteOrder) (position : Nat) :
    List UInt8 → Except DecodeError (List Nat)
  | a :: b :: rest => (utf16Units order (position + 2) rest).map (order.unit [a, b] :: ·)
  | [a] => .error ⟨order.codec "utf-16", position, position + 1, a, "truncated data"⟩
  | [] => .ok []

/-- The text of UTF-32; a number beyond Unicode and bytes left over at the end are errors. -/
def decodeUtf32 (order : ByteOrder) (position : Nat) : List UInt8 → Except DecodeError Text
  | a :: b :: c :: d :: rest =>
    let n := order.unit [a, b, c, d]
    if h : n < 0x110000 then
      (decodeUtf32 order (position + 4) rest).map ((⟨n, h⟩ : CodePoint) :: ·)
    else
      .error ⟨order.codec "utf-32", position, position + 4, a, "code point not in range(0x110000)"⟩
  | a :: rest =>
    .error ⟨order.codec "utf-32", position, position + 1 + rest.length, a, "truncated data"⟩
  | [] => .ok []

/-- The text of a document. Positions in errors count from the first byte, but from after the mark
in UTF-8. -/
def decodeDocument (bytes : List UInt8) : Except DecodeError Text :=
  match Encoding.detect bytes with
  | .utf8 mark => Text.decodeUtf8 (bytes.drop mark)
  | .utf16 order mark => (utf16Units order mark (bytes.drop mark)).map joinSurrogates
  | .utf32 order mark => decodeUtf32 order mark (bytes.drop mark)

end ImageTransfer.Json
