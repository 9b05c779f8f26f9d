/-!
# Blank code points

The white space that is dropped around references, host lists, numbers and timestamps: the ASCII
blanks, the four separators 0x1C to 0x1F, and the spaces and line ends of Unicode.
-/

namespace ImageTransfer.Text

/-- Whether a code point is white space. -/
def isBlank (c : Nat) : Bool :=
  (0x09 ≤ c && c ≤ 0x0D) || (0x1C ≤ c && c ≤ 0x20) || c == 0x85 || c == 0xA0 || c == 0x1680 ||
  (0x2000 ≤ c && c ≤ 0x200A) || c == 0x2028 || c == 0x2029 || c == 0x202F || c == 0x205F ||
  c == 0x3000

/-- A list without the leading and trailing items that are blank. -/
def trimBlank {α : Type} (code : α → Nat) (xs : List α) : List α :=
  let leading := xs.dropWhile fun x => isBlank (code x)
  (leading.reverse.dropWhile fun x => isBlank (code x)).reverse

/-- A string without its surrounding blanks. -/
def trim (s : String) : String :=
  String.ofList (trimBlank Char.toNat s.toList)

end ImageTransfer.Text
