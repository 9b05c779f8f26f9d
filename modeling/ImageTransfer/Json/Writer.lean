import ImageTransfer.Decimal.Shortest
import ImageTransfer.Json.Value
import ImageTransfer.Text.Quoted

/-!
# Writing JSON

A style says whether text is confined to ASCII and whether items stand on lines of their own. The
compact styles put nothing between tokens; the indented style starts a line for every item and
member, two spaces deeper than its container.
-/

namespace ImageTransfer.Json

/-- How JSON is laid out. -/
structure Style where
  /-- Whether all but ASCII is escaped. -/
  asciiOnly : Bool
  /-- How much deeper than its container an item stands, if items have lines of their own. -/
  indent : Option Nat

/-- No blanks, and all text as it is. -/
def Style.compact : Style := ⟨false, none⟩

/-- No blanks, and ASCII alone. -/
def Style.ascii : Style := ⟨true, none⟩

/-- Lines for reading, and ASCII alone. -/
def Style.indented : Style := ⟨true, some 2⟩

/-- Characters as text. -/
def chars (s : String) : Text := Text.ofString s

/-- The escape of a code unit by its number. -/
def escapeUnit (n : Nat) : Text :=
  (('\\' :: 'u' :: Text.hexDigits 4 n)).map CodePoint.ofChar

/-- How one code point is written inside a JSON string. -/
def writeCodePoint (asciiOnly : Bool) (c : CodePoint) : Text :=
  match c.val with
  | 0x22 => chars "\\\""
  | 0x5C => chars "\\\\"
  | 0x0A => chars "\\n"
  | 0x0D => chars "\\r"
  | 0x09 => chars "\\t"
  | 0x0C => chars "\\f"
  | 0x08 => chars "\\b"
  | n =>
    if n < 0x20 then escapeUnit n
    else if asciiOnly && 0x7E < n then
      if n < 0x10000 then escapeUnit n
      else
        escapeUnit (0xD800 + (n - 0x10000) / 0x400) ++ escapeUnit (0xDC00 + (n - 0x10000) % 0x400)
    else [c]

/-- A JSON string. -/
def writeText (asciiOnly : Bool) (t : Text) : Text :=
  chars "\"" ++ t.flatMap (writeCodePoint asciiOnly) ++ chars "\""

/-- A whole number. -/
def writeInteger (n : Int) : Text :=
  let digits := (Nat.toDigits 10 n.natAbs).map CodePoint.ofChar
  if n < 0 then CodePoint.ofChar '-' :: digits else digits

/-- A floating-point number; those that are no numbers have names of their own. -/
def writeReal (x : Binary64) : Text :=
  match x with
  | .nan => chars "NaN"
  | .infinite negative => chars (if negative then "-Infinity" else "Infinity")
  | .finite negative m e => (Binary64.Layout.write {} negative m e).map CodePoint.ofChar

namespace Style

/-- What stands before an item or a closing bracket at a depth. -/
def lineStart (style : Style) (depth : Nat) : Text :=
  match style.indent with
  | some width => CodePoint.ofChar '\n' :: List.replicate (width * depth) (CodePoint.ofChar ' ')
  | none => []

/-- What stands between a name and its value. -/
def colon (style : Style) : Text := if style.indent.isSome then chars ": " else chars ":"

mutual

/-- A value as JSON, inside `depth` containers. -/
def write (style : Style) (depth : Nat) : Value → Text
  | .null => chars "null"
  | .bool b => chars (if b then "true" else "false")
  | .integer n => writeInteger n
  | .real x => writeReal x
  | .text t => writeText style.asciiOnly t
  | .array [] => chars "[]"
  | .array (v :: vs) =>
    chars "[" ++ (style.lineStart (depth + 1) ++ (write style (depth + 1) v ++
      (writeItems style (depth + 1) vs ++ (style.lineStart depth ++ chars "]"))))
  | .object [] => chars "\x7b\x7d"
  | .object ((name, v) :: ms) =>
    chars "\x7b" ++ (style.lineStart (depth + 1) ++ (writeText style.asciiOnly name ++ (style.colon ++
      (write style (depth + 1) v ++
        (writeMembers style (depth + 1) ms ++ (style.lineStart depth ++ chars "\x7d"))))))

/-- The items after the first. -/
def writeItems (style : Style) (depth : Nat) : List Value → Text
  | [] => []
  | v :: vs =>
    chars "," ++ (style.lineStart depth ++ (write style depth v ++ writeItems style depth vs))

/-- The members after the first. -/
def writeMembers (style : Style) (depth : Nat) : List (Text × Value) → Text
  | [] => []
  | (name, v) :: ms =>
    chars "," ++ (style.lineStart depth ++ (writeText style.asciiOnly name ++ (style.colon ++
      (write style depth v ++ writeMembers style depth ms))))

end

end Style

/-- Compact JSON with text as it is. -/
def compact (v : Value) : Text := Style.compact.write 0 v

/-- Compact JSON of ASCII alone. -/
def ascii (v : Value) : String := Text.toString (Style.ascii.write 0 v)

/-- JSON for reading, of ASCII alone. -/
def indented (v : Value) : String := Text.toString (Style.indented.write 0 v)

end ImageTransfer.Json
