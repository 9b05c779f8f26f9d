import ImageTransfer.Text.CodePoint
import ImageTransfer.Text.Printable

/-!
# Quoted text

Messages show text they doubt inside quotes, so that blanks, controls and look-alikes can be told
apart. Single quotes are used unless the text has one and has no double quote. A backslash, the
chosen quote, and every code point without a visible form are spelled out, by the shortest of the
escapes that reach it.
-/

namespace ImageTransfer.Text

/-- The hexadecimal digit of a number below sixteen. -/
def hexDigit (n : Nat) : Char :=
  if n < 10 then Char.ofNat (0x30 + n) else Char.ofNat (0x57 + n)

/-- The last `width` hexadecimal digits of a number. -/
def hexDigits : Nat → Nat → List Char
  | 0, _ => []
  | width + 1, n => hexDigits width (n / 16) ++ [hexDigit (n % 16)]

/-- How one code point is written between quotes. -/
def quoteCodePoint (quote : Char) (c : CodePoint) : List Char :=
  if c.val = quote.toNat || c.val = '\\'.toNat then ['\\', Char.ofNat c.val]
  else if c.val = '\t'.toNat then ['\\', 't']
  else if c.val = '\n'.toNat then ['\\', 'n']
  else if c.val = '\r'.toNat then ['\\', 'r']
  else if isPrintable c.val then [Char.ofNat c.val]
  else if c.val < 0x100 then '\\' :: 'x' :: hexDigits 2 c.val
  else if c.val < 0x10000 then '\\' :: 'u' :: hexDigits 4 c.val
  else '\\' :: 'U' :: hexDigits 8 c.val

/-- The quote that a text is shown in. -/
def quoteFor (t : Text) : Char :=
  if t.any (·.val = '\''.toNat) && !t.any (·.val = '\"'.toNat) then '\"' else '\''

/-- A text inside quotes. -/
def quoted (t : Text) : String :=
  String.ofList (quoteFor t :: t.flatMap (quoteCodePoint (quoteFor t)) ++ [quoteFor t])

/-- A string inside quotes. -/
def quotedString (s : String) : String := quoted (ofString s)

example : quotedString "it's" = "\"it's\"" := by decide +kernel
example : quotedString "a\tb\\" = "'a\\tb\\\\'" := by decide +kernel

end ImageTransfer.Text
