import ImageTransfer.Json.Reader
import ImageTransfer.Json.Writer

/-!
# JSON documents as bytes

Files that this library writes are compact JSON in UTF-8, with text as it is. A document that cannot
be read reports where it fails; two limits of the reader are reported apart, since they say nothing
about the document's form.
-/

namespace ImageTransfer.Json

/-- The bytes of a value as a compact document. Text with a surrogate has none. -/
def document (v : Value) : Except EncodeError (List UInt8) := Text.encodeUtf8 (compact v)

/-- Why the form of a document is wrong, if that is what is wrong. -/
def DocumentError.reason? : DocumentError → Option String
  | .encoding e => some e.message
  | .malformed problem position => some s!"{problem.message}: {position}"
  | .tooManyDigits _ => none
  | .tooDeep => none

end ImageTransfer.Json
