import ImageTransfer.Registry.Address
import ImageTransfer.Text.Quoted
import ImageTransfer.Text.Utf8

/-!
# URLs

A registry answers an upload with the location to go on with, which may be a whole URL or a
reference relative to the registry. This module takes URLs apart, resolves references against a base
and writes query strings.
-/

namespace ImageTransfer.Url

/-- Why a text is not taken as a URL. -/
inductive Error
  /-- One of the brackets around a host is missing. -/
  | unpairedBracket
  /-- A host in brackets that begins with a `v` is not of that form. -/
  | badFutureAddress
  /-- A host in brackets is no address. -/
  | badAddress (host : String)
  /-- A host in brackets is an address that has no brackets. -/
  | octetsInBrackets
  /-- The host has a character that stands for a delimiter. -/
  | delimiterInHost (host : String)
deriving DecidableEq, Repr

/-- The text that reports the error. -/
def Error.message : Error → String
  | .unpairedBracket => "Invalid IPv6 URL"
  | .badFutureAddress => "IPvFuture address is invalid"
  | .badAddress host =>
    s!"{Text.quotedString host} does not appear to be an IPv4 or IPv6 address"
  | .octetsInBrackets => "An IPv4 address cannot be in brackets"
  | .delimiterInHost host =>
    s!"netloc '{host}' contains invalid characters under NFKC normalization"

/-- The parts of a URL, each without its delimiter; an empty part is absent. -/
structure Parts where
  scheme : List Char
  host : List Char
  path : List Char
  params : List Char
  query : List Char
  fragment : List Char

/-- A letter of ASCII. -/
def isLetter (c : Char) : Bool := ('a' ≤ c && c ≤ 'z') || ('A' ≤ c && c ≤ 'Z')

/-- A character of a scheme. -/
def isSchemeChar (c : Char) : Bool :=
  isLetter c || InternetAddress.isDigit c || c == '+' || c == '-' || c == '.'

/-- A small letter for a capital of ASCII. -/
def lowerAscii (c : Char) : Char :=
  if 'A' ≤ c ∧ c ≤ 'Z' then Char.ofNat (c.toNat + 0x20) else c

/-- The characters that have one of `/`, `?`, `#`, `@` and `:` in their compatibility form
(Unicode 14). A host with such a character could be taken for another host. -/
def lookLikeDelimiters : List Nat :=
  [0x2047, 0x2048, 0x2049, 0x2100, 0x2101, 0x2105, 0x2106, 0x2A74, 0xFE13, 0xFE16, 0xFE55, 0xFE56,
    0xFE5F, 0xFE6B, 0xFF03, 0xFF0F, 0xFF1A, 0xFF1F, 0xFF20]

/-- The checks of a host in brackets. -/
def checkBrackets (host : List Char) : Except Error Unit :=
  if host.contains '[' != host.contains ']' then .error .unpairedBracket
  else match (Text.splitFirst '[' host).2 with
    | none => .ok ()
    | some rest =>
      let inner := (Text.splitFirst ']' rest).1
      match inner with
      | 'v' :: version =>
        let digits := version.takeWhile InternetAddress.isHexDigit
        match version.dropWhile InternetAddress.isHexDigit with
        | '.' :: _ :: _ => if digits.isEmpty then .error .badFutureAddress else .ok ()
        | _ => .error .badFutureAddress
      | _ =>
        if InternetAddress.isVersion4 inner then .error .octetsInBrackets
        else if InternetAddress.isVersion6 inner then .ok ()
        else .error (.badAddress (String.ofList inner))

/-- The scheme in front of a URL, if it has one. -/
def splitScheme (cs : List Char) : Option (List Char × List Char) :=
  match Text.splitFirst ':' cs with
  | (first :: more, some rest) =>
    if isLetter first && more.all isSchemeChar then some ((first :: more).map lowerAscii, rest)
    else none
  | _ => none

/-- A path and the parameters of its last segment. -/
def splitParams (path : List Char) : List Char × List Char :=
  let (before, last) := match Text.splitLast? '/' path with
    | some (before, last) => (before ++ ['/'], last)
    | none => ([], path)
  let (name, params) := Text.splitFirst ';' last
  (before ++ name, params.getD [])

/-- A character that ends a host. -/
def isDelimiter (c : Char) : Bool := c == '/' || c == '?' || c == '#'

/-- The host in front of a URL without its scheme, which is empty if there is none, and the rest. -/
def splitHost (cs : List Char) : List Char × List Char :=
  match cs with
  | '/' :: '/' :: rest => (rest.takeWhile (!isDelimiter ·), rest.dropWhile (!isDelimiter ·))
  | _ => ([], cs)

/-- The checks of a host. -/
def checkHost (host : List Char) : Except Error Unit := do
  checkBrackets host
  if host.any fun c => lookLikeDelimiters.contains c.toNat then
    throw (.delimiterInHost (String.ofList host))

/-- The parts of a URL; one that names no scheme has the given one. Controls and blanks in front,
and all tabs and line breaks, do not count. -/
def split (defaultScheme : List Char) (url : String) : Except Error Parts := do
  let cs := url.toList.dropWhile (·.toNat ≤ 0x20)
  let cs := cs.filter fun c => c ≠ '\t' && c ≠ '\r' && c ≠ '\n'
  let (scheme, rest) := (splitScheme cs).getD (defaultScheme, cs)
  let (host, rest) := splitHost rest
  checkHost host
  let (rest, fragment) := Text.splitFirst '#' rest
  let (path, query) := Text.splitFirst '?' rest
  let (path, params) := splitParams path
  return ⟨scheme, host, path, params, query.getD [], fragment.getD []⟩

/-- The text of the parts of a URL with a host. -/
def Parts.text (p : Parts) : String :=
  let path := if p.params.isEmpty then p.path else p.path ++ ';' :: p.params
  let path := match path with
    | [] | '/' :: _ => path
    | _ => '/' :: path
  String.ofList (p.scheme ++ "://".toList ++ p.host ++ path ++
    (if p.query.isEmpty then [] else '?' :: p.query) ++
    (if p.fragment.isEmpty then [] else '#' :: p.fragment))

/-- Path segments without `.`, and without `..` and what it takes back. -/
def withoutDots (segments : List (List Char)) : List (List Char) :=
  let kept := segments.foldl (fun kept s =>
    if s = ['.', '.'] then kept.dropLast else if s = ['.'] then kept else kept ++ [s]) []
  match segments.getLast? with
  | some s => if s = ['.'] ∨ s = ['.', '.'] then kept ++ [[]] else kept
  | none => kept

/-- The segments of a path that is relative to a base path. -/
def relativeSegments (base path : List Char) : List (List Char) :=
  let baseSegments := Text.splitAll '/' base
  let baseSegments :=
    if (baseSegments.getLast?.getD []).isEmpty then baseSegments else baseSegments.dropLast
  match baseSegments ++ Text.splitAll '/' path with
  | [] => []
  | [only] => [only]
  | first :: rest =>
    first :: (rest.dropLast.filter (!·.isEmpty) ++ [rest.getLast?.getD []])

/-- A path resolved against a base path. -/
def resolvePath (base path : List Char) : List Char :=
  let segments := match path with
    | '/' :: _ => Text.splitAll '/' path
    | _ => relativeSegments base path
  match Text.joinWith '/' (withoutDots segments) with
  | [] => ['/']
  | resolved => resolved

/-- The parts of a reference resolved against those of a base with the same scheme. -/
def Parts.resolve (b r : Parts) : Parts :=
  if !r.host.isEmpty then r
  else if r.path.isEmpty && r.params.isEmpty then
    { b with query := if r.query.isEmpty then b.query else r.query, fragment := r.fragment }
  else { r with host := b.host, path := resolvePath b.path r.path }

/-- A reference resolved against a base URL of the web. A reference with another scheme than the
base stands for itself. -/
def resolve (base reference : String) : Except Error String := do
  if reference = "" then return base
  let b ← split [] base
  let r ← split b.scheme reference
  return if r.scheme = b.scheme then (b.resolve r).text else reference

/-- A byte that stands for itself in a query. -/
def isUnreserved (b : UInt8) : Bool :=
  let c := Char.ofNat b.toNat
  isLetter c || InternetAddress.isDigit c || c == '_' || c == '.' || c == '-' || c == '~'

/-- A capital hexadecimal digit. -/
def capitalHexDigit (n : Nat) : Char :=
  if n < 10 then Char.ofNat (0x30 + n) else Char.ofNat (0x37 + n)

/-- A byte in a query: a blank becomes a plus, and one that does not stand for itself is spelled
out. -/
def encodeByte (b : UInt8) : List Char :=
  if isUnreserved b then [Char.ofNat b.toNat]
  else if b == 0x20 then ['+']
  else ['%', capitalHexDigit (b.toNat / 16), capitalHexDigit (b.toNat % 16)]

/-- A value in a query. -/
def encodeValue (s : String) : String := String.ofList ((Text.utf8OfString s).flatMap encodeByte)

/-- A query of names and values. -/
def query (fields : List (String × String)) : String :=
  String.intercalate "&" (fields.map fun (name, value) => name ++ "=" ++ encodeValue value)

end ImageTransfer.Url
