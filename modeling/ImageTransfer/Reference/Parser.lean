import ImageTransfer.Digest.Address
import ImageTransfer.Reference.Basic
import ImageTransfer.Text.Blank

/-!
# Reading references

A reference is written `[host/]path[:tag][@digest]`. The first `@` begins the digest; the last `:`
after the last `/` begins the tag; and the first part of the path is a host if it looks like one,
that is, if it has a dot or a colon or is `localhost`.
-/

namespace ImageTransfer.Reference

/-- Why a text is not a reference. -/
inductive Error
  /-- The text is empty or has blanks around it. -/
  | blank (text : String)
  | badDigest (text : String)
  | badTag (text : String)
  | badRepository (text : String)
deriving DecidableEq, Repr

/-- The text that reports the error. -/
def Error.message : Error → String
  | .blank text => s!"Invalid reference: {Text.quotedString text}"
  | .badDigest text => s!"Invalid digest in reference: {text}"
  | .badTag text => s!"Invalid tag in reference: {text}"
  | .badRepository text => s!"Invalid repository name in reference: {text}"

/-- A letter or digit of a path. -/
def isPathChar (c : Char) : Bool := ('a' ≤ c && c ≤ 'z') || ('0' ≤ c && c ≤ '9')

/-- Where the check of a path component stands between two characters. -/
inductive PathState
  /-- A letter or digit has to come. -/
  | expecting
  /-- Inside a run of letters and digits; the component may end here. -/
  | word
  /-- After a single underscore, which a second one may follow. -/
  | underscore
  /-- After dashes, which more may follow. -/
  | dash
deriving DecidableEq, Repr

/-- The state after one more character. -/
def PathState.next? (s : PathState) (c : Char) : Option PathState :=
  if isPathChar c then some .word
  else match s, c with
    | .word, '.' => some .expecting
    | .word, '_' => some .underscore
    | .word, '-' => some .dash
    | .underscore, '_' => some .expecting
    | .dash, '-' => some .dash
    | _, _ => none

/-- Whether characters are runs of letters and digits with a `.`, `_`, `__` or a row of dashes
between neighbouring runs. -/
def isComponentFrom (s : PathState) : List Char → Bool
  | [] => s == .word
  | c :: rest => match s.next? c with
    | some t => isComponentFrom t rest
    | none => false

/-- Whether a text is a component of a repository path, up to the end of its line. -/
def isPathComponent (cs : List Char) : Bool :=
  isComponentFrom .expecting (Digest.dropFinalNewline cs)

/-- A character that a tag may begin with. -/
def isTagStart (c : Char) : Bool :=
  ('a' ≤ c && c ≤ 'z') || ('A' ≤ c && c ≤ 'Z') || ('0' ≤ c && c ≤ '9') || c == '_'

/-- A character that a tag may go on with. -/
def isTagChar (c : Char) : Bool := isTagStart c || c == '.' || c == '-'

/-- Whether a text is a tag of at most 128 characters, up to the end of its line. -/
def isTag (cs : List Char) : Bool :=
  match Digest.dropFinalNewline cs with
  | [] => false
  | c :: rest => isTagStart c && rest.all isTagChar && rest.length ≤ 127

/-- Whether the first part of a path looks like a host. -/
def isHost (cs : List Char) : Bool :=
  cs.contains '.' || cs.contains ':' || cs == "localhost".toList

/-- Other names of the Docker Hub. -/
def dockerHubAliases : List String := ["index.docker.io", dockerHubHost]

/-- The text before the tag, and the tag: the last colon counts if no slash follows it. -/
def splitTag (cs : List Char) : List Char × Option (List Char) :=
  match Text.splitLast? ':' cs with
  | some (before, after) => if after.contains '/' then (cs, none) else (before, some after)
  | none => (cs, none)

/-- The host and the path components, with the conventions of the Docker Hub. -/
def splitHost (cs : List Char) : String × List (List Char) :=
  let parts := Text.splitAll '/' cs
  let (registry, path) := match parts with
    | first :: second :: more =>
      if isHost first then (String.ofList first, second :: more) else (dockerHub, parts)
    | _ => (dockerHub, parts)
  let registry := if dockerHubAliases.contains registry then dockerHub else registry
  match path with
  | [name] => if registry = dockerHub then (registry, ["library".toList, name]) else (registry, path)
  | _ => (registry, path)

/-- The reference that a text denotes. -/
def parse (text : String) : Except Error Reference :=
  let cs := text.toList
  if cs.isEmpty || Text.trimBlank Char.toNat cs ≠ cs then .error (.blank text)
  else
    let (named, digest) := Text.splitFirst '@' cs
    let digest := digest.map String.ofList
    if digest.any fun d => !Digest.isAddress d then .error (.badDigest text)
    else
      let (located, tag) := splitTag named
      if tag.any fun t => !isTag t then .error (.badTag text)
      else
        let (registry, path) := splitHost located
        if !path.all isPathComponent then .error (.badRepository text)
        else
          let tag := tag.map String.ofList
          .ok {
            registry := registry
            repository := String.ofList (Text.joinWith '/' path)
            tag := if tag.isNone && digest.isNone then some defaultTag else tag
            digest := digest }

end ImageTransfer.Reference
