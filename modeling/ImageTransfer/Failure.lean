import ImageTransfer.Compression.Format
import ImageTransfer.Digest.Address
import ImageTransfer.Image.Config
import ImageTransfer.Manifest
import ImageTransfer.Reference.Parser
import ImageTransfer.Registry.Settings
import ImageTransfer.Registry.Url

/-!
# Failures

Everything that can stop an operation, as a cause. A cause has a kind, by which callers tell
failures apart, and most have a text for people. The last few kinds are defects of the input that no
operation expects and that nothing is said about.
-/

namespace ImageTransfer

/-- The kind of a failure. -/
inductive FailureKind
  /-- A registry that behaves as it should not. -/
  | registry
  /-- A registry that is out of reach. -/
  | connection
  /-- A text that is no reference. -/
  | reference
  /-- A manifest, blob or name that is not there. -/
  | missing
  | manifest
  /-- A blob that could not be moved. -/
  | transfer
  /-- Content without its declared digest. -/
  | mismatch
  | config
  | decompression
  /-- An archive that could not be written. -/
  | archive
  /-- An argument that makes no sense. -/
  | argument
  /-- The machine. -/
  | system
  /-- A file whose directory is not there. -/
  | fileMissing
  /-- A directory where a file should be. -/
  | isDirectory
  /-- A value without the expected members. -/
  | members
  /-- A number out of every range. -/
  | range
  /-- Containers or directories nested too deeply. -/
  | nesting
  /-- Text that no encoding has. -/
  | encoding
deriving DecidableEq, Repr

namespace FailureKind

/-- Whether a kind belongs to the work with registries. -/
def isRegistry : FailureKind → Bool
  | registry | connection | reference | missing | manifest | transfer | mismatch | config
  | decompression | archive => true
  | _ => false

/-- Whether a kind belongs to the machine. -/
def isSystem : FailureKind → Bool
  | system | fileMissing | isDirectory => true
  | _ => false

end FailureKind

/-- Why an operation stopped. -/
inductive Failure
  | digest (e : Digest.Error)
  | settings (e : Settings.Error)
  | url (e : Url.Error)
  | reference (e : Reference.Error)
  | manifest (e : Manifest.Error)
  | config (e : ImageConfig.Error)
  /-- The registry has no such thing. -/
  | notFound (what : String)
  /-- The registry gave another answer than a success. -/
  | status (kind : FailureKind) (status : Int) (what : String)
  | unreachable (url reason : String)
  /-- The host answers, but not as a registry. -/
  | notRegistry (status : Int)
  | manifestFetch (reference reason : String)
  | manifestPush (reason : String)
  | download (digest reason : String)
  | upload (reason : String)
  | mount (digest reason : String)
  /-- Content has another digest than the declared one. -/
  | mismatch (what expected actual : String)
  /-- A layer that its decoder refuses. The reason that the decoder's library gives is not kept. -/
  | corruptStream (format : Compression)
  | truncatedStream (format : Compression)
  /-- An image without a tag has no name in an archive. -/
  | untagged (reference : String)
  | archive (reference reason : String)
  /-- The directories to pack are nested too deeply. -/
  | tooDeepTree
  | system (reason : String)
  | fileMissing (path : String)
  | isDirectory (path : String)

namespace Failure

/-- What is wrong with a document, of which two limits are failures of their own. -/
def kindOfDocument (e : Json.DocumentError) (malformed : FailureKind) : FailureKind :=
  match e with
  | .tooManyDigits _ => .argument
  | .tooDeep => .nesting
  | _ => malformed

/-- The kind of a failure. -/
def kind (f : Failure) : FailureKind :=
  match f with
  | .digest .. | .settings .. | .url .. => .argument
  | .reference _ => .reference
  | .manifest (.unreadable e) => kindOfDocument e .manifest
  | .manifest .boundlessSize => .range
  | .manifest _ => .manifest
  | .config (.unreadable e) => kindOfDocument e .config
  | .config .notMembers => .members
  | .config .tooNested => .nesting
  | .config _ => .config
  | .notFound _ | .untagged _ => .missing
  | .status kind _ _ => kind
  | .unreachable _ _ => .connection
  | .notRegistry _ => .registry
  | .manifestFetch _ _ | .manifestPush _ => .manifest
  | .download _ _ | .upload _ | .mount _ _ => .transfer
  | .mismatch _ _ _ => .mismatch
  | .corruptStream _ | .truncatedStream _ => .decompression
  | .archive _ _ => .archive
  | .tooDeepTree => .nesting
  | .system _ => .system
  | .fileMissing _ => .fileMissing
  | .isDirectory _ => .isDirectory

/-- What is said about a document that cannot be read. -/
def documentMessage (e : Json.DocumentError) (what : String) : Option String :=
  match e with
  | .tooManyDigits digits => some (Decimal.tooLongMessage digits)
  | .tooDeep => none
  | _ => e.reason?.map fun reason => s!"Failed to decode {what}: {reason}"

/-- What is said about a manifest. -/
def manifestMessage : Manifest.Error → Option String
  | .unreadable e => documentMessage e "manifest"
  | .notObject => some "Manifest must be a JSON object"
  | .listOfManifests mediaType =>
    some s!"Manifest lists are not supported (media type {mediaType.shown})"
  | .schemaVersion v => some s!"Unsupported manifest schema version: {v.shown}"
  | .noConfig => some "Manifest has no config descriptor"
  | .noLayers => some "Manifest has no layer list"
  | .badDescriptor v => some s!"Invalid descriptor: {v.shown}"
  | .badDigest v => some s!"Invalid digest in descriptor: {v.shown}"
  | .badSize named size => some s!"Invalid size in descriptor {named}: {size.shown}"
  | .boundlessSize => none

/-- What is said about a configuration. -/
def configMessage : ImageConfig.Error → Option String
  | .unreadable e => documentMessage e "image config"
  | .notObject => some "Image config must be a JSON object"
  | .unwritable e => some s!"Failed to encode image config: {e.message}"
  | .notMembers | .tooNested => none

/-- What is said about a failure. The words for a corrupt stream would go on with a colon and the reason
of the library that decodes its format. -/
def message (f : Failure) : Option String :=
  match f with
  | .digest e => some e.message
  | .settings e => some e.message
  | .url e => some e.message
  | .reference e => some e.message
  | .manifest e => manifestMessage e
  | .config e => configMessage e
  | .notFound what => some s!"{what} not found"
  | .status _ code what => some s!"Unexpected HTTP status {code} for {what}"
  | .unreachable host reason => some s!"Cannot connect to {host}: {reason}"
  | .notRegistry code => some s!"Registry v2 API check failed with HTTP status {code}"
  | .manifestFetch image reason => some s!"Failed to get manifest {image}: {reason}"
  | .manifestPush reason => some s!"Failed to upload manifest: {reason}"
  | .download blob reason => some s!"Failed to download blob {blob}: {reason}"
  | .upload reason => some s!"Failed to upload blob: {reason}"
  | .mount blob reason => some s!"Failed to mount blob {blob}: {reason}"
  | .mismatch what expected actual =>
    some s!"Digest for {what} does not match, pulled {expected}, calculated {actual}"
  | .corruptStream format => some s!"Failed to decompress {format.name} stream"
  | .truncatedStream format => some s!"Unexpected end of {format.name} stream"
  | .untagged image => some s!"Cannot export {image} without a tag to name it by"
  | .archive image reason => some s!"Failed to export {image}: {reason}"
  | .tooDeepTree => none
  | .system reason => some reason
  | .fileMissing path => some s!"[Errno 2] No such file or directory: {Text.quotedString path}"
  | .isDirectory path => some s!"[Errno 21] Is a directory: {Text.quotedString path}"

end Failure

end ImageTransfer
