import ImageTransfer.Digest.Digester
import ImageTransfer.Json.Document
import ImageTransfer.Json.Shown

/-!
# Image manifests

A manifest lists what an image is made of: a descriptor for its configuration and one for each of
its layers, the base layer first. Its bytes are kept as they came, for its digest names exactly
these bytes. Lists of manifests for several platforms are refused.
-/

namespace ImageTransfer

/-- What a manifest says about a blob. -/
structure Descriptor where
  digest : String
  /-- Any value, since nothing depends on it; empty text if it is not given. -/
  mediaType : Json.Value
  size : Int

/-- A manifest as it was received. -/
structure Manifest where
  raw : List UInt8
  members : Json.Members
  /-- The type it was served as, or the one it names itself. -/
  mediaType : Json.Value

namespace Manifest

/-- Why a manifest or a part of it is refused. -/
inductive Error
  | unreadable (e : Json.DocumentError)
  | notObject
  | listOfManifests (mediaType : Json.Value)
  | schemaVersion (v : Json.Value)
  | noConfig
  | noLayers
  | badDescriptor (v : Json.Value)
  | badDigest (v : Json.Value)
  | badSize (digest : String) (size : Json.Value)
  /-- The size is no finite number. -/
  | boundlessSize

/-- The media types of manifests of one image. -/
def imageMediaTypes : List String :=
  ["application/vnd.docker.distribution.manifest.v2+json",
    "application/vnd.oci.image.manifest.v1+json"]

/-- The media types of lists of manifests. -/
def listMediaTypes : List String :=
  ["application/vnd.docker.distribution.manifest.list.v2+json",
    "application/vnd.oci.image.index.v1+json"]

/-- The media type of a manifest that has none from anywhere. -/
def defaultMediaType : String := "application/vnd.oci.image.manifest.v1+json"

/-- The version of the manifest format. -/
def schemaVersion : Int := 2

/-- The manifest that bytes hold, served as `mediaType`, which is empty if that was not said. -/
def ofBytes (raw : List UInt8) (mediaType : String) : Except Error Manifest :=
  match Json.readDocument raw with
  | .error e => .error (.unreadable e)
  | .ok (.object members) =>
    let member (name : String) : Option Json.Value := Json.Members.get? members (Text.ofString name)
    let served := if mediaType ≠ "" then .ofString mediaType
      else (member "mediaType").getD (.ofString "")
    let version := (member "schemaVersion").getD .null
    if listMediaTypes.any served.equalsString || (member "manifests").isSome then
      .error (.listOfManifests served)
    else if !version.equalsInt schemaVersion then .error (.schemaVersion version)
    else .ok ⟨raw, members, if served.isTruthy then served else .ofString defaultMediaType⟩
  | .ok _ => .error .notObject

/-- The digest of the manifest. -/
def digest (m : Manifest) : String := Digest.canonical m.raw

/-- The value of a member of the manifest. -/
def get? (m : Manifest) (name : String) : Option Json.Value :=
  Json.Members.get? m.members (Text.ofString name)

end Manifest

/-- Whether a value is the address of a blob, which only text can be. -/
def Json.Value.isAddress (v : Json.Value) : Bool :=
  match v with
  | .text t => Digest.isAddress t.toString
  | _ => false

namespace Descriptor

/-- The size that a value gives. Text may give it too; of a number with a fraction the whole part
counts. -/
def sizeOf (digest : String) (v : Json.Value) : Except Manifest.Error Int :=
  match v with
  | .integer n => .ok n
  | .bool b => .ok (if b then 1 else 0)
  | .real (.finite negative m e) => .ok (Binary64.truncate negative m e)
  | .real (.infinite _) => .error .boundlessSize
  | .text t => match Decimal.readInteger (t.map Fin.val) with
    | .ok n => .ok n
    | .error _ => .error (.badSize digest v)
  | _ => .error (.badSize digest v)

/-- The descriptor that a value holds. -/
def ofValue (v : Json.Value) : Except Manifest.Error Descriptor :=
  match v with
  | .object _ =>
    match v.get? "digest" with
    | some (.text t) =>
      let digest := t.toString
      if Digest.isAddress digest then
        match sizeOf digest ((v.get? "size").getD (.integer 0)) with
        | .ok size => .ok ⟨digest, (v.get? "mediaType").getD (.ofString ""), size⟩
        | .error e => .error e
      else .error (.badDigest (.text t))
    | other => .error (.badDigest (other.getD .null))
  | _ => .error (.badDescriptor v)

end Descriptor

namespace Manifest

/-- The descriptor of the configuration. -/
def config (m : Manifest) : Except Error Descriptor :=
  match m.get? "config" with
  | some v => Descriptor.ofValue v
  | none => .error .noConfig

/-- The descriptors of the layers, the base layer first. -/
def layers (m : Manifest) : Except Error (List Descriptor) :=
  match m.get? "layers" with
  | some (.array vs) => vs.mapM Descriptor.ofValue
  | _ => .error .noLayers

end Manifest

end ImageTransfer
