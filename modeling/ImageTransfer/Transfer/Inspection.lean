import ImageTransfer.Registry.Client
import ImageTransfer.Transfer.Integrity

/-!
# Inspecting images

The configuration of an image is a blob that the manifest names. It is downloaded whole, compared
with its digest and decoded.
-/

namespace ImageTransfer.Transfer

open Exchange

/-- The media types of configurations. -/
def configMediaTypes : List String :=
  ["application/vnd.docker.container.image.v1+json", "application/vnd.oci.image.config.v1+json"]

/-- The configuration that a manifest names. -/
def fetchConfig (s : Settings) (policy : IntegrityPolicy) (ref : Reference) (manifest : Manifest) :
    Exchange Json.Members := do
  let descriptor ← ofExcept manifest.config .manifest
  let bytes ←
    warnOnFailure .inspecting (fun e => s!"Failed to get config {descriptor.digest} for {ref}: {e}")
      (Registry.readBlob s ref descriptor.digest configMediaTypes)
  let algorithm ← ofExcept (Digest.algorithmOf (Digest.algorithmName descriptor.digest)) .digest
  let _ ← checkDigest policy "image config" descriptor.digest (Digest.ofBytes algorithm bytes)
  ofExcept (ImageConfig.ofBytes bytes) .config

/-- The configuration of an image. -/
def inspectImage (s : Settings) (policy : Option IntegrityPolicy) (ref : Reference) :
    Exchange Json.Members := do
  let manifest ← Registry.getManifest s ref
  fetchConfig s (policy.getD s.verify) ref manifest

end ImageTransfer.Transfer
