import ImageTransfer.Registry.Upload

/-!
# Copying images

An image is copied blob by blob, the configuration first and then the layers, and its manifest comes
last. So the target never has a manifest without the blobs that it lists.
-/

namespace ImageTransfer.Transfer

open Exchange

/-- Copies a blob of an image and reports it as number `index` of `total`. -/
def copyPart (s : Settings) (source target : Reference) (listens : Bool) (total : Int) (what : String)
    (index : Int) (digest : String) : Exchange Unit := do
  log .copying .info s!"Copy {what} {digest}"
  warnOnFailure .copying (fun e => s!"Failed to copy {what} {digest} to {target}: {e}")
    (Registry.copyBlob s source target digest false)
  report listens index total s!"Copied {what} {digest}"

/-- Copies the layers of an image in order, from the one that is number `index` on. -/
def copyLayers (s : Settings) (source target : Reference) (listens : Bool) (total : Int) :
    Int → List Descriptor → Exchange Unit
  | _, [] => pure ()
  | index, layer :: rest => do
    copyPart s source target listens total "layer" index layer.digest
    copyLayers s source target listens total (index + 1) rest

/-- Copies the configuration and the layers of an image. -/
def copyParts (s : Settings) (source target : Reference) (listens : Bool) (config : Descriptor)
    (layers : List Descriptor) : Exchange Unit := do
  let total : Int := layers.length + 1
  copyPart s source target listens total "config" 1 config.digest
  copyLayers s source target listens total 2 layers

/-- Copies an image and gives the digest of its manifest at the target. -/
def copyImage (s : Settings) (source target : Reference) (listens : Bool) : Exchange String := do
  let manifest ←
    warnOnFailure .copying (fun e => s!"Failed to get source manifest {source}: {e}")
      (Registry.getManifest s source)
  let config ← ofExcept manifest.config .manifest
  let layers ← ofExcept manifest.layers .manifest
  copyParts s source target listens config layers
  let digest ←
    warnOnFailure .copying (fun e => s!"Failed to push manifest to {target}: {e}")
      (Registry.putManifest s target manifest)
  log .copying .info s!"Copied {source} to {target} ({digest})"
  return digest

end ImageTransfer.Transfer
