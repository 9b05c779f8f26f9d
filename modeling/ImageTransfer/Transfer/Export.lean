import ImageTransfer.Archive.Index
import ImageTransfer.Archive.Tar.Writer
import ImageTransfer.Compression.Stream
import ImageTransfer.Registry.Chunks
import ImageTransfer.Transfer.Inspection

/-!
# Exporting images

A registry names a layer by the digest of the blob it serves, which may be compressed. An archive
names it by the digest of its content, its diff ID. So an export downloads each layer, decodes it
while it arrives, and puts the diff IDs into the configuration. All files are laid out in a
directory first, and only when the whole image is there it is packed into the sink:

* `<hash of the configuration>.json`,
* `manifest.json`, the index,
* `<hash of the diff ID>/layer.tar` for each layer; equal layers are laid out once.

The decoders of the formats are a parameter, so what is proved of an export holds whichever libraries
decode its layers; the program takes those of `Compression.decoder`.
-/

namespace ImageTransfer.Transfer

open Exchange

/-- What an export has written. -/
structure Exported where
  configDigest : String
  /-- The diff IDs of the layers, the base layer first. -/
  diffIds : List String
  entry : Archive.IndexEntry
deriving DecidableEq, Repr

/-- What the names of directories to work in begin with. -/
def workBeginning : String := "regcli-export-"

/-- What the names of provisional directories of layers begin with. -/
def layerBeginning : String := "layer-"

/-- The hash of a digest, which names files of an archive. -/
def fileStem (digest : String) : String :=
  match Digest.hashPart digest with
  | .ok hash => hash
  | .error _ => digest

/-- The file of a layer, in a directory of its own. -/
def layerPath (diffId : String) : Archive.Path := [fileStem diffId, Archive.layerFile]

/-- The file of a configuration. -/
def configFile (configDigest : String) : String := fileStem configDigest ++ ".json"

/-- A layer that is being received, with the decoders that it uses. -/
structure LayerIntake (decoders : Compression.Decoders) where
  /-- The digest of the blob as it is served. -/
  served : Digest.Digester
  /-- The digest of what has been decoded. -/
  decoded : Digest.Digester
  stream : Compression.Stream decoders

variable {decoders : Compression.Decoders}

namespace LayerIntake

/-- The failure of a stream. -/
def streamFailure : Compression.StreamError → Failure
  | .corrupt c => .corruptStream c
  | .truncated c => .truncatedStream c

/-- Before the first piece of a layer whose digest uses this algorithm. -/
def start (decoders : Compression.Decoders) (algorithm : Digest.Algorithm) : LayerIntake decoders :=
  ⟨.start algorithm, .start .canonical, .start decoders⟩

/-- A further piece of the blob, and what it decodes to. -/
def absorb (l : LayerIntake decoders) (piece : List UInt8) :
    Except Failure (LayerIntake decoders × List UInt8) :=
  match l with
  | ⟨served, decoded, stream⟩ =>
    match stream.feed piece with
    | .ok (stream, output) =>
      let output := output.toList
      .ok (⟨served.update piece, decoded.update output, stream⟩, output)
    | .error e => .error (streamFailure e)

/-- The end of the blob, and what was still to be decoded. -/
def close (l : LayerIntake decoders) : Except Failure (LayerIntake decoders × List UInt8) :=
  match l with
  | ⟨served, decoded, stream⟩ =>
    match stream.close with
    | .ok (stream, output) =>
      let output := output.toList
      .ok (⟨served, decoded.update output, stream⟩, output)
    | .error e => .error (streamFailure e)

/-- The name of the format that the layer is served in. -/
def formatName (l : LayerIntake decoders) : String :=
  (l.stream.format?.map Compression.name).getD "None"

end LayerIntake

/-- Takes what a layer goes on with, and adds what that decodes to to a file. -/
def receive (file : Archive.Path) (next : Except Failure (LayerIntake decoders × List UInt8)) :
    Exchange (LayerIntake decoders) := do
  let (intake, output) ← ofExcept next id
  appendFile file output
  return intake

variable (decoders)

/-- Downloads the layer of a digest into a file. -/
def receiveLayer (s : Settings) (ref : Reference) (digest : String) (file : Archive.Path) :
    Exchange (LayerIntake decoders) := do
  let algorithm ← ofExcept (Digest.algorithmOf (Digest.algorithmName digest)) .digest
  changeDisk (·.createFile file)
  let intake ← Registry.foldBlob s ref digest [] (.start decoders algorithm) fun intake piece =>
    receive file (intake.absorb piece)
  receive file intake.close

/-- Gives the directory of a layer its place, unless the same layer is there already. -/
def settleLayer (staging place : Archive.Path) (created : Timestamp) : Exchange Unit := do
  if ← isStored place then changeDisk (·.remove staging)
  else
    changeDisk (·.move staging place)
    changeDisk (·.setModified (place ++ [Archive.layerFile]) created.epochMicroseconds)
    changeDisk (·.setModified place created.epochMicroseconds)

/-- Downloads, decodes and lays out one layer, and gives its diff ID. The layer is in a provisional
directory until its diff ID is known. -/
def stageLayer (s : Settings) (policy : IntegrityPolicy) (ref : Reference) (created : Timestamp)
    (work : Archive.Path) (digest : String) : Exchange String := do
  let staging ← newDirectory work layerBeginning nameAttempts
  let intake ← receiveLayer decoders s ref digest (staging ++ [Archive.layerFile])
  let _ ← checkDigest policy s!"layer {digest}" digest intake.served.digest
  let diffId := intake.decoded.digest
  settleLayer staging (work ++ [fileStem diffId]) created
  let size := intake.decoded.size
  log .exporting .debug
    s!"Layer {digest} ({intake.formatName}) has diff ID {diffId}, {size} bytes uncompressed"
  return diffId

/-- Stages the layers in order, of which the first is number `index`, and gives their diff IDs. -/
def stageLayers (s : Settings) (policy : IntegrityPolicy) (ref : Reference) (created : Timestamp)
    (work : Archive.Path) (listens : Bool) (total : Int) :
    Int → List Descriptor → Exchange (List String)
  | _, [] => pure []
  | index, layer :: rest => do
    log .exporting .info s!"Export layer {layer.digest}"
    let diffId ←
      warnOnFailure .exporting (fun e => s!"Failed to export layer {layer.digest}: {e}")
        (stageLayer decoders s policy ref created work layer.digest)
    report listens index total s!"Exported layer {diffId}"
    let diffIds ← stageLayers s policy ref created work listens total (index + 1) rest
    return diffId :: diffIds

/-- Lays out the configuration and the index, and gives what the archive will hold. -/
def layOutIndex (work : Archive.Path) (name : String) (created : Timestamp) (config : Json.Members)
    (diffIds : List String) : Exchange Exported := do
  let bytes ← ofExcept (ImageConfig.bytes (ImageConfig.withDiffIds config diffIds)) .config
  let configDigest := Digest.canonical bytes
  let entry : Archive.IndexEntry :=
    ⟨configFile configDigest, [name], diffIds.map fun d => (layerPath d).text⟩
  storeFile (work ++ [entry.config]) bytes created.epochMicroseconds
  storeFile (work ++ [Archive.indexFile]) (Archive.indexBytes [entry]) 0
  return ⟨configDigest, diffIds, entry⟩

/-- Lays out a whole image in a directory. -/
def layOutImage (s : Settings) (policy : IntegrityPolicy) (ref : Reference) (name : String)
    (manifest : Manifest) (listens : Bool) (work : Archive.Path) : Exchange Exported := do
  let config ← fetchConfig s policy ref manifest
  let created := ImageConfig.created config
  let layers ← ofExcept manifest.layers .manifest
  let diffIds ← stageLayers decoders s policy ref created work listens layers.length 1 layers
  layOutIndex work name created config diffIds

/-- Packs a directory into the sink, record by record. Its files are this program's own, and reading
them is assumed to succeed. -/
def packDirectory (work : Archive.Path) : Exchange Unit := do
  let some bytes := Archive.Tar.pack? ((← get).disk.below work) | throw .tooDeepTree
  (Chunks.slices Archive.Tar.recordSize bytes).forM write

/-- Lays out an image in a directory and packs it. -/
def stageImage (s : Settings) (policy : IntegrityPolicy) (ref : Reference) (name : String)
    (manifest : Manifest) (listens : Bool) : Exchange Exported :=
  withWorkDirectory workBeginning fun work => do
    let exported ← layOutImage decoders s policy ref name manifest listens work
    packDirectory work
    return exported

/-- What a failure of the machine is called while an image is staged and packed. -/
def archiveFailure (ref : Reference) (f : Failure) : Failure :=
  if f.kind.isSystem then .archive ref.text (f.message.getD "") else f

/-- Exports an image to the sink, as an archive under the name that people know the image by. -/
def exportImage (s : Settings) (policy : Option IntegrityPolicy) (ref : Reference) (listens : Bool) :
    Exchange Exported := do
  let some name := ref.commonName | throw (.untagged ref.text)
  let manifest ← warnOnFailure .exporting (fun e => s!"Failed to get manifest {ref}: {e}")
    (Registry.getManifest s ref)
  let exported ← mapFailure (stageImage decoders s (policy.getD s.verify) ref name manifest listens)
    (archiveFailure ref)
  let layers := exported.diffIds.length
  log .exporting .info
    s!"Exported {name} with {layers} layers, config {exported.configDigest}"
  return exported

end ImageTransfer.Transfer
