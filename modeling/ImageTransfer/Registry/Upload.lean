import ImageTransfer.Registry.Client

/-!
# Uploads

An upload begins with a request for a place to send to. Each chunk then goes to the place that the
last answer named, and a last request names the digest, by which the registry checks what it got. A
blob that another repository of the same registry has can be mounted instead. A blob that is copied
between registries is sent on while it is read.
-/

namespace ImageTransfer.Registry

open Exchange

/-- How far an upload has come. -/
structure UploadState where
  /-- Where the next request goes. -/
  url : String
  /-- How many bytes have been accepted. -/
  accepted : Nat

/-- What an upload is about. -/
structure UploadTask where
  ref : Reference
  digest : String
  listens : Bool
  /-- The size of the blob for reports of progress. -/
  total : Int

/-- What comes of an accepted request: the place for the next one. -/
def nextPlace (s : Settings) (ref : Reference) (r : Response) : Exchange String :=
  ofExcept (locate s ref (r.header "Location")) .url

/-- How much of a digest is shown while a blob is uploaded. -/
def shownDigestLength : Nat := 19

/-- The request that begins an upload. -/
def uploadStart (s : Settings) (ref : Reference) : Request := ⟨.post, uploadsUrl s ref, [], none⟩

/-- The request that sends a chunk to a place. -/
def chunkPatch (place : String) (chunk : List UInt8) : Request :=
  ⟨.patch, place, [textHeader "Content-Type" "application/octet-stream",
    textHeader "Content-Length" (toString chunk.length)], some chunk⟩

/-- Begins an upload. -/
def beginUpload (s : Settings) (t : UploadTask) : Exchange UploadState :=
  withResponse (uploadStart s t.ref) .upload fun r => do
    expect r s!"Upload to {t.ref.repository}" .transfer [202]
    return ⟨← nextPlace s t.ref r, 0⟩

/-- Sends one chunk. -/
def sendChunk (s : Settings) (t : UploadTask) (state : UploadState) (chunk : List UInt8) :
    Exchange UploadState := do
  let url ← withResponse (chunkPatch state.url chunk) .upload fun r => do
    expect r s!"Blob upload {t.digest}" .transfer [202]
    nextPlace s t.ref r
  let accepted := state.accepted + chunk.length
  let shown := String.ofList (t.digest.toList.take shownDigestLength)
  report t.listens accepted t.total s!"Uploading {shown}..."
  return ⟨url, accepted⟩

/-- Where the digest is named: at the place of the upload, with one more parameter. -/
def finalUrl (place digest : String) : String :=
  place ++ (if place.toList.contains '?' then "&" else "?") ++ Url.query [("digest", digest)]

/-- The request that ends an upload at a place and names the digest. -/
def uploadEnd (place digest : String) : Request :=
  ⟨.put, finalUrl place digest, [textHeader "Content-Length" "0"], none⟩

/-- Ends an upload. -/
def endUpload (t : UploadTask) (state : UploadState) : Exchange String :=
  withResponse (uploadEnd state.url t.digest) .upload fun r => do
    expect r s!"Blob upload {t.digest}" .transfer [201, 204]
    return t.digest

/-- Uploads a blob, of which `send` sends the content. -/
def uploadWith (s : Settings) (t : UploadTask) (send : UploadState → Exchange UploadState) :
    Exchange String := do
  checkAddress t.digest
  ensureSession s.timeout
  let state ← beginUpload s t
  let state ← send state
  endUpload t state

/-- Uploads a blob in chunks. -/
def uploadChunks (s : Settings) (t : UploadTask) (chunks : List (List UInt8)) : Exchange String :=
  uploadWith s t fun state => chunks.foldlM (sendChunk s t) state

/-- Uploads a blob that is at hand. -/
def upload (s : Settings) (ref : Reference) (digest : String) (listens : Bool) (data : List UInt8) :
    Exchange String :=
  uploadChunks s ⟨ref, digest, listens, data.length⟩ (Chunks.slices s.chunkSize data)

/-- Uploads a blob that comes in pieces. -/
def uploadPieces (s : Settings) (ref : Reference) (digest : String) (listens : Bool) (total : Int)
    (pieces : List (List UInt8)) : Exchange String :=
  uploadChunks s ⟨ref, digest, listens, total⟩ (Chunks.rechunk s.chunkSize pieces)

/-- Sends each chunk of a blob as soon as it is full, and gives what is left for the last one when the
whole blob has been read. -/
def sendFullChunks (s : Settings) (t : UploadTask) (state : UploadState) (blob : Response) :
    Exchange (UploadState × Option (List UInt8)) := do
  let regrouped := Chunks.regroup s.chunkSize (Chunks.slices s.readChunkSize blob.body)
  let state ← regrouped.chunks.foldlM (sendChunk s t) state
  match blob.broken with
  | none => return (state, regrouped.rest?)
  | some f => throw (f.failure (.download t.digest))

/-- Sends a blob on while it is read from another repository. -/
def relayBlob (s : Settings) (source : Reference) (t : UploadTask) (state : UploadState) :
    Exchange UploadState := do
  let (state, rest?) ← withBlob s source t.digest [] (sendFullChunks s t state)
  match rest? with
  | none => return state
  | some rest => sendChunk s t state rest

/-- Uploads a blob that is read from another repository at the same time. -/
def uploadFrom (s : Settings) (source ref : Reference) (digest : String) (listens : Bool) :
    Exchange String :=
  let t : UploadTask := ⟨ref, digest, listens, 0⟩
  uploadWith s t (relayBlob s source t)

/-- Where a blob is mounted. -/
def mountUrl (s : Settings) (source target : Reference) (digest : String) : String :=
  uploadsUrl s target ++ "?" ++ Url.query [("mount", digest), ("from", source.repository)]

/-- The request that mounts a blob. -/
def mountRequest (s : Settings) (source target : Reference) (digest : String) : Request :=
  ⟨.post, mountUrl s source target digest, [], none⟩

/-- The request that gives up an upload. -/
def uploadDelete (place : String) : Request := ⟨.delete, place, [], none⟩

/-- Gives up an upload that the registry began in place of a mount, if it named a place for one. -/
def abandonUpload (s : Settings) (target : Reference) (digest location : String) :
    Exchange Unit :=
  if location = "" then pure ()
  else do
    let place ← ofExcept (locate s target location) .url
    withResponseOr (uploadDelete place)
      (log .client .debug s!"Could not cancel upload session for {digest}") fun _ => pure ()

/-- Mounts a blob of another repository, and says whether the registry did so. If it began an upload
instead, that is given up. -/
def mountBlob (s : Settings) (source target : Reference) (digest : String) : Exchange Bool := do
  ensureSession s.timeout
  let location? ← withResponse (mountRequest s source target digest) (.mount digest) fun r => do
    if r.status = 201 then return none
    expect r s!"Mount of {digest}" .transfer [202]
    return some (r.header "Location")
  match location? with
  | none => return true
  | some location =>
    abandonUpload s target digest location
    return false

/-- Mounts a blob if that is possible, and says whether that was done: the repositories have to be
two of one registry. -/
def mountNeighbour (s : Settings) (source target : Reference) (digest : String) : Exchange Bool :=
  if source.registry = target.registry ∧ source.repository ≠ target.repository then
    mountBlob s source target digest
  else pure false

/-- Copies a blob: not at all if the target has it, by a mount if both repositories are at one
registry, and else by an upload. -/
def copyBlob (s : Settings) (source target : Reference) (digest : String) (listens : Bool) :
    Exchange Unit := do
  if ← hasBlob s target digest then
    log .client .debug s!"Blob {digest} already present in {target.repository}"
  else if ← mountNeighbour s source target digest then
    log .client .debug s!"Mounted {digest} from {source.repository}"
  else
    let _ ← uploadFrom s source target digest listens
    pure ()

end ImageTransfer.Registry
