import ImageTransfer.Exchange.World
import ImageTransfer.Registry.Chunks

/-!
# Registry clients

What all requests of a client have in common: where they go, which statuses are successes, and how a
registry is probed. A client opens a session with its first request and keeps it.
-/

namespace ImageTransfer.Registry

open Exchange

/-- Fails unless a status is an expected one. What is not there is not there, whatever was asked. -/
def checkStatus (status : Int) (what : String) (kind : FailureKind) (expected : List Int) :
    Except Failure Unit :=
  if expected.contains status then .ok ()
  else if status = 404 then .error (.notFound what)
  else .error (.status kind status what)

/-- Fails unless a response has an expected status. -/
def expect (r : Response) (what : String) (kind : FailureKind) (expected : List Int) :
    Exchange Unit :=
  ofExcept (checkStatus r.status what kind expected) id

/-- Where a resource of a repository is. -/
def urlOf (s : Settings) (ref : Reference) (path : String) : String :=
  s.baseUrl ref.registry ++ "/v2/" ++ ref.repository ++ "/" ++ path

/-- Where the manifest of a reference is. -/
def manifestUrl (s : Settings) (ref : Reference) : String :=
  urlOf s ref ("manifests/" ++ ref.manifestReference)

/-- Where a blob is. -/
def blobUrl (s : Settings) (ref : Reference) (digest : String) : String :=
  urlOf s ref ("blobs/" ++ digest)

/-- Where uploads begin. -/
def uploadsUrl (s : Settings) (ref : Reference) : String := urlOf s ref "blobs/uploads/"

/-- A location that a registry has answered with. -/
def locate (s : Settings) (ref : Reference) (location : String) : Except Url.Error String :=
  Url.resolve (s.baseUrl ref.registry ++ "/") location

/-- Where a registry says whether it is one. -/
def probeUrl (s : Settings) (registry : String) : String := s.baseUrl registry ++ "/v2/"

/-- The statuses by which a registry shows that it is one: it may ask for credentials. -/
def probeStatuses : List Int := [200, 401]

/-- The field that names the version of a registry's API. -/
def versionField : String := "Docker-Distribution-Api-Version"

/-- Whether a value of that field names the second version. -/
def namesVersion2 (value : String) : Bool := "registry/2.0".toList.isPrefixOf value.toList

/-- Whether fields, whose names are told apart by the size of letters too, name the second
version. -/
def announcesVersion2 (headers : List (String × String)) : Bool :=
  namesVersion2 (((headers.find? (·.1 == versionField)).map (·.2)).getD "")

/-- Fails unless a status shows that the host is a registry. -/
def checkProbe (status : Int) : Except Failure Unit :=
  if probeStatuses.contains status then .ok () else .error (.notRegistry status)

/-- A request to get something. -/
def getRequest (url : String) (headers : List (String × Json.Value)) : Request :=
  ⟨.get, url, headers, none⟩

/-- What a manifest may be served as. -/
def manifestAccept : String :=
  String.intercalate ", " (Manifest.imageMediaTypes ++ Manifest.listMediaTypes)

/-- The request for a manifest. -/
def manifestRequest (s : Settings) (ref : Reference) : Request :=
  getRequest (manifestUrl s ref) [textHeader "Accept" manifestAccept]

/-- The request that puts a manifest. -/
def manifestPut (s : Settings) (ref : Reference) (manifest : Manifest) : Request :=
  ⟨.put, manifestUrl s ref, [("Content-Type", manifest.mediaType),
    textHeader "Content-Length" (toString manifest.raw.length)], some manifest.raw⟩

/-- The request that asks whether a blob is there. -/
def blobQuestion (s : Settings) (ref : Reference) (digest : String) : Request :=
  ⟨.head, blobUrl s ref digest, [], none⟩

/-- The request for a blob. -/
def blobRequest (s : Settings) (ref : Reference) (digest : String) (accept : List String) : Request :=
  getRequest (blobUrl s ref digest)
    (if accept.isEmpty then [] else [textHeader "Accept" (String.intercalate ", " accept)])

/-- What a response says that its body is, without parameters. -/
def contentType (r : Response) : String :=
  Text.trim (String.ofList (Text.splitFirst ';' (r.header "Content-Type").toList).1)

/-- The digest that a caller gives for a blob, which has to be an address. -/
def checkAddress (digest : String) : Exchange Unit :=
  if Digest.isAddress digest then pure () else throw (.digest (.malformed digest))

/-- Whether a registry has the second version of the API. One that is out of reach has not. -/
def supportsVersion2 (s : Settings) (registry : String) : Exchange Bool := do
  ensureSession s.timeout
  withResponseOr (getRequest (probeUrl s registry) []) (pure false) fun r =>
    pure (probeStatuses.contains r.status || namesVersion2 (r.header versionField))

/-- Probes a registry in a session of its own. -/
def probe (s : Settings) (registry : String) : Exchange Unit := do
  let url := probeUrl s registry
  note (.sessionOpened .probe s.timeout)
  let status ← withCleanup
    (withResponse (getRequest url []) (.unreachable url) fun r => pure r.status)
    (·.note (.sessionClosed .probe))
  ofExcept (checkProbe status) id

/-- Gets a manifest. -/
def getManifest (s : Settings) (ref : Reference) : Exchange Manifest := do
  ensureSession s.timeout
  log .client .debug s!"GET {manifestUrl s ref}"
  let explain := Failure.manifestFetch ref.text
  let (raw, mediaType) ← withResponse (manifestRequest s ref) explain fun r => do
    expect r s!"Manifest {ref}" .manifest [200]
    let raw ← readBody r explain
    return (raw, contentType r)
  ofExcept (Manifest.ofBytes raw mediaType) .manifest

/-- Puts a manifest, byte for byte, and gives the digest that the registry names. -/
def putManifest (s : Settings) (ref : Reference) (manifest : Manifest) : Exchange String := do
  ensureSession s.timeout
  log .client .debug s!"PUT {manifestUrl s ref}"
  withResponse (manifestPut s ref manifest) .manifestPush fun r => do
    expect r s!"Manifest {ref}" .manifest [200, 201, 202]
    let named := r.header "Docker-Content-Digest"
    return if named = "" then manifest.digest else named

/-- Whether a registry has a blob. One that is out of reach has not. -/
def hasBlob (s : Settings) (ref : Reference) (digest : String) : Exchange Bool := do
  ensureSession s.timeout
  withResponseOr (blobQuestion s ref digest) (pure false) fun r => pure (r.status == 200)

/-- Gets a blob and uses the response. -/
def withBlob {α : Type} (s : Settings) (ref : Reference) (digest : String) (accept : List String)
    (use : Response → Exchange α) : Exchange α := do
  checkAddress digest
  ensureSession s.timeout
  log .client .debug s!"GET {blobUrl s ref digest}"
  withResponse (blobRequest s ref digest accept) (.download digest) fun r => do
    expect r s!"Blob {digest}" .transfer [200]
    use r

/-- Gets a blob and goes through it piece by piece. -/
def foldBlob {σ : Type} (s : Settings) (ref : Reference) (digest : String) (accept : List String)
    (start : σ) (step : σ → List UInt8 → Exchange σ) : Exchange σ :=
  withBlob s ref digest accept fun r => do
    let final ← (Chunks.slices s.readChunkSize r.body).foldlM step start
    match r.broken with
    | none => return final
    | some f => throw (f.failure (.download digest))

/-- Gets a whole blob. -/
def readBlob (s : Settings) (ref : Reference) (digest : String) (accept : List String) :
    Exchange (List UInt8) := do
  let bytes ← foldBlob s ref digest accept #[] fun (done : Array UInt8) piece =>
    pure (done.appendList piece)
  return bytes.toList

end ImageTransfer.Registry
