import ImageTransfer.Proofs.Exchange.Failures
import ImageTransfer.Proofs.Image.Refusals
import ImageTransfer.Transfer.ByName

/-!
# What operations fail with

Most failures of an operation are what it is there to report: registries that do not behave, content
that is not what it should be, arguments that make no sense. Besides these the machine may fail,
which is a failure as it is unless an export calls it by another name. And manifests and
configurations can be of a kind that nobody expects: nested too deeply, or with a size that is out of
range.

So what an operation fails with is a matter of three groups of kinds. `Covers` says that the first
two are allowed, and `CoversDocuments` adds the third.
-/

namespace ImageTransfer.Transfer

open Exchange Registry

/-- The kinds that work with registries fails with as it should, and those of the machine. -/
structure Covers (K : FailureKind → Prop) : Prop where
  registry : ∀ {k}, k.isRegistry = true → K k
  argument : K .argument
  system : K .system

/-- And those that come of documents that nobody expects. -/
structure CoversDocuments (K : FailureKind → Prop) : Prop extends Covers K where
  nesting : K .nesting
  range : K .range

variable {decoders : Compression.Decoders} {α σ : Type} {K : FailureKind → Prop} {s : Settings}
  {ref : Reference} {policy : IntegrityPolicy} {work : Archive.Path} {created : Timestamp}

/-! ## What registries answer with -/

theorem Covers.of_checkStatus (hK : Covers K) {status : Int} {what : String} {kind : FailureKind}
    (hkind : kind.isRegistry = true) {expected : List Int} {e : Failure}
    (h : checkStatus status what kind expected = .error e) : K e.kind := by
  unfold checkStatus at h
  split at h
  · cases h
  · split at h
    · cases h
      exact hK.registry rfl
    · cases h
      exact hK.registry hkind

theorem Covers.failsIn_expect (hK : Covers K) (response : Response) (what : String)
    {kind : FailureKind} (hkind : kind.isRegistry = true) (expected : List Int) :
    FailsIn K (expect response what kind expected) :=
  failsIn_ofExcept fun _ => hK.of_checkStatus hkind

/-- A body that breaks off is explained, unless that is the fault of the machine. -/
theorem Covers.of_wholeBody (hK : Covers K) {response : Response} {explain : String → Failure}
    (hexplain : ∀ reason, K (explain reason).kind) {e : Failure}
    (h : wholeBody response explain = .error e) : K e.kind := by
  unfold wholeBody at h
  split at h
  · cases h
  · cases h
    exact kind_failure hK.system hexplain _

theorem Covers.failsIn_checkAddress (hK : Covers K) (digest : String) :
    FailsIn K (checkAddress digest) := failsIn_ite (failsIn_pure _) (failsIn_throw hK.argument)

theorem Covers.failsIn_withBlob (hK : Covers K) {digest : String} {accept : List String}
    {use : Response → Exchange α} (hu : ∀ response, FailsIn K (use response)) :
    FailsIn K (withBlob s ref digest accept use) := by
  refine failsIn_bind (hK.failsIn_checkAddress _) fun _ =>
    failsIn_bind (failsIn_ensureSession _) fun _ => failsIn_bind (failsIn_log _ _ _) fun _ => ?_
  exact failsIn_withResponse hK.system (fun _ => hK.registry rfl) fun response =>
    failsIn_bind (hK.failsIn_expect _ _ rfl _) fun _ => hu response

/-- A body that is gone through ends well, or in a fault. -/
theorem Covers.failsIn_ending (hK : Covers K) (response : Response) (digest : String) (a : α) :
    FailsIn K (match response.broken with
      | none => pure a
      | some f => throw (f.failure (.download digest)) : Exchange α) := by
  split
  · exact failsIn_pure _
  · exact failsIn_throw (kind_failure hK.system (fun _ => hK.registry rfl) _)

theorem Covers.failsIn_foldBlob (hK : Covers K) {digest : String} {accept : List String} {start : σ}
    {step : σ → List UInt8 → Exchange σ} (hstep : ∀ state piece, FailsIn K (step state piece)) :
    FailsIn K (foldBlob s ref digest accept start step) :=
  hK.failsIn_withBlob fun response =>
    failsIn_bind (failsIn_foldlM hstep _ _) fun final => hK.failsIn_ending response digest final

theorem Covers.failsIn_readBlob (hK : Covers K) {digest : String} {accept : List String} :
    FailsIn K (readBlob s ref digest accept) :=
  failsIn_bind (hK.failsIn_foldBlob fun _ _ => failsIn_pure _) fun _ => failsIn_pure _

theorem Covers.failsIn_algorithmOf (hK : Covers K) (name : String) :
    FailsIn K (ofExcept (Digest.algorithmOf name) .digest) :=
  failsIn_ofExcept fun _ _ => hK.argument

theorem Covers.failsIn_checkDigest (hK : Covers K) (what expected actual : String) :
    FailsIn K (checkDigest policy what expected actual) := by
  refine failsIn_ite (failsIn_pure _) ?_
  cases policy with
  | strict => exact failsIn_throw (hK.registry rfl)
  | warn => exact failsIn_bind (failsIn_log _ _ _) fun _ => failsIn_pure _

theorem CoversDocuments.of_exceedsLimit (hK : CoversDocuments K) {bytes : List UInt8}
    {kind : FailureKind} (h : ExceedsLimit bytes kind) : K kind := by
  cases h with
  | nesting => exact hK.nesting
  | digits => exact hK.argument

theorem CoversDocuments.failsIn_getManifest (hK : CoversDocuments K) :
    FailsIn K (getManifest s ref) := by
  have hexplain : ∀ reason, K (Failure.manifestFetch ref.text reason).kind :=
    fun _ => hK.registry rfl
  refine failsIn_bind (failsIn_ensureSession _) fun _ => failsIn_bind (failsIn_log _ _ _) fun _ =>
    failsIn_bind ?_ fun answer => failsIn_ofExcept fun e he => ?_
  · exact failsIn_withResponse hK.system hexplain fun response =>
      failsIn_bind (hK.failsIn_expect _ _ rfl _) fun _ =>
        failsIn_bind (failsIn_readBody hK.system _ hexplain) fun _ => failsIn_pure _
  · rcases Manifest.kind_of_ofBytes he with hkind | hlimit
    · rw [hkind]
      exact hK.registry rfl
    · exact hK.of_exceedsLimit hlimit

/-! ## What is sent to registries -/

section

variable {source target : Reference} {t : UploadTask} {state : UploadState}

theorem Covers.failsIn_putManifest (hK : Covers K) (m : Manifest) :
    FailsIn K (putManifest s ref m) := by
  refine failsIn_bind (failsIn_ensureSession _) fun _ => failsIn_bind (failsIn_log _ _ _) fun _ => ?_
  exact failsIn_withResponse hK.system (fun _ => hK.registry rfl) fun response =>
    failsIn_bind (hK.failsIn_expect _ _ rfl _) fun _ => failsIn_pure _

theorem Covers.failsIn_hasBlob (hK : Covers K) (digest : String) :
    FailsIn K (hasBlob s ref digest) :=
  failsIn_bind (failsIn_ensureSession _) fun _ =>
    failsIn_withResponseOr hK.system (failsIn_pure _) fun _ => failsIn_pure _

/-- A place that cannot be made out is an argument that makes no sense. -/
theorem Covers.failsIn_nextPlace (hK : Covers K) (response : Response) :
    FailsIn K (nextPlace s ref response) := failsIn_ofExcept fun _ _ => hK.argument

theorem Covers.failsIn_sendChunk (hK : Covers K) (chunk : List UInt8) :
    FailsIn K (sendChunk s t state chunk) := by
  refine failsIn_bind ?_ fun _ => failsIn_bind (failsIn_report _ _ _ _) fun _ => failsIn_pure _
  exact failsIn_withResponse hK.system (fun _ => hK.registry rfl) fun response =>
    failsIn_bind (hK.failsIn_expect _ _ rfl _) fun _ => hK.failsIn_nextPlace response

theorem Covers.failsIn_uploadWith (hK : Covers K) {send : UploadState → Exchange UploadState}
    (hsend : ∀ state, FailsIn K (send state)) : FailsIn K (uploadWith s t send) := by
  have hbegin : FailsIn K (beginUpload s t) :=
    failsIn_withResponse hK.system (fun _ => hK.registry rfl) fun response =>
      failsIn_bind (hK.failsIn_expect _ _ rfl _) fun _ =>
        failsIn_bind (hK.failsIn_nextPlace response) fun _ => failsIn_pure _
  have hend (state : UploadState) : FailsIn K (endUpload t state) :=
    failsIn_withResponse hK.system (fun _ => hK.registry rfl) fun response =>
      failsIn_bind (hK.failsIn_expect _ _ rfl _) fun _ => failsIn_pure _
  exact failsIn_bind (hK.failsIn_checkAddress _) fun _ =>
    failsIn_bind (failsIn_ensureSession _) fun _ => failsIn_bind hbegin fun state =>
      failsIn_bind (hsend state) hend

theorem Covers.failsIn_relayBlob (hK : Covers K) : FailsIn K (relayBlob s source t state) := by
  refine failsIn_bind (hK.failsIn_withBlob fun blob => ?_) fun ⟨state, rest?⟩ => ?_
  · exact failsIn_bind (failsIn_foldlM (fun _ chunk => hK.failsIn_sendChunk chunk) _ _) fun _ =>
      hK.failsIn_ending blob t.digest _
  · cases rest? with
    | none => exact failsIn_pure _
    | some rest => exact hK.failsIn_sendChunk rest

theorem Covers.failsIn_mountBlob (hK : Covers K) (digest : String) :
    FailsIn K (mountBlob s source target digest) := by
  refine failsIn_bind (failsIn_ensureSession _) fun _ => failsIn_bind ?_ fun location? => ?_
  · exact failsIn_withResponse hK.system (fun _ => hK.registry rfl) fun response =>
      failsIn_ite (failsIn_pure _) (failsIn_bind (hK.failsIn_expect _ _ rfl _) fun _ =>
        failsIn_pure _)
  · cases location? with
    | none => exact failsIn_pure _
    | some location =>
        refine failsIn_bind (failsIn_ite (failsIn_pure _) ?_) fun _ => failsIn_pure _
        exact failsIn_bind (failsIn_ofExcept fun _ _ => hK.argument) fun _ =>
          failsIn_withResponseOr hK.system (failsIn_log _ _ _) fun _ => failsIn_pure _

theorem Covers.failsIn_copyBlob (hK : Covers K) (digest : String) (listens : Bool) :
    FailsIn K (copyBlob s source target digest listens) := by
  refine failsIn_bind (hK.failsIn_hasBlob _) fun _ => failsIn_ite (failsIn_log _ _ _) ?_
  refine failsIn_bind (failsIn_ite (hK.failsIn_mountBlob _) (failsIn_pure _)) fun _ =>
    failsIn_ite (failsIn_log _ _ _) ?_
  exact failsIn_bind (hK.failsIn_uploadWith fun _ => hK.failsIn_relayBlob) fun _ => failsIn_pure _

theorem Covers.failsIn_copyPart (hK : Covers K) {listens : Bool} {total : Int} (what : String)
    (index : Int) (digest : String) :
    FailsIn K (copyPart s source target listens total what index digest) :=
  failsIn_bind (failsIn_log _ _ _) fun _ =>
    failsIn_bind (failsIn_warnOnFailure (hK.failsIn_copyBlob _ _)) fun _ => failsIn_report _ _ _ _

/-- Blobs are copied without a look at what they hold. -/
theorem Covers.failsIn_copyParts (hK : Covers K) {listens : Bool} (config : Descriptor)
    (layers : List Descriptor) : FailsIn K (copyParts s source target listens config layers) := by
  have hlayers (total index : Int) :
      FailsIn K (copyLayers s source target listens total index layers) := by
    induction layers generalizing index with
    | nil => exact failsIn_pure _
    | cons layer layers ih => exact failsIn_bind (hK.failsIn_copyPart _ _ _) fun _ => ih _
  exact failsIn_bind (hK.failsIn_copyPart _ _ _) fun _ => hlayers _ 2

end

/-! ## What manifests name -/

/-- A descriptor is refused as part of its manifest, or its size is out of range. -/
theorem CoversDocuments.of_manifest (hK : CoversDocuments K) {e : Manifest.Error}
    (h : (Failure.manifest e).kind = .manifest ∨ e = .boundlessSize) :
    K (Failure.manifest e).kind := by
  rcases h with hkind | rfl
  · rw [hkind]
    exact hK.registry rfl
  · exact hK.range

theorem CoversDocuments.failsIn_fetchConfig (hK : CoversDocuments K) (m : Manifest) :
    FailsIn K (fetchConfig s policy ref m) := by
  refine failsIn_bind (failsIn_ofExcept fun e he => ?_) fun _ =>
    failsIn_bind (failsIn_warnOnFailure hK.failsIn_readBlob) fun bytes =>
      failsIn_bind (hK.failsIn_algorithmOf _) fun _ =>
        failsIn_bind (hK.failsIn_checkDigest _ _ _) fun _ => failsIn_ofExcept fun e he => ?_
  · exact hK.of_manifest ((Manifest.config_error he).imp id And.left)
  · rcases ImageConfig.kind_of_ofBytes he with hkind | hlimit
    · rw [hkind]
      exact hK.registry rfl
    · exact hK.of_exceedsLimit hlimit

/-! ## Staging -/

theorem kind_streamFailure (e : Compression.StreamError) :
    (LayerIntake.streamFailure e).kind = .decompression := by cases e <;> rfl

theorem absorb_error {l : LayerIntake decoders} {piece : List UInt8} {e : Failure}
    (h : l.absorb piece = .error e) : e.kind = .decompression := by
  unfold LayerIntake.absorb at h
  dsimp only at h
  split at h
  · cases h
  · cases h
    exact kind_streamFailure _

theorem close_error {l : LayerIntake decoders} {e : Failure} (h : l.close = .error e) :
    e.kind = .decompression := by
  unfold LayerIntake.close at h
  dsimp only at h
  split at h
  · cases h
  · cases h
    exact kind_streamFailure _

theorem Covers.failsIn_receive (hK : Covers K) {file : Archive.Path}
    {next : Except Failure (LayerIntake decoders × List UInt8)}
    (hnext : ∀ e, next = .error e → e.kind = .decompression) : FailsIn K (receive file next) := by
  refine failsIn_bind (failsIn_ofExcept fun e he => ?_) fun _ =>
    failsIn_bind (failsIn_appendFile hK.system _ _) fun _ => failsIn_pure _
  rw [id, hnext e he]
  exact hK.registry rfl

theorem Covers.failsIn_receiveLayer (hK : Covers K) (digest : String) (file : Archive.Path) :
    FailsIn K (receiveLayer decoders s ref digest file) :=
  failsIn_bind (hK.failsIn_algorithmOf _) fun _ =>
    failsIn_bind (failsIn_changeDisk hK.system _) fun _ =>
      failsIn_bind (hK.failsIn_foldBlob fun _ _ => hK.failsIn_receive fun _ => absorb_error)
        fun _ => hK.failsIn_receive fun _ => close_error

theorem Covers.failsIn_settleLayer (hK : Covers K) (staging place : Archive.Path) :
    FailsIn K (settleLayer staging place created) := by
  have hchange := fun f => failsIn_changeDisk (K := K) hK.system f
  refine failsIn_bind (failsIn_isStored _) fun _ => failsIn_ite (hchange _) ?_
  exact failsIn_bind (hchange _) fun _ => failsIn_bind (hchange _) fun _ => hchange _

theorem Covers.failsIn_stageLayer (hK : Covers K) (digest : String) :
    FailsIn K (stageLayer decoders s policy ref created work digest) :=
  failsIn_bind (failsIn_newDirectory hK.system _ _ _) fun _ =>
    failsIn_bind (hK.failsIn_receiveLayer _ _) fun _ =>
      failsIn_bind (hK.failsIn_checkDigest _ _ _) fun _ =>
        failsIn_bind (hK.failsIn_settleLayer _ _) fun _ =>
          failsIn_bind (failsIn_log _ _ _) fun _ => failsIn_pure _

theorem Covers.failsIn_stageLayers (hK : Covers K) {listens : Bool} {total : Int}
    (layers : List Descriptor) (index : Int) :
    FailsIn K (stageLayers decoders s policy ref created work listens total index layers) := by
  induction layers generalizing index with
  | nil => exact failsIn_pure _
  | cons layer layers ih =>
      refine failsIn_bind (failsIn_log _ _ _) fun _ =>
        failsIn_bind (failsIn_warnOnFailure (hK.failsIn_stageLayer _)) fun _ => ?_
      exact failsIn_bind (failsIn_report _ _ _ _) fun _ =>
        failsIn_bind (ih _) fun _ => failsIn_pure _

theorem Covers.failsIn_layOutIndex (hK : Covers K) {name : String} {config : Json.Members}
    {diffIds : List String} : FailsIn K (layOutIndex work name created config diffIds) := by
  refine failsIn_bind (failsIn_ofExcept fun e he => ?_) fun _ =>
    failsIn_bind (failsIn_storeFile hK.system _ _ _) fun _ =>
      failsIn_bind (failsIn_storeFile hK.system _ _ _) fun _ => failsIn_pure _
  unfold ImageConfig.bytes at he
  split at he
  · cases he
  · cases he
    exact hK.registry rfl

theorem CoversDocuments.failsIn_layOutImage (hK : CoversDocuments K) {name : String} {m : Manifest}
    {listens : Bool} : FailsIn K (layOutImage decoders s policy ref name m listens work) := by
  refine failsIn_bind (hK.failsIn_fetchConfig m) fun config =>
    failsIn_bind (failsIn_ofExcept fun e he => ?_) fun layers =>
      failsIn_bind (hK.failsIn_stageLayers layers 1) fun _ => hK.failsIn_layOutIndex
  exact hK.of_manifest ((Manifest.layers_error he).imp id And.left)

/-! ## Whole operations -/

theorem CoversDocuments.failsIn_packDirectory (hK : CoversDocuments K) :
    FailsIn K (packDirectory work) := by
  refine failsIn_bind (failsIn_of_ok fun w => ⟨w, w, rfl⟩) fun w => ?_
  split
  · exact failsIn_writes hK.system _
  · exact failsIn_throw hK.nesting

theorem CoversDocuments.failsIn_stageImage (hK : CoversDocuments K) {name : String} {m : Manifest}
    {listens : Bool} : FailsIn K (stageImage decoders s policy ref name m listens) := by
  exact failsIn_withWorkDirectory hK.system fun work =>
    failsIn_bind hK.failsIn_layOutImage fun _ =>
      failsIn_bind hK.failsIn_packDirectory fun _ => failsIn_pure _

/-- What a failure of the machine is called is a failure of the archive. -/
theorem kind_archiveFailure (ref : Reference) (e : Failure) :
    (archiveFailure ref e).kind = .archive ∨
      archiveFailure ref e = e ∧ e.kind.isSystem = false := by
  unfold archiveFailure
  split
  · exact .inl rfl
  · rename_i h
    exact .inr ⟨rfl, by simpa using h⟩

/-- **What an export fails with.** -/
theorem CoversDocuments.failsIn_exportImage (hK : CoversDocuments K)
    {policy : Option IntegrityPolicy} {listens : Bool} :
    FailsIn K (exportImage decoders s policy ref listens) := by
  unfold exportImage
  split
  · refine failsIn_bind (failsIn_warnOnFailure hK.failsIn_getManifest) fun m =>
      failsIn_bind (failsIn_mapFailure hK.failsIn_stageImage fun e he => ?_) fun _ =>
        failsIn_bind (failsIn_log _ _ _) fun _ => failsIn_pure _
    rcases kind_archiveFailure ref e with hkind | ⟨hsame, -⟩
    · rw [hkind]
      exact hK.registry rfl
    · rwa [hsame]
  · exact failsIn_throw (hK.registry rfl)

/-- **What a pull fails with**: no document is read, so none can be unexpected. -/
theorem Covers.failsIn_pullBlob (hK : Covers K) {policy : Option IntegrityPolicy}
    (digest : String) : FailsIn K (pullBlob s policy ref digest) := by
  refine failsIn_bind (hK.failsIn_checkAddress _) fun _ => failsIn_bind (failsIn_log _ _ _) fun _ =>
    failsIn_bind (failsIn_ofExcept fun _ _ => hK.argument) fun _ => failsIn_bind ?_ fun _ =>
      failsIn_bind (hK.failsIn_checkDigest _ _ _) fun _ => failsIn_pure _
  exact hK.failsIn_foldBlob fun _ piece =>
    failsIn_bind (failsIn_write hK.system piece) fun _ => failsIn_pure _

end ImageTransfer.Transfer
