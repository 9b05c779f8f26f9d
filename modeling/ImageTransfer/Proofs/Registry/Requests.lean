import ImageTransfer.Proofs.Exchange.Reports
import ImageTransfer.Proofs.Image.Manifests
import ImageTransfer.Proofs.Registry.Chunks
import ImageTransfer.Registry.Client

/-!
# What each operation of a client asks, and what it makes of the answer

One lemma for each operation that sends a single request: the request, and which answers give which
results. Operations that are put together from these never look into them again.
-/

namespace ImageTransfer

/-- The status of an answer that is a response. -/
def Answer.status? : Answer → Option Int
  | .response r => some r.status
  | .fault _ => none

/-- An answer that serves a manifest: whole, as a success, and in a form that is understood. -/
def Answer.Serves (a : Answer) (m : Manifest) : Prop :=
  ∃ response, a = .response response ∧ response.status = 200 ∧ response.broken = none ∧
    Manifest.ofBytes response.body (Registry.contentType response) = .ok m

theorem Answer.Serves.unique {a : Answer} {m m' : Manifest} (h : a.Serves m) (h' : a.Serves m') :
    m' = m := by
  obtain ⟨response, rfl, _, _, hm⟩ := h
  obtain ⟨_, hr, _, _, hm'⟩ := h'
  cases hr
  exact Except.ok.inj (hm'.symm.trans hm)

namespace Registry

open Exchange

variable {α σ : Type} {s : Settings} {ref : Reference} {w w' : World}

theorem ofBytes_raw {raw : List UInt8} {mediaType : String} {m : Manifest}
    (h : Manifest.ofBytes raw mediaType = .ok m) : m.raw = raw :=
  let ⟨_, _, _, _, hraw⟩ := Manifest.ofBytes_eq_ok.1 h
  hraw

/-- **A manifest is kept byte for byte.** -/
theorem raw_of_serves {response : Response} {m : Manifest}
    (h : (Answer.response response).Serves m) : m.raw = response.body := by
  obtain ⟨_, hr, _, _, hm⟩ := h
  cases hr
  exact ofBytes_raw hm

/-! ## Checks of the status -/

theorem checkStatus_of_mem {status : Int} {what : String} {kind : FailureKind} {expected : List Int}
    (h : status ∈ expected) : checkStatus status what kind expected = .ok () := by
  rw [checkStatus, if_pos (by simpa using h)]

/-- A status that is not expected fails as what is not there, or as what was asked for. -/
theorem checkStatus_refused {status : Int} (what : String) (kind : FailureKind)
    {expected : List Int} (h : status ∉ expected) :
    ∃ e, checkStatus status what kind expected = .error e ∧
      e.kind = if status = 404 then .missing else kind := by
  rw [checkStatus, if_neg (by simpa using h)]
  split
  · exact ⟨_, rfl, rfl⟩
  · exact ⟨_, rfl, rfl⟩

theorem checkStatus_of_not_mem {status : Int} (what : String) (kind : FailureKind)
    {expected : List Int} (h : status ∉ expected) :
    ∃ e, checkStatus status what kind expected = .error e :=
  let ⟨e, he, _⟩ := checkStatus_refused what kind h
  ⟨e, he⟩

theorem calculates_expect (response : Response) (what : String) (kind : FailureKind)
    (expected : List Int) :
    Calculates (expect response what kind expected)
      (checkStatus response.status what kind expected) := by
  have h := calculates_ofExcept (checkStatus response.status what kind expected) id
  unfold expect
  cases hs : checkStatus response.status what kind expected with
  | ok u => rw [hs] at h; exact h
  | error e => rw [hs] at h; exact h

/-- A status that is not expected is a failure. -/
theorem expect_bind_ok {response : Response} {what : String} {kind : FailureKind}
    {expected : List Int} {g : Except Failure α} {a : α} :
    (checkStatus response.status what kind expected >>= fun _ => g) = .ok a ↔
      response.status ∈ expected ∧ g = .ok a := by
  by_cases hs : response.status ∈ expected
  · rw [checkStatus_of_mem hs]
    exact ⟨fun h => ⟨hs, h⟩, And.right⟩
  · obtain ⟨e, he⟩ := checkStatus_of_not_mem what kind hs
    rw [he]
    exact ⟨fun h => absurd h nofun, fun h => absurd h.1 hs⟩

/-! ## Manifests -/

/-- What is made of the answer to the request for a manifest. -/
def manifestOutcome (ref : Reference) (a : Answer) : Except Failure Manifest := do
  let explain := Failure.manifestFetch ref.text
  let (raw, mediaType) ← result a explain fun response => do
    checkStatus response.status s!"Manifest {ref}" .manifest [200]
    let raw ← wholeBody response explain
    return (raw, contentType response)
  (Manifest.ofBytes raw mediaType).mapError .manifest

/-- Getting a manifest is a single request. -/
theorem getManifest_outcome {r : Except Failure Manifest} (h : getManifest s ref w = (r, w')) :
    ∃ a, Talk w [(manifestRequest s ref, a)] w' ∧ Untouched w w' ∧ r = manifestOutcome ref a := by
  obtain ⟨w₁, ht₁, hu₁, h⟩ := ensureSession_bind h
  obtain ⟨w₂, ht₂, hu₂, h⟩ := note_bind rfl h
  obtain ⟨v, hv, rfl⟩ := bind_calculates (fun _ => calculates_ofExcept _ _) h
  obtain ⟨a, ht₃, hu₃, rfl⟩ := withResponse_result (fun response =>
    calculates_bind (calculates_expect response _ _ _) fun _ =>
      calculates_bind (calculates_readBody response _) fun raw =>
        calculates_pure (raw, contentType response)) hv
  exact ⟨a, (ht₁.after ht₂).after ht₃, (hu₁.trans hu₂).trans hu₃, rfl⟩

/-- A manifest comes of the answers that serve it. -/
theorem manifestOutcome_eq_ok {a : Answer} {m : Manifest} :
    manifestOutcome ref a = .ok m ↔ a.Serves m := by
  cases a with
  | fault f => exact ⟨nofun, nofun⟩
  | response response =>
      rw [manifestOutcome, bind_eq_ok]
      constructor
      · rintro ⟨⟨raw, mediaType⟩, hv, hm⟩
        obtain ⟨hs, hv⟩ := expect_bind_ok.1 hv
        obtain ⟨body, hb, hv⟩ := bind_eq_ok.1 hv
        obtain ⟨hbroken, rfl⟩ := wholeBody_eq_ok.1 hb
        cases hv
        exact ⟨response, rfl, by simpa using hs, hbroken, mapError_eq_ok.1 hm⟩
      · rintro ⟨_, hr, hs, hb, hm⟩
        cases hr
        refine ⟨(response.body, contentType response), expect_bind_ok.2 ⟨by simp [hs], ?_⟩,
          mapError_eq_ok.2 hm⟩
        rw [wholeBody_eq_ok.2 ⟨hb, rfl⟩]; rfl

/-- **The manifest that is got is the one that is served.** -/
theorem getManifest_cases {r : Except Failure Manifest} (h : getManifest s ref w = (r, w')) :
    ∃ a, Talk w [(manifestRequest s ref, a)] w' ∧ Untouched w w' ∧
      ∀ m, r = .ok m ↔ a.Serves m := by
  obtain ⟨a, ht, hu, rfl⟩ := getManifest_outcome h
  exact ⟨a, ht, hu, fun m => manifestOutcome_eq_ok⟩

/-- A manifest that is put is a single request. -/
theorem putManifest_cases {m : Manifest} {r : Except Failure String}
    (h : putManifest s ref m w = (r, w')) :
    ∃ a, Talk w [(manifestPut s ref m, a)] w' ∧ Untouched w w' := by
  obtain ⟨w₁, ht₁, hu₁, h⟩ := ensureSession_bind h
  obtain ⟨w₂, ht₂, hu₂, h⟩ := note_bind rfl h
  obtain ⟨a, ht₃, hu₃, _⟩ := withResponse_result (fun response =>
    calculates_bind (calculates_expect response _ _ _) fun _ => calculates_pure _) h
  exact ⟨a, (ht₁.after ht₂).after ht₃, (hu₁.trans hu₂).trans hu₃⟩

/-! ## Blobs -/

/-- A blob is there if the answer says so, and only then. -/
theorem hasBlob_cases {digest : String} {r : Except Failure Bool}
    (h : hasBlob s ref digest w = (r, w')) :
    ∃ a, Talk w [(blobQuestion s ref digest, a)] w' ∧ Untouched w w' ∧
      (r = .ok true ↔ a.status? = some 200) := by
  obtain ⟨w₁, ht₁, hu₁, h⟩ := ensureSession_bind h
  rcases withResponseOr_cases h with ⟨f, w₂, ht₂, hu₂, hf⟩ | ⟨response, w₂, w₃, ht₂, hu₂, hp, rfl⟩
  · refine ⟨.fault f, ?_⟩
    rcases hf with ⟨_, hp⟩ | ⟨_, rfl, rfl⟩
    · obtain ⟨rfl, rfl⟩ := pure_inv hp
      exact ⟨ht₁.after ht₂, hu₁.trans hu₂, nofun, nofun⟩
    · exact ⟨ht₁.after ht₂, hu₁.trans hu₂, nofun, nofun⟩
  · obtain ⟨rfl, rfl⟩ := pure_inv hp
    refine ⟨.response response, (ht₁.after ht₂).before (.note _ rfl),
      (hu₁.trans hu₂).trans (.note _ _), ?_⟩
    simp [Answer.status?]

/-- The end of what should be done with a digest that is no address: nothing has happened. -/
def refused (digest : String) (w : World) : Except Failure α × World :=
  (.error (.digest (.malformed digest)), w)

theorem checkAddress_refused {digest : String} (h : Digest.isAddress digest = false)
    (f : Unit → Exchange α) (w : World) : (checkAddress digest >>= f) w = refused digest w := by
  unfold checkAddress
  rw [h]
  rfl

/-- What follows a check of a digest: it runs if the digest is an address. -/
theorem checkAddress_bind {digest : String} {f : Unit → Exchange α} {r : Except Failure α}
    (h : (checkAddress digest >>= f) w = (r, w')) :
    (Digest.isAddress digest = true ∧ f () w = (r, w')) ∨
      (Digest.isAddress digest = false ∧ w' = w ∧ r = .error (.digest (.malformed digest))) := by
  unfold checkAddress at h
  by_cases hd : Digest.isAddress digest = true
  · rw [if_pos hd] at h
    exact .inl ⟨hd, h⟩
  · rw [if_neg hd] at h
    obtain ⟨rfl, rfl⟩ := Prod.mk.inj h
    exact .inr ⟨by simpa using hd, rfl, rfl⟩

/-- What follows a check of the status: it runs if the status is an expected one. -/
theorem expect_bind {response : Response} {what : String} {kind : FailureKind}
    {expected : List Int} {f : Unit → Exchange α} {r : Except Failure α}
    (h : (expect response what kind expected >>= f) w = (r, w')) :
    (response.status ∈ expected ∧ f () w = (r, w')) ∨
      (response.status ∉ expected ∧ w' = w ∧
        ∃ e, checkStatus response.status what kind expected = .error e ∧ r = .error e) := by
  have he := calculates_expect response what kind expected w
  by_cases hs : response.status ∈ expected
  · rw [checkStatus_of_mem hs] at he
    rw [bind_run he] at h
    exact .inl ⟨hs, h⟩
  · obtain ⟨e, hc⟩ := checkStatus_of_not_mem what kind hs
    rw [hc] at he
    rw [bind_error he] at h
    obtain ⟨rfl, rfl⟩ := Prod.mk.inj h
    exact .inr ⟨hs, rfl, e, hc, rfl⟩

/-- The response that serves a blob, or why there is none. -/
def servedBlob (digest : String) (a : Answer) : Except Failure Response :=
  result a (.download digest) fun response => do
    checkStatus response.status s!"Blob {digest}" .transfer [200]
    return response

/-- The response that serves a blob is a success. -/
theorem servedBlob_eq_ok {digest : String} {a : Answer} {response : Response} :
    servedBlob digest a = .ok response ↔ a = .response response ∧ response.status = 200 := by
  cases a with
  | fault f => exact ⟨nofun, nofun⟩
  | response other =>
      rw [servedBlob, result, expect_bind_ok, List.mem_singleton]
      constructor
      · rintro ⟨hs, h⟩
        cases h
        exact ⟨rfl, hs⟩
      · rintro ⟨h, hs⟩
        cases h
        exact ⟨hs, rfl⟩

/-- A blob that is got: a digest that is no address is not asked for, an answer without the blob is
a failure, and otherwise the response is used. -/
theorem withBlob_outcome {digest : String} {accept : List String} {use : Response → Exchange α}
    {r : Except Failure α} (h : withBlob s ref digest accept use w = (r, w')) :
    (Digest.isAddress digest = false ∧ w' = w ∧ r = .error (.digest (.malformed digest))) ∨
    (Digest.isAddress digest = true ∧ ∃ a,
      ((∃ e, servedBlob digest a = .error e ∧ r = .error e ∧
        Talk w [(blobRequest s ref digest accept, a)] w' ∧ Untouched w w') ∨
      ∃ response w₁ w₂, servedBlob digest a = .ok response ∧
        Talk w [(blobRequest s ref digest accept, a)] w₁ ∧ Untouched w w₁ ∧
        use response w₁ = (r, w₂) ∧ w' = w₂.note .released)) := by
  rcases checkAddress_bind h with ⟨hd, h⟩ | hbad
  case inr => exact .inl hbad
  obtain ⟨w₁, ht₁, hu₁, h⟩ := ensureSession_bind h
  obtain ⟨w₂, ht₂, hu₂, h⟩ := note_bind rfl h
  replace ht₂ := ht₁.after ht₂
  replace hu₂ := hu₁.trans hu₂
  refine .inr ⟨hd, ?_⟩
  rcases withResponse_cases h with ⟨f, ht₃, hu₃, rfl⟩ | ⟨response, w₃, w₄, ht₃, hu₃, hx, rfl⟩
  · exact ⟨.fault f, .inl ⟨_, rfl, rfl, ht₂.after ht₃, hu₂.trans hu₃⟩⟩
  · refine ⟨.response response, ?_⟩
    rcases expect_bind hx with ⟨hs, hx⟩ | ⟨hs, rfl, e, hc, rfl⟩
    · exact .inr ⟨response, w₃, w₄, servedBlob_eq_ok.2 ⟨rfl, by simpa using hs⟩, ht₂.after ht₃,
        hu₂.trans hu₃, hx, rfl⟩
    · refine .inl ⟨e, ?_, rfl, (ht₂.after ht₃).before (.note _ rfl),
        (hu₂.trans hu₃).trans (.note _ _)⟩
      rw [servedBlob, result, hc]; rfl

/-- The same, where it does not matter why there is no blob. -/
theorem withBlob_cases {digest : String} {accept : List String} {use : Response → Exchange α}
    {r : Except Failure α} (h : withBlob s ref digest accept use w = (r, w')) :
    (Digest.isAddress digest = false ∧ w' = w ∧ ∃ e, r = .error e) ∨
    (∃ a, Talk w [(blobRequest s ref digest accept, a)] w' ∧ Untouched w w' ∧
      a.status? ≠ some 200 ∧ ∃ e, r = .error e) ∨
    ∃ response w₁ w₂, Talk w [(blobRequest s ref digest accept, .response response)] w₁ ∧
      Untouched w w₁ ∧ response.status = 200 ∧ use response w₁ = (r, w₂) ∧
      w' = w₂.note .released := by
  rcases withBlob_outcome h with ⟨hd, hw, he⟩ | ⟨_, a, ⟨e, hserved, he, ht, hu⟩ | hserved⟩
  · exact .inl ⟨hd, hw, _, he⟩
  · refine .inr (.inl ⟨a, ht, hu, fun hs => ?_, e, he⟩)
    cases a with
    | fault f => exact absurd hs nofun
    | response response =>
        have hok : servedBlob digest (.response response) = .ok response :=
          servedBlob_eq_ok.2 ⟨rfl, Option.some.inj hs⟩
        exact absurd (hok.symm.trans hserved) nofun
  · obtain ⟨response, w₁, w₂, hok, ht, hu, hx, rfl⟩ := hserved
    obtain ⟨rfl, hs⟩ := servedBlob_eq_ok.1 hok
    exact .inr (.inr ⟨response, w₁, w₂, ht, hu, hs, hx, rfl⟩)

/-! ## Frames that clients keep to -/

section

variable {F G : Frame}

theorem keeps_getManifest (hF : F.Serving G) : Keeps F (getManifest s ref) := by
  refine keeps_bind (hF.keeps_ensureSession _) fun _ =>
    keeps_bind (hF.keeps_log (by decide) _ _) fun _ => keeps_bind ?_ fun _ => keeps_ofExcept _ _
  exact hF.keeps_withResponse _ _ fun response => keeps_bind (keeps_ofExcept _ _) fun _ =>
    keeps_bind (keeps_of_calculates (calculates_readBody _ _)) fun _ => keeps_pure _

theorem keeps_supportsVersion2 (hF : F.Serving G) (registry : String) :
    Keeps F (supportsVersion2 s registry) :=
  keeps_bind (hF.keeps_ensureSession _) fun _ =>
    hF.keeps_withResponseOr _ (keeps_pure _) fun _ => keeps_pure _

theorem keeps_putManifest (hF : F.Serving G) (m : Manifest) : Keeps F (putManifest s ref m) := by
  refine keeps_bind (hF.keeps_ensureSession _) fun _ =>
    keeps_bind (hF.keeps_log (by decide) _ _) fun _ => ?_
  exact hF.keeps_withResponse _ _ fun _ => keeps_bind (keeps_ofExcept _ _) fun _ => keeps_pure _

theorem keeps_hasBlob (hF : F.Serving G) (digest : String) : Keeps F (hasBlob s ref digest) :=
  keeps_bind (hF.keeps_ensureSession _) fun _ =>
    hF.keeps_withResponseOr _ (keeps_pure _) fun _ => keeps_pure _

theorem keeps_checkAddress {F : Frame} (digest : String) : Keeps F (checkAddress digest) :=
  keeps_ite (keeps_pure _) (keeps_throw _)

theorem keeps_withBlob (hF : F.Serving G) {digest : String} {accept : List String}
    {use : Response → Exchange α} (hu : ∀ response, Keeps G (use response)) :
    Keeps F (withBlob s ref digest accept use) := by
  refine keeps_bind (keeps_checkAddress _) fun _ =>
    keeps_bind (hF.keeps_ensureSession _) fun _ => keeps_bind (hF.keeps_log (by decide) _ _) fun _ => ?_
  exact hF.keeps_withResponse _ _ fun response =>
    keeps_bind (keeps_ofExcept _ _) fun _ => hu response

theorem keeps_foldBlob (hF : F.Serving G) {digest : String} {accept : List String} {start : σ}
    {step : σ → List UInt8 → Exchange σ} (hs : ∀ state piece, Keeps G (step state piece)) :
    Keeps F (foldBlob s ref digest accept start step) := by
  refine keeps_withBlob hF fun response => keeps_bind (keeps_foldlM hs _ _) fun final => ?_
  split
  · exact keeps_pure _
  · exact keeps_throw _

theorem keeps_readBlob (hF : F.Serving G) {digest : String} {accept : List String} :
    Keeps F (readBlob s ref digest accept) :=
  keeps_bind (keeps_foldBlob hF fun _ _ => keeps_pure _) fun _ => keeps_pure _

end

/-- Nothing is reported of a request for a manifest, nor of a warning of its failure. -/
theorem getManifest_outcome_warned {source : LogSource} {message : String → String}
    {r : Except Failure Manifest}
    (h : warnOnFailure source message (getManifest s ref) w = (r, w')) :
    ∃ a, Speech w [(manifestRequest s ref, a)] w' ∧ Untouched w w' ∧ r = manifestOutcome ref a := by
  obtain ⟨w₁, hget, hs₁, hu₁⟩ := warnOnFailure_speech h
  obtain ⟨a, ht, hu, hm⟩ := getManifest_outcome hget
  have hreports : unreported.rel w w₁ := (keeps_getManifest unreported_online.serving).rel hget
  exact ⟨a, (Speech.mk ht hreports).before hs₁, hu.trans hu₁, hm⟩

/-! ## Blobs that were got -/

/-- What is left when the pieces have been gone through: the end of the body is looked at. -/
theorem calculates_ending (response : Response) (explain : String → Failure) (final : σ) :
    Calculates (match response.broken with
      | none => pure final
      | some f => throw (f.failure explain) : Exchange σ)
      (do
        let _ ← wholeBody response explain
        return final) := by
  unfold wholeBody
  cases response.broken with
  | none => exact calculates_pure final
  | some f => exact calculates_throw _

/-- A blob that is gone through: a digest that is no address is not asked for, an answer without the
blob is a failure, and otherwise the pieces are gone through and the end of the body is looked at. -/
theorem foldBlob_outcome {digest : String} {accept : List String} {start : σ}
    {step : σ → List UInt8 → Exchange σ} {r : Except Failure σ}
    (h : foldBlob s ref digest accept start step w = (r, w')) :
    (Digest.isAddress digest = false ∧ w' = w ∧ r = .error (.digest (.malformed digest))) ∨
    (Digest.isAddress digest = true ∧ ∃ a,
      ((∃ e, servedBlob digest a = .error e ∧ r = .error e ∧
        Talk w [(blobRequest s ref digest accept, a)] w' ∧ Untouched w w') ∨
      ∃ response w₁ w₂ v, servedBlob digest a = .ok response ∧
        Talk w [(blobRequest s ref digest accept, a)] w₁ ∧ Untouched w w₁ ∧
        (Chunks.slices s.readChunkSize response.body).foldlM step start w₁ = (v, w₂) ∧
        w' = w₂.note .released ∧
        r = do
          let final ← v
          let _ ← wholeBody response (.download digest)
          return final)) := by
  rcases withBlob_outcome h with hbad | ⟨hd, a, herror | hserved⟩
  · exact .inl hbad
  · exact .inr ⟨hd, a, .inl herror⟩
  · obtain ⟨response, w₁, w₂, hserved, ht, hu, huse, hw⟩ := hserved
    obtain ⟨v, hfold, hr⟩ := bind_calculates (calculates_ending response (.download digest)) huse
    exact .inr ⟨hd, a, .inr ⟨response, w₁, w₂, v, hserved, ht, hu, hfold, hw, hr⟩⟩

/-- A blob that was gone through to its end: a response has served it whole. -/
theorem foldBlob_ok {digest : String} {accept : List String} {start final : σ}
    {step : σ → List UInt8 → Exchange σ}
    (h : foldBlob s ref digest accept start step w = (.ok final, w')) :
    ∃ response w₁ w₂, Talk w [(blobRequest s ref digest accept, .response response)] w₁ ∧
      Untouched w w₁ ∧ response.status = 200 ∧ response.broken = none ∧
      (Chunks.slices s.readChunkSize response.body).foldlM step start w₁ = (.ok final, w₂) ∧
      w' = w₂.note .released := by
  rcases foldBlob_outcome h with ⟨_, _, he⟩ | ⟨_, a, ⟨_, _, he, _⟩ | hserved⟩
  · exact absurd he nofun
  · exact absurd he nofun
  obtain ⟨response, w₁, w₂, v, hserved, ht, hu, hfold, rfl, hr⟩ := hserved
  obtain ⟨rfl, hs⟩ := servedBlob_eq_ok.1 hserved
  obtain ⟨last, rfl, hend⟩ := bind_eq_ok.1 hr.symm
  obtain ⟨_, hbody, hend⟩ := bind_eq_ok.1 hend
  cases hend
  exact ⟨response, w₁, w₂, ht, hu, hs, (wholeBody_eq_ok.1 hbody).1, hfold, rfl⟩

/-- The pieces of a whole blob are put together without a look at the world. -/
theorem calculates_joined (pieces : List (List UInt8)) (done : Array UInt8) :
    Calculates (pieces.foldlM (fun (done : Array UInt8) piece =>
      (pure (done.appendList piece) : Exchange (Array UInt8))) done)
      (.ok (done.appendList pieces.flatten)) := by
  induction pieces generalizing done with
  | nil => exact calculates_pure done
  | cons piece pieces ih =>
      rw [List.foldlM_cons, List.flatten_cons]
      intro w
      refine (ih (done.appendList piece) w).trans ?_
      congr 2
      apply Array.toList_inj.1
      simp

/-- A whole blob that is got: a digest that is no address is not asked for, and otherwise the answer
to a single request decides. -/
theorem readBlob_outcome {digest : String} {accept : List String} {r : Except Failure (List UInt8)}
    (h : readBlob s ref digest accept w = (r, w')) :
    (Digest.isAddress digest = false ∧ w' = w ∧ r = .error (.digest (.malformed digest))) ∨
    (Digest.isAddress digest = true ∧ ∃ a, Talk w [(blobRequest s ref digest accept, a)] w' ∧
      Untouched w w' ∧
      r = servedBlob digest a >>= fun response => wholeBody response (.download digest)) := by
  unfold readBlob at h
  obtain ⟨v, hv, rfl⟩ := bind_calculates (fun done => calculates_pure (Array.toList done)) h
  rcases withBlob_outcome hv with ⟨hd, rfl, rfl⟩ | ⟨hd, a, ⟨e, hserved, rfl, ht, hu⟩ | hserved⟩
  · exact .inl ⟨hd, rfl, rfl⟩
  · refine .inr ⟨hd, a, ht, hu, ?_⟩
    rw [hserved]; rfl
  · obtain ⟨response, w₁, w₂, hserved, ht, hu, huse, rfl⟩ := hserved
    rw [bind_run (calculates_joined _ _ w₁), Chunks.flatten_slices s.readChunkSize_pos] at huse
    refine .inr ⟨hd, a, ?_⟩
    rw [hserved]
    show _ ∧ _ ∧ _ = wholeBody response _
    unfold wholeBody
    cases hbroken : response.broken with
    | none =>
        rw [hbroken] at huse
        obtain ⟨rfl, rfl⟩ := pure_inv huse
        refine ⟨ht.before (.note _ rfl), hu.trans (.note _ _), ?_⟩
        show Except.ok _ = Except.ok _
        simp
    | some f =>
        rw [hbroken] at huse
        obtain ⟨rfl, rfl⟩ := throw_inv huse
        exact ⟨ht.before (.note _ rfl), hu.trans (.note _ _), rfl⟩

/-- **A whole blob that was got is the body of the response** to a single request. -/
theorem readBlob_ok {digest : String} {accept : List String} {bytes : List UInt8}
    (h : readBlob s ref digest accept w = (.ok bytes, w')) :
    ∃ response, Talk w [(blobRequest s ref digest accept, .response response)] w' ∧
      Untouched w w' ∧ response.status = 200 ∧ response.broken = none ∧ response.body = bytes := by
  rcases readBlob_outcome h with ⟨_, _, he⟩ | ⟨_, a, ht, hu, hr⟩
  · exact absurd he nofun
  obtain ⟨response, hserved, hbody⟩ := bind_eq_ok.1 hr.symm
  obtain ⟨rfl, hs⟩ := servedBlob_eq_ok.1 hserved
  obtain ⟨hbroken, rfl⟩ := wholeBody_eq_ok.1 hbody
  exact ⟨response, ht, hu, hs, hbroken, rfl⟩

end Registry

end ImageTransfer
