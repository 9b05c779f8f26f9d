import ImageTransfer.Proofs.Registry.Chunks
import ImageTransfer.Proofs.Registry.Requests
import ImageTransfer.Registry.Upload

/-!
# What an upload says

`Sent` follows the chunks of an upload from place to place, and `Streamed` is an upload from its
beginning up to the request that ends it: begun, fed with a blob that another repository serves, and
ready to be ended. It is the invariant of a blob that is sent on while it is read. The two sizes, of
what is read at once and of what is sent at once, drop out of it: whatever they are, the chunks put
together are the body of the blob.

A run of an upload has either come so far that it sends the last request, or it has failed without
sending one (`uploadFrom_cases`).
-/

namespace ImageTransfer.Registry

open Exchange

variable {s : Settings} {source ref : Reference} {digest place next last : String} {w w' : World}

/-- A request of an upload was accepted, and the answer names the place for the next one. -/
def Accepted (s : Settings) (ref : Reference) (a : Answer) (place : String) : Prop :=
  ∃ response, a = .response response ∧ response.status = 202 ∧
    locate s ref (response.header "Location") = .ok place

/-- Chunks were sent one after the other, each to the place that the last answer named. -/
inductive Sent (s : Settings) (ref : Reference) :
    String → List (List UInt8) → Dialogue → String → Prop
  | nil (place : String) : Sent s ref place [] [] place
  | cons {place next last : String} {chunk : List UInt8} {chunks : List (List UInt8)} {a : Answer}
      {d : Dialogue} : Accepted s ref a next → Sent s ref next chunks d last →
        Sent s ref place (chunk :: chunks) ((chunkPatch place chunk, a) :: d) last

/-- A blob was sent whole, as its source served it, and the upload is ready to be ended. -/
def Streamed (s : Settings) (source ref : Reference) (digest : String) (d : Dialogue)
    (last : String) : Prop :=
  ∃ a place blob chunks patches, d =
      (uploadStart s ref, a) :: (blobRequest s source digest [], .response blob) :: patches ∧
    Accepted s ref a place ∧ blob.status = 200 ∧ blob.broken = none ∧
    Sent s ref place chunks patches last ∧ chunks.flatten = blob.body

/-- No request of the dialogue puts anything. -/
def PutsNothing (d : Dialogue) : Prop := ∀ p ∈ d, p.1.method ≠ .put

theorem Accepted.status {a : Answer} (h : Accepted s ref a place) : a.status? = some 202 := by
  obtain ⟨response, rfl, hs, _⟩ := h
  exact congrArg some hs

theorem putsNothing_nil : PutsNothing [] := fun p hp => absurd hp (by simp)

theorem PutsNothing.append {d₁ d₂ : Dialogue} (h₁ : PutsNothing d₁) (h₂ : PutsNothing d₂) :
    PutsNothing (d₁ ++ d₂) := by
  intro p hp
  rcases List.mem_append.1 hp with hp | hp
  · exact h₁ p hp
  · exact h₂ p hp

/-- A dialogue of one request. -/
theorem putsNothing_single {q : Request} {a : Answer} (h : q.method ≠ .put) :
    PutsNothing [(q, a)] := by
  intro p hp
  rw [List.mem_singleton.1 hp]
  exact h

namespace Sent

variable {chunks more : List (List UInt8)} {d d' : Dialogue}

theorem append (h : Sent s ref place chunks d next) (h' : Sent s ref next more d' last) :
    Sent s ref place (chunks ++ more) (d ++ d') last := by
  induction h with
  | nil => exact h'
  | cons ha _ ih => exact .cons ha (ih h')

/-- A chunk is a request that was answered by 202. -/
theorem accepted (h : Sent s ref place chunks d last) :
    ∀ p ∈ d, p.1.method = .patch ∧ p.2.status? = some 202 := by
  induction h with
  | nil => exact fun p hp => absurd hp (by simp)
  | cons ha _ ih =>
      intro p hp
      rcases List.mem_cons.1 hp with rfl | hp
      · exact ⟨rfl, ha.status⟩
      · exact ih p hp

end Sent

theorem Streamed.putsNothing {d : Dialogue} (h : Streamed s source ref digest d last) :
    PutsNothing d := by
  obtain ⟨a, place, blob, chunks, patches, rfl, _, _, _, hsent, _⟩ := h
  intro p hp
  rcases List.mem_cons.1 hp with rfl | hp
  · exact nofun
  rcases List.mem_cons.1 hp with rfl | hp
  · exact nofun
  · rw [(hsent.accepted p hp).1]
    exact nofun

/-! ## The requests of an upload -/

/-- What is made of an accepted answer. -/
theorem calculates_nextPlace (response : Response) :
    Calculates (nextPlace s ref response)
      ((locate s ref (response.header "Location")).mapError .url) := calculates_ofExcept _ _

/-- The place that an answer names for the next request of an upload, or why there is none. -/
def placeAfter (s : Settings) (ref : Reference) (what : String) (a : Answer) :
    Except Failure String :=
  result a .upload fun response => do
    checkStatus response.status what .transfer [202]
    (locate s ref (response.header "Location")).mapError .url

theorem calculates_placeAfter (response : Response) (what : String) :
    Calculates (do
      expect response what .transfer [202]
      nextPlace s ref response) (placeAfter s ref what (.response response)) :=
  calculates_bind (calculates_expect response _ _ _) fun _ => calculates_nextPlace response

/-- There is a next place if the request was accepted, and only then. -/
theorem placeAfter_eq_ok {what : String} {a : Answer} :
    placeAfter s ref what a = .ok place ↔ Accepted s ref a place := by
  cases a with
  | fault f => exact ⟨nofun, nofun⟩
  | response response =>
      rw [placeAfter, result, expect_bind_ok, List.mem_singleton]
      constructor
      · rintro ⟨hs, hl⟩
        exact ⟨response, rfl, hs, mapError_eq_ok.1 hl⟩
      · rintro ⟨_, hr, hs, hl⟩
        cases hr
        exact ⟨hs, mapError_eq_ok.2 hl⟩

theorem beginUpload_outcome {t : UploadTask} {r : Except Failure UploadState}
    (h : beginUpload s t w = (r, w')) :
    ∃ a, Talk w [(uploadStart s t.ref, a)] w' ∧ Untouched w w' ∧
      r = (placeAfter s t.ref s!"Upload to {t.ref.repository}" a).map (⟨·, 0⟩) := by
  obtain ⟨a, ht, hu, rfl⟩ := withResponse_result (fun response =>
    calculates_bind (calculates_expect response _ _ _) fun _ =>
      calculates_bind (calculates_nextPlace response) fun place =>
        calculates_pure (⟨place, 0⟩ : UploadState)) h
  refine ⟨a, ht, hu, ?_⟩
  cases a with
  | fault f => rfl
  | response response =>
      rw [placeAfter, result, result]
      cases checkStatus response.status s!"Upload to {t.ref.repository}" .transfer [202] with
      | error e => rfl
      | ok u => cases locate s t.ref (response.header "Location") <;> rfl

theorem beginUpload_cases {t : UploadTask} {r : Except Failure UploadState}
    (h : beginUpload s t w = (r, w')) :
    ∃ a, Talk w [(uploadStart s t.ref, a)] w' ∧ Untouched w w' ∧
      ((∃ place, r = .ok ⟨place, 0⟩ ∧ Accepted s t.ref a place) ∨ ∃ e, r = .error e) := by
  obtain ⟨a, ht, hu, rfl⟩ := beginUpload_outcome h
  refine ⟨a, ht, hu, ?_⟩
  cases hr : placeAfter s t.ref s!"Upload to {t.ref.repository}" a with
  | error e => exact .inr ⟨e, rfl⟩
  | ok place => exact .inl ⟨place, rfl, placeAfter_eq_ok.1 hr⟩

/-- A chunk that is sent is a single request, by whose answer the upload goes on or fails. -/
theorem sendChunk_outcome {t : UploadTask} {state : UploadState} {chunk : List UInt8}
    {r : Except Failure UploadState} (h : sendChunk s t state chunk w = (r, w')) :
    ∃ a, Talk w [(chunkPatch state.url chunk, a)] w' ∧ Untouched w w' ∧
      r = (placeAfter s t.ref s!"Blob upload {t.digest}" a).map
        (⟨·, state.accepted + chunk.length⟩) := by
  have hrequest {r : Except Failure String} {w₁ : World}
      (h₁ : withResponse (chunkPatch state.url chunk) .upload (fun response => do
        expect response s!"Blob upload {t.digest}" .transfer [202]
        nextPlace s t.ref response) w = (r, w₁)) :
      ∃ a, Talk w [(chunkPatch state.url chunk, a)] w₁ ∧ Untouched w w₁ ∧
        r = placeAfter s t.ref s!"Blob upload {t.digest}" a :=
    withResponse_result (fun response => calculates_placeAfter response _) h₁
  rcases bind_cases h with ⟨url, w₁, h₁, h₂⟩ | ⟨e, h₁, rfl⟩
  · obtain ⟨a, ht, hu, hr⟩ := hrequest h₁
    rcases bind_cases h₂ with ⟨_, w₂, h₂, h₃⟩ | ⟨e, h₂, _⟩
    · obtain ⟨rfl, rfl⟩ := pure_inv h₃
      refine ⟨a, ht.before ((keeps_report (F := silent) _ _ _ _).rel h₂),
        hu.trans ((keeps_report (F := untouched) _ _ _ _).rel h₂), ?_⟩
      rw [← hr]
      rfl
    · exact absurd (report_cases h₂).1 (by simp)
  · obtain ⟨a, ht, hu, hr⟩ := hrequest h₁
    refine ⟨a, ht, hu, ?_⟩
    rw [← hr]
    rfl

/-- A chunk is accepted, and the upload goes on at the place that the answer names, or it fails. -/
theorem sendChunk_cases {t : UploadTask} {state : UploadState} {chunk : List UInt8}
    {r : Except Failure UploadState} (h : sendChunk s t state chunk w = (r, w')) :
    ∃ a, Talk w [(chunkPatch state.url chunk, a)] w' ∧ Untouched w w' ∧
      ((∃ state', r = .ok state' ∧ Accepted s t.ref a state'.url) ∨ ∃ e, r = .error e) := by
  obtain ⟨a, ht, hu, rfl⟩ := sendChunk_outcome h
  refine ⟨a, ht, hu, ?_⟩
  cases hr : placeAfter s t.ref s!"Blob upload {t.digest}" a with
  | error e => exact .inr ⟨e, rfl⟩
  | ok place => exact .inl ⟨_, rfl, placeAfter_eq_ok.1 hr⟩

/-- **Chunk by chunk, an upload sends all that it is given, or it fails.** -/
theorem sendChunks_cases {t : UploadTask} {chunks : List (List UInt8)} {state : UploadState}
    {w w' : World} {r : Except Failure UploadState}
    (h : chunks.foldlM (sendChunk s t) state w = (r, w')) :
    ∃ d, Talk w d w' ∧ Untouched w w' ∧ PutsNothing d ∧
      ((∃ state', r = .ok state' ∧ Sent s t.ref state.url chunks d state'.url) ∨
        ∃ e, r = .error e) := by
  induction chunks generalizing state w with
  | nil =>
      obtain ⟨rfl, rfl⟩ := pure_inv h
      exact ⟨[], .refl _, .refl _, putsNothing_nil,
        .inl ⟨state, rfl, .nil _⟩⟩
  | cons chunk chunks ih =>
      rw [List.foldlM_cons] at h
      rcases bind_cases h with ⟨state₁, w₁, h₁, h₂⟩ | ⟨e, h₁, rfl⟩
      · obtain ⟨a, ht₁, hu₁, hr₁⟩ := sendChunk_cases h₁
        obtain ⟨d, ht₂, hu₂, hp, hr₂⟩ := ih h₂
        refine ⟨_, ht₁.trans ht₂, hu₁.trans hu₂, (putsNothing_single (by nofun)).append hp, ?_⟩
        rcases hr₁ with ⟨state', hok, ha⟩ | ⟨e, he⟩
        · cases hok
          rcases hr₂ with ⟨state', rfl, hs⟩ | he
          · exact .inl ⟨state', rfl, .cons ha hs⟩
          · exact .inr he
        · exact absurd he (by simp)
      · obtain ⟨a, ht, hu, _⟩ := sendChunk_cases h₁
        exact ⟨_, ht, hu, putsNothing_single nofun, .inr ⟨e, rfl⟩⟩

/-- The digest that an upload gives when its last request was answered, or why it gives none. -/
def digestAfter (digest : String) (a : Answer) : Except Failure String :=
  result a .upload fun response => do
    checkStatus response.status s!"Blob upload {digest}" .transfer [201, 204]
    return digest

theorem endUpload_outcome {t : UploadTask} {state : UploadState} {r : Except Failure String}
    (h : endUpload t state w = (r, w')) :
    ∃ a, Talk w [(uploadEnd state.url t.digest, a)] w' ∧ Untouched w w' ∧
      r = digestAfter t.digest a :=
  withResponse_result (fun response =>
    calculates_bind (calculates_expect response _ _ _) fun _ => calculates_pure t.digest) h

/-- An upload that is ended has succeeded if the registry says so. -/
theorem endUpload_cases {t : UploadTask} {state : UploadState} {r : Except Failure String}
    (h : endUpload t state w = (r, w')) :
    ∃ a, Talk w [(uploadEnd state.url t.digest, a)] w' ∧ Untouched w w' ∧
      ((∃ v, r = .ok v) ↔ a.status? = some 201 ∨ a.status? = some 204) := by
  obtain ⟨a, ht, hu, rfl⟩ := endUpload_outcome h
  refine ⟨a, ht, hu, ?_⟩
  cases a with
  | fault f => exact ⟨fun ⟨_, hv⟩ => absurd hv nofun, fun h => absurd h (by simp [Answer.status?])⟩
  | response response =>
      constructor
      · rintro ⟨v, hv⟩
        have hs := (expect_bind_ok.1 hv).1
        simpa [Answer.status?] using hs
      · intro hs
        refine ⟨t.digest, expect_bind_ok.2 ⟨?_, rfl⟩⟩
        simpa [Answer.status?] using hs

/-! ## A blob that is sent on while it is read -/

/-- The full chunks of a blob are sent. If the whole blob has come, what is left makes them the
body. -/
theorem sendFullChunks_cases {t : UploadTask} {state : UploadState} {blob : Response}
    {r : Except Failure (UploadState × Option (List UInt8))}
    (h : sendFullChunks s t state blob w = (r, w')) :
    ∃ d, Talk w d w' ∧ Untouched w w' ∧ PutsNothing d ∧
      ((∃ state' rest? chunks, r = .ok (state', rest?) ∧ blob.broken = none ∧
          Sent s t.ref state.url chunks d state'.url ∧
          (chunks ++ rest?.toList).flatten = blob.body) ∨ ∃ e, r = .error e) := by
  rcases bind_cases h with ⟨state₁, w₁, h₁, h₂⟩ | ⟨e, h₁, rfl⟩
  · obtain ⟨d, ht, hu, hp, hr⟩ := sendChunks_cases h₁
    cases hb : blob.broken with
    | none =>
        rw [hb] at h₂
        obtain ⟨rfl, rfl⟩ := pure_inv h₂
        refine ⟨d, ht, hu, hp, ?_⟩
        rcases hr with ⟨state', hok, hs⟩ | ⟨e, he⟩
        · cases hok
          -- the slices that were read and the chunks that were sent are cuts of the same body
          refine .inl ⟨state₁, _, _, rfl, rfl, hs, ?_⟩
          exact Chunks.flatten_rechunk_slices s.chunkSize_pos s.readChunkSize_pos blob.body
        · exact absurd he (by simp)
    | some f =>
        rw [hb] at h₂
        obtain ⟨rfl, rfl⟩ := throw_inv h₂
        exact ⟨d, ht, hu, hp, .inr ⟨_, rfl⟩⟩
  · obtain ⟨d, ht, hu, hp, _⟩ := sendChunks_cases h₁
    exact ⟨d, ht, hu, hp, .inr ⟨e, rfl⟩⟩

/-- **A blob that is sent on is sent whole, or that fails.** -/
theorem relayBlob_cases {t : UploadTask} {state : UploadState} {r : Except Failure UploadState}
    (h : relayBlob s source t state w = (r, w')) :
    ∃ d, Talk w d w' ∧ Untouched w w' ∧ PutsNothing d ∧
      ((∃ state' blob chunks patches, r = .ok state' ∧
          d = (blobRequest s source t.digest [], .response blob) :: patches ∧
          blob.status = 200 ∧ blob.broken = none ∧
          Sent s t.ref state.url chunks patches state'.url ∧ chunks.flatten = blob.body) ∨
        ∃ e, r = .error e) := by
  have hget : ∀ a, PutsNothing [(blobRequest s source t.digest [], a)] := fun a =>
    putsNothing_single nofun
  rcases bind_cases h with ⟨⟨state₁, rest?⟩, w₁, h₁, h₂⟩ | ⟨e, h₁, rfl⟩
  · rcases withBlob_cases h₁ with ⟨_, _, e, he⟩ | ⟨_, _, _, _, e, he⟩ | hblob
    · exact absurd he (by simp)
    · exact absurd he (by simp)
    obtain ⟨blob, w₂, w₃, ht, hu, hs, hx, rfl⟩ := hblob
    obtain ⟨d₁, ht₁, hu₁, hp₁, hr₁⟩ := sendFullChunks_cases hx
    replace ht₁ := ht.trans (ht₁.before (.note _ (e := .released) rfl))
    replace hu₁ := (hu.trans hu₁).trans (Untouched.note _ .released)
    replace hp := (hget (.response blob)).append hp₁
    rcases hr₁ with ⟨state', _, chunks, hok, hb, hsent, hbody⟩ | ⟨e, he⟩
    · cases hok
      cases rest? with
      | none =>
          -- the chunks came out even
          obtain ⟨rfl, rfl⟩ := pure_inv h₂
          refine ⟨_, ht₁, hu₁, hp, .inl ⟨state₁, blob, chunks, d₁, rfl, rfl, hs, hb, hsent, ?_⟩⟩
          simpa using hbody
      | some rest =>
          -- what was left is a last chunk
          obtain ⟨a, ht₂, hu₂, hr₂⟩ := sendChunk_cases h₂
          refine ⟨_, ht₁.trans ht₂, hu₁.trans hu₂, hp.append (putsNothing_single nofun), ?_⟩
          rcases hr₂ with ⟨state', rfl, ha⟩ | he
          · exact .inl ⟨state', blob, _, _, rfl, rfl, hs, hb, hsent.append (.cons ha (.nil _)), hbody⟩
          · exact .inr he
    · exact absurd he (by simp)
  · rcases withBlob_cases h₁ with ⟨_, rfl, _⟩ | ⟨a, ht, hu, _, _⟩ | ⟨blob, w₂, w₃, ht, hu, _, hx, rfl⟩
    · exact ⟨[], .refl _, .refl _, putsNothing_nil, .inr ⟨e, rfl⟩⟩
    · exact ⟨_, ht, hu, hget a, .inr ⟨e, rfl⟩⟩
    · obtain ⟨d, ht₁, hu₁, hp, _⟩ := sendFullChunks_cases hx
      exact ⟨_, ht.trans (ht₁.before (.note _ (e := .released) rfl)),
        (hu.trans hu₁).trans (Untouched.note _ .released),
        (hget (.response blob)).append hp, .inr ⟨e, rfl⟩⟩

/-- **An upload from another repository is ended only when the whole blob has been sent.** It may be
that the registry refuses the end; any other failure comes before anything is put. -/
theorem uploadFrom_cases {listens : Bool} {r : Except Failure String}
    (h : uploadFrom s source ref digest listens w = (r, w')) :
    ∃ d, Talk w d w' ∧ Untouched w w' ∧
      ((∃ up last a, d = up ++ [(uploadEnd last digest, a)] ∧
          Streamed s source ref digest up last ∧
          ((∃ v, r = .ok v) ↔ a.status? = some 201 ∨ a.status? = some 204)) ∨
        (PutsNothing d ∧ ∃ e, r = .error e)) := by
  rcases checkAddress_bind h with ⟨_, h⟩ | ⟨_, rfl, he⟩
  case inr => exact ⟨[], .refl _, .refl _, .inr ⟨putsNothing_nil, _, he⟩⟩
  obtain ⟨w₁, ht₁, hu₁, h⟩ := ensureSession_bind h
  rcases bind_cases h with ⟨state, w₂, h₂, h⟩ | ⟨e, h₂, rfl⟩
  · obtain ⟨a, ht₂, hu₂, hr₂⟩ := beginUpload_cases h₂
    replace ht₂ := ht₁.after ht₂
    replace hu₂ := hu₁.trans hu₂
    rcases hr₂ with ⟨place, hok, ha⟩ | ⟨e, he⟩
    case inr => exact absurd he (by simp)
    cases hok
    rcases bind_cases h with ⟨state', w₃, h₃, h₄⟩ | ⟨e, h₃, rfl⟩
    · obtain ⟨d, ht₃, hu₃, _, hr₃⟩ := relayBlob_cases h₃
      rcases hr₃ with ⟨_, blob, chunks, patches, hok, rfl, hs, hb, hsent, hbody⟩ | ⟨e, he⟩
      · cases hok
        obtain ⟨b, ht₄, hu₄, hr₄⟩ := endUpload_cases h₄
        exact ⟨_, (ht₂.trans ht₃).trans ht₄, (hu₂.trans hu₃).trans hu₄, .inl ⟨_, state'.url, b, rfl,
          ⟨a, place, blob, chunks, patches, rfl, ha, hs, hb, hsent, hbody⟩, hr₄⟩⟩
      · exact absurd he (by simp)
    · obtain ⟨d, ht₃, hu₃, hp, _⟩ := relayBlob_cases h₃
      exact ⟨_, ht₂.trans ht₃, hu₂.trans hu₃,
        .inr ⟨(putsNothing_single (by nofun)).append hp, e, rfl⟩⟩
  · obtain ⟨a, ht₂, hu₂, _⟩ := beginUpload_cases h₂
    exact ⟨_, ht₁.after ht₂, hu₁.trans hu₂, .inr ⟨putsNothing_single nofun, e, rfl⟩⟩

/-! ## Frames that uploads keep to

A blob that is sent on is read from one response while others come of the chunks, so that a copy has
a frame for what is done beside any response, one for the use of a first, and one for that of a
second. -/

section

variable {F G H : Frame} {t : UploadTask} {state : UploadState}

theorem keeps_beginUpload (hF : F.Serving G) : Keeps F (beginUpload s t) :=
  hF.keeps_withResponse _ _ fun _ => keeps_bind (keeps_ofExcept _ _) fun _ =>
    keeps_bind (keeps_ofExcept _ _) fun _ => keeps_pure _

theorem keeps_sendChunk (hF : F.Serving G) [F.Hears t.listens] (chunk : List UInt8) :
    Keeps F (sendChunk s t state chunk) := by
  refine keeps_bind (hF.keeps_withResponse _ _ fun _ => ?_) fun _ =>
    keeps_bind (keeps_report _ _ _ _) fun _ => keeps_pure _
  exact keeps_bind (keeps_ofExcept _ _) fun _ => keeps_ofExcept _ _

theorem keeps_endUpload (hF : F.Serving G) : Keeps F (endUpload t state) :=
  hF.keeps_withResponse _ _ fun _ => keeps_bind (keeps_ofExcept _ _) fun _ => keeps_pure _

theorem keeps_uploadWith (hF : F.Serving G) {send : UploadState → Exchange UploadState}
    (hsend : ∀ state, Keeps F (send state)) : Keeps F (uploadWith s t send) :=
  keeps_bind (keeps_checkAddress _) fun _ => keeps_bind (hF.keeps_ensureSession _) fun _ =>
    keeps_bind (keeps_beginUpload hF) fun state =>
      keeps_bind (hsend state) fun _ => keeps_endUpload hF

theorem keeps_uploadChunks (hF : F.Serving G) [F.Hears t.listens] (chunks : List (List UInt8)) :
    Keeps F (uploadChunks s t chunks) :=
  keeps_uploadWith hF fun state => keeps_foldlM (fun _ chunk => keeps_sendChunk hF chunk) chunks state

/-- While the blob is read, chunks are sent. -/
theorem keeps_relayBlob (hF : F.Serving G) (hG : G.Serving H) [F.Hears t.listens]
    [G.Hears t.listens] : Keeps F (relayBlob s source t state) := by
  have hfull : ∀ blob, Keeps G (sendFullChunks s t state blob) := by
    intro blob
    refine keeps_bind (keeps_foldlM (fun _ chunk => keeps_sendChunk hG chunk) _ _) fun _ => ?_
    split
    · exact keeps_pure _
    · exact keeps_throw _
  refine keeps_bind (keeps_withBlob hF hfull) fun ⟨_, rest?⟩ => ?_
  cases rest? with
  | none => exact keeps_pure _
  | some rest => exact keeps_sendChunk hF rest

theorem keeps_uploadFrom (hF : F.Serving G) (hG : G.Serving H) (listens : Bool)
    [F.Hears listens] [G.Hears listens] : Keeps F (uploadFrom s source ref digest listens) :=
  keeps_uploadWith hF fun _ => keeps_relayBlob hF hG

theorem keeps_mountBlob (hF : F.Serving G) : Keeps F (mountBlob s source ref digest) := by
  refine keeps_bind (hF.keeps_ensureSession _) fun _ =>
    keeps_bind (hF.keeps_withResponse _ _ fun _ => keeps_ite (keeps_pure _) ?_) fun location? => ?_
  · exact keeps_bind (keeps_ofExcept _ _) fun _ => keeps_pure _
  · split
    · exact keeps_pure _
    · -- an upload that the registry has begun is given up
      refine keeps_bind (keeps_ite (keeps_pure _) ?_) fun _ => keeps_pure _
      exact keeps_bind (keeps_ofExcept _ _) fun _ =>
        hF.keeps_withResponseOr _ (hF.keeps_log (by decide) _ _) fun _ => keeps_pure _

theorem keeps_copyBlob (hF : F.Serving G) (hG : G.Serving H) (listens : Bool) [F.Hears listens]
    [G.Hears listens] : Keeps F (copyBlob s source ref digest listens) := by
  refine keeps_bind (keeps_hasBlob hF _) fun _ => keeps_ite (hF.keeps_log (by decide) _ _) ?_
  refine keeps_bind (keeps_ite (keeps_mountBlob hF) (keeps_pure _)) fun _ =>
    keeps_ite (hF.keeps_log (by decide) _ _) ?_
  exact keeps_bind (keeps_uploadFrom hF hG listens) fun _ => keeps_pure _

end

end ImageTransfer.Registry
