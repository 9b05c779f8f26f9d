import ImageTransfer.Proofs.Registry.Upload
import Mathlib.Data.List.Forall2

/-!
# The steps of an upload

An upload has steps to take: one that opens it, one for each chunk, and one that closes it. `Follows`
is a run through steps from a place: the request of a step goes to the place at hand, an answer that
does not accept it ends the run, and one that does names the place for the next step. A run that came to
a place is followed by the run from there (`Follows.append`), and one that failed is a run through any
further steps (`Follows.stop`), so that the run of an upload comes of those of its parts.

The data may be at hand, or come in pieces, or be read from another repository while it is sent. In the
last case two dialogues are mixed: that of the upload (`ownPart`) and that with the source
(`sourcePart`). If the source breaks off, the upload is interrupted between two of its steps. In all
three cases the run goes through the steps of an upload of the slices of the data (`upload_follows`).
-/

namespace ImageTransfer

/-- The part of the body of an answer that arrived. -/
def Answer.body : Answer → List UInt8
  | .response r => r.body
  | .fault _ => []

/-- The answer serves a whole body, as a success. -/
def Answer.IsWhole (a : Answer) : Prop :=
  ∃ response, a = .response response ∧ response.status = 200 ∧ response.broken = none

namespace Registry

open Exchange

variable {α β : Type} {s : Settings} {ref source : Reference} {digest place next : String}
  {w w' : World} {may may' : Prop}

/-! ## Steps -/

/-- What an upload has to do. -/
inductive UploadStep
  | opening
  | chunk (bytes : List UInt8)
  | closing

namespace UploadStep

/-- The request of a step of an upload that has come to a place. -/
def request (s : Settings) (ref : Reference) (digest place : String) : UploadStep → Request
  | opening => uploadStart s ref
  | chunk bytes => chunkPatch place bytes
  | closing => uploadEnd place digest

/-- The statuses that accept the request of a step. -/
def accepted : UploadStep → List Int
  | opening | chunk _ => [202]
  | closing => [201, 204]

/-- What a failure of the step is about. -/
def what (ref : Reference) (digest : String) : UploadStep → String
  | opening => s!"Upload to {ref.repository}"
  | chunk _ | closing => s!"Blob upload {digest}"

/-- What an accepted step gives: the place for the next one, and in the end the digest. -/
def gain (s : Settings) (ref : Reference) (digest : String) (response : Response) :
    UploadStep → Except Failure String
  | opening | chunk _ => (locate s ref (response.header "Location")).mapError .url
  | closing => .ok digest

/-- What is made of the answer to a step. -/
def verdict (s : Settings) (ref : Reference) (digest : String) (step : UploadStep) (a : Answer) :
    Except Failure String :=
  result a .upload fun response => do
    checkStatus response.status (step.what ref digest) .transfer step.accepted
    step.gain s ref digest response

/-- The answer accepts the request of the step. -/
def Accepts (step : UploadStep) (a : Answer) : Prop :=
  ∃ status ∈ step.accepted, a.status? = some status

/-- The answer refuses the request of the step: it has another status, or there is none because of a
fault of the network. -/
def Refuses (step : UploadStep) : Answer → Prop
  | .response r => r.status ∉ step.accepted
  | .fault f => f.isNetwork = true

variable {step : UploadStep} {a : Answer}

theorem method_request (step : UploadStep) :
    (step.request s ref digest place).method ≠ .get := by
  cases step <;> exact nofun

/-- Only an accepted step gives something. -/
theorem accepts_of_verdict {v : String} (h : step.verdict s ref digest a = .ok v) :
    step.Accepts a := by
  cases a with
  | fault f => exact absurd h nofun
  | response response => exact ⟨response.status, (expect_bind_ok.1 h).1, rfl⟩

/-- The last step gives the digest if it is accepted, and only then. -/
theorem verdict_closing {v : String} :
    closing.verdict s ref digest a = .ok v ↔ v = digest ∧ closing.Accepts a := by
  constructor
  · intro h
    refine ⟨?_, accepts_of_verdict h⟩
    cases a with
    | fault f => exact absurd h nofun
    | response response => exact (Except.ok.inj (expect_bind_ok.1 h).2).symm
  · rintro ⟨rfl, status, hs, ha⟩
    cases a with
    | fault f => exact absurd ha nofun
    | response response =>
        cases ha
        exact expect_bind_ok.2 ⟨hs, rfl⟩

/-- **A refusal fails**, and in which way is up to the status. -/
theorem Refuses.verdict (s : Settings) (ref : Reference) (digest : String) (h : step.Refuses a) :
    ∃ e, step.verdict s ref digest a = .error e ∧
      e.kind = if a.status? = some 404 then .missing else .transfer := by
  cases a with
  | fault f =>
      have hnetwork : f.isNetwork = true := h
      refine ⟨f.failure .upload, rfl, ?_⟩
      rw [Fault.failure, if_pos hnetwork]
      rfl
  | response response =>
      obtain ⟨e, he, hkind⟩ := checkStatus_refused (step.what ref digest) .transfer h
      refine ⟨e, ?_, hkind.trans (by simp [Answer.status?])⟩
      rw [UploadStep.verdict, result, he]
      rfl

end UploadStep

/-- All that an upload of chunks has to do. -/
def uploadSteps (chunks : List (List UInt8)) : List UploadStep :=
  .opening :: (chunks.map .chunk ++ [.closing])

/-! ## Runs through steps -/

/-- A run through steps from a place, what was said in it, and what it came to: the next place, or a
failure. It may be that something else than the registry interrupts it. -/
inductive Follows (may : Prop) (s : Settings) (ref : Reference) (digest : String) :
    String → List UploadStep → Dialogue → Except Failure String → Prop
  | done (place : String) : Follows may s ref digest place [] [] (.ok place)
  | refused {place : String} {step : UploadStep} {steps : List UploadStep} {a : Answer} {e : Failure} :
      step.verdict s ref digest a = .error e →
        Follows may s ref digest place (step :: steps) [(step.request s ref digest place, a)] (.error e)
  | accepted {place next : String} {step : UploadStep} {steps : List UploadStep} {a : Answer}
      {d : Dialogue} {r : Except Failure String} :
      step.verdict s ref digest a = .ok next → Follows may s ref digest next steps d r →
        Follows may s ref digest place (step :: steps) ((step.request s ref digest place, a) :: d) r
  | interrupted (place : String) (steps : List UploadStep) (e : Failure) :
      may → Follows may s ref digest place steps [] (.error e)

namespace Follows

variable {steps more : List UploadStep} {d d' : Dialogue} {r : Except Failure String}

theorem single (place : String) (step : UploadStep) (a : Answer) :
    Follows may s ref digest place [step] [(step.request s ref digest place, a)]
      (step.verdict s ref digest a) := by
  cases h : step.verdict s ref digest a with
  | error e => exact .refused h
  | ok next => exact .accepted h (.done next)

theorem append (h : Follows may s ref digest place steps d (.ok next))
    (h' : Follows may s ref digest next more d' r) :
    Follows may s ref digest place (steps ++ more) (d ++ d') r := by
  generalize hok : Except.ok next = v at h
  induction h with
  | done place => cases hok; exact h'
  | refused _ => cases hok
  | accepted ha _ ih => exact .accepted ha (ih hok)
  | interrupted => cases hok

/-- A run that has failed leaves the steps after it alone. -/
theorem stop {e : Failure} (h : Follows may s ref digest place steps d (.error e))
    (more : List UploadStep) : Follows may s ref digest place (steps ++ more) d (.error e) := by
  generalize herror : Except.error e = v at h ⊢
  induction h with
  | done place => cases herror
  | refused ha => exact .refused ha
  | accepted ha _ ih => exact .accepted ha (ih herror)
  | interrupted place steps e hm => exact .interrupted place (steps ++ more) e hm

theorem mono (hmay : may → may') (h : Follows may s ref digest place steps d r) :
    Follows may' s ref digest place steps d r := by
  induction h with
  | done place => exact .done place
  | refused ha => exact .refused ha
  | accepted ha _ ih => exact .accepted ha ih
  | interrupted place steps e hm => exact .interrupted place steps e (hmay hm)

/-- The requests are those of the first steps. -/
theorem inOrder (h : Follows may s ref digest place steps d r) :
    ∃ taken, taken <+: steps ∧
      List.Forall₂ (fun step p => ∃ place, p.1 = UploadStep.request s ref digest place step) taken d := by
  induction h with
  | done place => exact ⟨[], List.nil_prefix, .nil⟩
  | @refused place step steps a e ha =>
      exact ⟨[step], ⟨steps, rfl⟩, .cons ⟨place, rfl⟩ .nil⟩
  | @accepted place next step steps a d r ha _ ih =>
      obtain ⟨taken, htaken, hall⟩ := ih
      exact ⟨step :: taken, List.cons_prefix_cons.2 ⟨rfl, htaken⟩, .cons ⟨place, rfl⟩ hall⟩
  | interrupted place steps e hm => exact ⟨[], List.nil_prefix, .nil⟩

/-- **A refused request is the last**, and the run fails as the answer says. -/
theorem refusal (h : Follows may s ref digest place steps d r) {i : Nat} {step : UploadStep}
    {p : Request × Answer} (hstep : steps[i]? = some step) (hp : d[i]? = some p)
    (hrefuses : step.Refuses p.2) :
    i + 1 = d.length ∧ ∃ e, r = .error e ∧
      e.kind = if p.2.status? = some 404 then .missing else .transfer := by
  induction h generalizing i with
  | done place => exact absurd hp nofun
  | @refused place first steps a e ha =>
      cases i with
      | succ i => exact absurd hp nofun
      | zero =>
          cases hstep
          cases hp
          obtain ⟨e', he, hkind⟩ := hrefuses.verdict s ref digest
          cases ha.symm.trans he
          exact ⟨rfl, e, rfl, hkind⟩
  | @accepted place next first steps a d r ha _ ih =>
      cases i with
      | succ i =>
          obtain ⟨hlast, hr⟩ := ih hstep hp
          exact ⟨congrArg (· + 1) hlast, hr⟩
      | zero =>
          cases hstep
          cases hp
          obtain ⟨e, he, _⟩ := hrefuses.verdict s ref digest
          exact absurd (ha.symm.trans he) nofun
  | interrupted => exact absurd hp nofun

/-- The requests of an upload get nothing. -/
theorem method_ne (h : Follows may s ref digest place steps d r) : ∀ p ∈ d, p.1.method ≠ .get := by
  induction h with
  | done | interrupted => exact fun p hp => absurd hp List.not_mem_nil
  | @refused place step _ a _ _ =>
      intro p hp
      rw [List.mem_singleton.1 hp]
      exact step.method_request
  | @accepted place _ step _ a _ _ _ _ ih =>
      intro p hp
      rcases List.mem_cons.1 hp with rfl | hp
      · exact step.method_request
      · exact ih p hp

end Follows

/-! ## Two dialogues in one -/

/-- The part of a dialogue in which nothing is got: what an upload says for itself. -/
def ownPart (d : Dialogue) : Dialogue := d.filter fun p => p.1.method ≠ .get

/-- The part of a dialogue in which something is got: what is said to the source of an upload. -/
def sourcePart (d : Dialogue) : Dialogue := d.filter fun p => p.1.method = .get

theorem ownPart_append (d d' : Dialogue) : ownPart (d ++ d') = ownPart d ++ ownPart d' :=
  List.filter_append d d'

theorem sourcePart_append (d d' : Dialogue) : sourcePart (d ++ d') = sourcePart d ++ sourcePart d' :=
  List.filter_append d d'

theorem ownPart_eq_self {d : Dialogue} (h : ∀ p ∈ d, p.1.method ≠ .get) : ownPart d = d :=
  List.filter_eq_self.2 fun p hp => decide_eq_true (h p hp)

theorem sourcePart_eq_nil {d : Dialogue} (h : ∀ p ∈ d, p.1.method ≠ .get) : sourcePart d = [] :=
  List.filter_eq_nil_iff.2 fun p hp => by simpa using h p hp

/-- Where an upload has its data from. -/
inductive Supply
  /-- The data is at hand. -/
  | bytes (data : List UInt8)
  /-- It comes in pieces, and somebody has said how much it is. -/
  | pieces (total : Int) (pieces : List (List UInt8))
  /-- It is read from another repository while it is sent. -/
  | blob (source : Reference)

namespace Supply

/-- The upload. -/
def upload (s : Settings) (ref : Reference) (digest : String) (listens : Bool) :
    Supply → Exchange String
  | bytes data => Registry.upload s ref digest listens data
  | pieces total parts => uploadPieces s ref digest listens total parts
  | blob source => uploadFrom s source ref digest listens

/-- The data that is there in a run with a dialogue. -/
def data (d : Dialogue) : Supply → List UInt8
  | bytes data => data
  | pieces _ parts => parts.flatten
  | blob _ => (sourcePart d).flatMap fun p => p.2.body

/-- The data does not come to its end in a run with a dialogue. -/
def Breaks (d : Dialogue) : Supply → Prop
  | bytes _ | pieces _ _ => False
  | blob _ => ∃ p ∈ sourcePart d, ¬ p.2.IsWhole

variable {supply : Supply} {d d' : Dialogue}

theorem data_congr (h : sourcePart d' = sourcePart d) : supply.data d' = supply.data d := by
  cases supply with
  | bytes data => rfl
  | pieces total parts => rfl
  | blob source => exact congrArg (List.flatMap fun p => p.2.body) h

theorem breaks_congr (h : sourcePart d' = sourcePart d) : supply.Breaks d' ↔ supply.Breaks d := by
  cases supply with
  | bytes data => exact Iff.rfl
  | pieces total parts => exact Iff.rfl
  | blob source => unfold Breaks; rw [h]

end Supply

/-! ## The runs of an upload -/

/-- In whatever way the data comes, the digest is checked first. -/
theorem upload_refused (h : Digest.isAddress digest = false) (s : Settings) (ref : Reference)
    (listens : Bool) (supply : Supply) (w : World) :
    supply.upload s ref digest listens w = refused digest w := by
  cases supply with
  | bytes data => exact checkAddress_refused h _ w
  | pieces total parts => exact checkAddress_refused h _ w
  | blob source => exact checkAddress_refused h _ w

theorem sendChunk_follows (may : Prop) {t : UploadTask} {state : UploadState} {chunk : List UInt8}
    {r : Except Failure UploadState} (h : sendChunk s t state chunk w = (r, w')) :
    ∃ d, Talk w d w' ∧
      Follows may s t.ref t.digest state.url [.chunk chunk] d (r.map (·.url)) := by
  obtain ⟨a, ht, _, rfl⟩ := sendChunk_outcome h
  refine ⟨_, ht, ?_⟩
  have hverdict : ((placeAfter s t.ref s!"Blob upload {t.digest}" a).map
      (fun url => (⟨url, state.accepted + chunk.length⟩ : UploadState))).map (·.url) =
      UploadStep.verdict s t.ref t.digest (.chunk chunk) a := by
    show _ = placeAfter s t.ref s!"Blob upload {t.digest}" a
    cases placeAfter s t.ref s!"Blob upload {t.digest}" a <;> rfl
  rw [hverdict]
  exact .single state.url (.chunk chunk) a

/-- Chunks are sent step by step. -/
theorem sendChunks_follows (may : Prop) {t : UploadTask} {chunks : List (List UInt8)} {state : UploadState}
    {r : Except Failure UploadState} (h : chunks.foldlM (sendChunk s t) state w = (r, w')) :
    ∃ d, Talk w d w' ∧
      Follows may s t.ref t.digest state.url (chunks.map .chunk) d (r.map (·.url)) := by
  induction chunks generalizing state w with
  | nil =>
      obtain ⟨rfl, rfl⟩ := pure_inv h
      exact ⟨[], .refl _, .done state.url⟩
  | cons chunk chunks ih =>
      rw [List.foldlM_cons] at h
      rcases bind_cases h with ⟨state₁, w₁, h₁, h₂⟩ | ⟨e, h₁, rfl⟩
      · obtain ⟨d₁, ht₁, hf₁⟩ := sendChunk_follows may h₁
        obtain ⟨d₂, ht₂, hf₂⟩ := ih h₂
        exact ⟨d₁ ++ d₂, ht₁.trans ht₂, hf₁.append hf₂⟩
      · obtain ⟨d, ht, hf⟩ := sendChunk_follows may h₁
        exact ⟨d, ht, hf.stop _⟩

/-- The full chunks of a blob are sent step by step, and a body that breaks off interrupts that. -/
theorem sendFullChunks_follows {t : UploadTask} {state : UploadState} {blob : Response}
    {r : Except Failure (UploadState × Option (List UInt8))}
    (h : sendFullChunks s t state blob w = (r, w')) :
    let regrouped := Chunks.regroup s.chunkSize (Chunks.slices s.readChunkSize blob.body)
    ∃ d, Talk w d w' ∧ (∀ v, r = .ok v → v.2 = regrouped.rest?) ∧
      Follows (blob.broken ≠ none) s t.ref t.digest state.url (regrouped.chunks.map .chunk) d
        (r.map (·.1.url)) := by
  intro regrouped
  rcases bind_cases h with ⟨state₁, w₁, h₁, h₂⟩ | ⟨e, h₁, rfl⟩
  · obtain ⟨d, ht, hf⟩ := sendChunks_follows (blob.broken ≠ none) h₁
    cases hb : blob.broken with
    | none =>
        rw [hb] at h₂
        obtain ⟨rfl, rfl⟩ := pure_inv h₂
        rw [hb] at hf
        exact ⟨d, ht, fun v hv => by cases hv; rfl, hf⟩
    | some f =>
        rw [hb] at h₂
        obtain ⟨rfl, rfl⟩ := throw_inv h₂
        refine ⟨d, ht, nofun, ?_⟩
        have hend := hf.append (.interrupted state₁.url [] (f.failure (.download t.digest)) (by simp [hb]))
        rwa [List.append_nil, List.append_nil, hb] at hend
  · obtain ⟨d, ht, hf⟩ := sendChunks_follows (blob.broken ≠ none) h₁
    exact ⟨d, ht, nofun, hf⟩

/-- The dialogue of a blob that is sent on has one request to the source. -/
theorem parts_blobRequest (s : Settings) (source : Reference) (digest : String) (a : Answer)
    {d : Dialogue} (h : ∀ p ∈ d, p.1.method ≠ .get) :
    sourcePart ((blobRequest s source digest [], a) :: d) = [(blobRequest s source digest [], a)] ∧
      ownPart ((blobRequest s source digest [], a) :: d) = d :=
  ⟨congrArg (_ :: ·) (sourcePart_eq_nil h), ownPart_eq_self h⟩

/-- What breaks a blob breaks the supply. -/
theorem breaks_blobRequest {a : Answer} {d : Dialogue} (h : ∀ p ∈ d, p.1.method ≠ .get)
    (ha : ¬ a.IsWhole) :
    (Supply.blob source).Breaks ((blobRequest s source digest [], a) :: d) := by
  refine ⟨(blobRequest s source digest [], a), ?_, ha⟩
  rw [(parts_blobRequest s source digest a h).1]
  exact List.mem_singleton_self _

/-- The chunks of a body, of which the last waits for the end, are the slices of what is there. -/
theorem Follows.relayed {blob : Response} {d : Dialogue} {r : Except Failure String}
    (hf : Follows (blob.broken ≠ none) s ref digest place
      ((Chunks.rechunk s.chunkSize (Chunks.slices s.readChunkSize blob.body)).map .chunk) d r) :
    let supply : Supply := .blob source
    let d' := (blobRequest s source digest [], .response blob) :: d
    Follows (supply.Breaks d') s ref digest place
      ((Chunks.slices s.chunkSize (supply.data d')).map .chunk) (ownPart d') r := by
  intro supply d'
  obtain ⟨hsource, hown⟩ := parts_blobRequest s source digest (.response blob) hf.method_ne
  have hdata : supply.data d' = blob.body := by
    show (sourcePart d').flatMap _ = _
    rw [hsource]
    exact List.append_nil blob.body
  rw [Chunks.rechunk_eq_slices s.chunkSize_pos, Chunks.flatten_slices s.readChunkSize_pos] at hf
  rw [hdata, hown]
  refine hf.mono fun hbroken => breaks_blobRequest hf.method_ne ?_
  rintro ⟨_, hresponse, _, hnone⟩
  cases hresponse
  exact hbroken hnone

/-- **A blob that is sent on is sent step by step**, and only its source interrupts that. -/
theorem relayBlob_follows {t : UploadTask} {state : UploadState} {r : Except Failure UploadState}
    (hd : Digest.isAddress t.digest = true) (h : relayBlob s source t state w = (r, w')) :
    let supply : Supply := .blob source
    ∃ d, Talk w d w' ∧ Follows (supply.Breaks d) s t.ref t.digest state.url
      ((Chunks.slices s.chunkSize (supply.data d)).map .chunk) (ownPart d) (r.map (·.url)) := by
  intro supply
  have hnone : ∀ p ∈ ([] : Dialogue), p.1.method ≠ .get := fun p hp => absurd hp List.not_mem_nil
  have hreleased {w₁ w₂ : World} {d d' : Dialogue} (ht : Talk w d w₁) (ht' : Talk w₁ d' w₂) :
      Talk w (d ++ d') (w₂.note .released) := ht.trans (ht'.before (.note w₂ rfl))
  rcases bind_cases h with ⟨⟨state₁, rest?⟩, w₁, h₁, h₂⟩ | ⟨e, h₁, rfl⟩
  · rcases withBlob_cases h₁ with ⟨_, _, e, he⟩ | ⟨_, _, _, _, e, he⟩ | hblob
    · cases he
    · cases he
    obtain ⟨blob, w₂, w₃, ht, _, _, hx, rfl⟩ := hblob
    obtain ⟨d, ht₁, hrest, hf⟩ := sendFullChunks_follows hx
    replace hrest := hrest _ rfl
    cases rest? with
    | none =>
        -- the chunks came out even
        obtain ⟨rfl, rfl⟩ := pure_inv h₂
        refine ⟨_, hreleased ht ht₁, Follows.relayed ?_⟩
        rw [Chunks.rechunk, ← hrest, Option.toList_none, List.append_nil]
        exact hf
    | some rest =>
        -- what was left is a last chunk
        obtain ⟨d', ht₂, hf'⟩ := sendChunk_follows (blob.broken ≠ none) h₂
        refine ⟨_, (hreleased ht ht₁).trans ht₂, Follows.relayed ?_⟩
        rw [Chunks.rechunk, ← hrest, List.map_append]
        exact hf.append hf'
  · rcases withBlob_cases h₁ with ⟨hbad, _⟩ | ⟨a, ht, _, hstatus, _⟩ | ⟨blob, w₂, w₃, ht, _, _, hx, rfl⟩
    · exact absurd (hd.symm.trans hbad) Bool.noConfusion
    · refine ⟨_, ht, .interrupted state.url _ e (breaks_blobRequest hnone ?_)⟩
      rintro ⟨response, rfl, hs, _⟩
      exact hstatus (congrArg some hs)
    · obtain ⟨d, ht₁, _, hf⟩ := sendFullChunks_follows hx
      refine ⟨_, hreleased ht ht₁, Follows.relayed ?_⟩
      rw [Chunks.rechunk, List.map_append]
      exact hf.stop _

theorem beginUpload_follows {t : UploadTask} {r : Except Failure UploadState}
    (h : beginUpload s t w = (r, w')) :
    ∃ a, Talk w [(uploadStart s t.ref, a)] w' ∧
      UploadStep.opening.verdict s t.ref t.digest a = r.map (·.url) := by
  obtain ⟨a, ht, _, rfl⟩ := beginUpload_outcome h
  refine ⟨a, ht, ?_⟩
  show placeAfter s t.ref s!"Upload to {t.ref.repository}" a = _
  cases placeAfter s t.ref s!"Upload to {t.ref.repository}" a <;> rfl

/-- An upload is a run through its steps if what sends its content is one through the chunks. -/
theorem uploadWith_follows {t : UploadTask} {send : UploadState → Exchange UploadState}
    {supply : Supply} {r : Except Failure String} (hd : Digest.isAddress t.digest = true)
    (hsend : ∀ {state w r w'}, send state w = (r, w') → ∃ d, Talk w d w' ∧
      Follows (supply.Breaks d) s t.ref t.digest state.url
        ((Chunks.slices s.chunkSize (supply.data d)).map .chunk) (ownPart d) (r.map (·.url)))
    (h : uploadWith s t send w = (r, w')) :
    ∃ d, Talk w d w' ∧ Follows (supply.Breaks d) s t.ref t.digest ""
      (uploadSteps (Chunks.slices s.chunkSize (supply.data d))) (ownPart d) r := by
  rcases checkAddress_bind h with ⟨_, h⟩ | ⟨hbad, _⟩
  case inr => exact absurd (hd.symm.trans hbad) nofun
  obtain ⟨w₁, ht₁, _, h⟩ := ensureSession_bind h
  rcases bind_cases h with ⟨state, w₂, h₂, h⟩ | ⟨e, h₂, rfl⟩
  case inr =>
    obtain ⟨a, ht, hrefused⟩ := beginUpload_follows h₂
    exact ⟨_, ht₁.after ht, .refused hrefused⟩
  obtain ⟨a, ht₂, hopened⟩ := beginUpload_follows h₂
  replace ht₂ := ht₁.after ht₂
  -- what comes before and after the content has nothing to do with its source
  have hbefore (d : Dialogue) : sourcePart ([(uploadStart s t.ref, a)] ++ d) = sourcePart d := rfl
  rcases bind_cases h with ⟨state', w₃, h₃, h₄⟩ | ⟨e, h₃, rfl⟩
  · obtain ⟨d, ht₃, hf⟩ := hsend h₃
    obtain ⟨b, ht₄, _, rfl⟩ := endUpload_outcome h₄
    have hparts : sourcePart ([(uploadStart s t.ref, a)] ++ d ++ [(uploadEnd state'.url t.digest, b)]) =
        sourcePart d := by
      rw [sourcePart_append, hbefore]
      exact List.append_nil _
    refine ⟨_, (ht₂.trans ht₃).trans ht₄, ?_⟩
    rw [Supply.data_congr hparts, ownPart_append]
    exact .accepted hopened
      ((hf.mono (Supply.breaks_congr hparts).2).append (.single state'.url .closing b))
  · obtain ⟨d, ht₃, hf⟩ := hsend h₃
    refine ⟨_, ht₂.trans ht₃, ?_⟩
    rw [Supply.data_congr (hbefore d)]
    exact .accepted hopened ((hf.mono (Supply.breaks_congr (hbefore d)).2).stop [.closing])

/-- An upload of chunks that do not depend on what is said is one through the slices of the data. -/
theorem uploadChunks_follows {t : UploadTask} {chunks : List (List UInt8)} {supply : Supply}
    {r : Except Failure String} (hd : Digest.isAddress t.digest = true)
    (hchunks : ∀ d, Chunks.slices s.chunkSize (supply.data d) = chunks)
    (h : uploadChunks s t chunks w = (r, w')) :
    ∃ d, Talk w d w' ∧ Follows (supply.Breaks d) s t.ref t.digest ""
      (uploadSteps (Chunks.slices s.chunkSize (supply.data d))) (ownPart d) r := by
  refine uploadWith_follows hd (fun h => ?_) h
  obtain ⟨d, ht, hf⟩ := sendChunks_follows False h
  refine ⟨d, ht, ?_⟩
  rw [hchunks, ownPart_eq_self hf.method_ne]
  exact hf.mono False.elim

/-- **Every upload to a digest is a run through the steps of an upload of the slices of its data.** -/
theorem upload_follows (s : Settings) (ref : Reference) (listens : Bool) (supply : Supply) (w : World)
    (hd : Digest.isAddress digest = true) :
    let run := supply.upload s ref digest listens w
    let d := w.dialogue run.2
    Follows (supply.Breaks d) s ref digest ""
      (uploadSteps (Chunks.slices s.chunkSize (supply.data d))) (ownPart d) run.1 := by
  have hrun : ∃ d, Talk w d (supply.upload s ref digest listens w).2 ∧
      Follows (supply.Breaks d) s ref digest "" (uploadSteps (Chunks.slices s.chunkSize (supply.data d)))
        (ownPart d) (supply.upload s ref digest listens w).1 := by
    cases supply with
    | bytes data =>
        exact uploadChunks_follows (t := ⟨ref, digest, listens, data.length⟩) hd (fun _ => rfl) rfl
    | pieces total parts =>
        exact uploadChunks_follows (t := ⟨ref, digest, listens, total⟩) hd
          (fun _ => (Chunks.rechunk_eq_slices s.chunkSize_pos parts).symm) rfl
    | blob source =>
        exact uploadWith_follows (t := ⟨ref, digest, listens, 0⟩) hd (relayBlob_follows hd) rfl
  obtain ⟨d, ht, hf⟩ := hrun
  intro run d'
  obtain rfl : d' = d := ht.dialogue_eq
  exact hf

end Registry

end ImageTransfer
