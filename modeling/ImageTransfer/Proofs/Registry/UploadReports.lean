import ImageTransfer.Proofs.Exchange.Reports
import ImageTransfer.Proofs.Registry.UploadOrder
import Mathlib.Algebra.Ring.Nat

/-!
# What an upload reports

Each time the registry has taken a chunk, an upload reports how many bytes it has taken so far. So the
marks of an upload can be told from what it says (`announced`): an upload keeps a count, and `Counts`
says of each part of it that the reports show the count that the part leaves behind.

The counts are sums of the lengths of slices of the data, the first ones, as many as were taken
(`Follows.taken`). So they grow, up to the length of the data if the upload succeeds.
-/

namespace ImageTransfer.Registry

open Exchange

variable {s : Settings} {ref source : Reference} {digest place : String} {total : Int}
  {w w' : World} {may : Prop}

/-! ## Running totals -/

/-- How far each of some amounts takes a count. -/
def runningTotals : Nat → List Nat → List Nat
  | _, [] => []
  | n, k :: ks => (n + k) :: runningTotals (n + k) ks

section

variable {n m : Nat} {ks : List Nat}

/-- The totals are between the beginning of the count and its end. -/
theorem mem_runningTotals (hpos : ∀ k ∈ ks, 0 < k) (hm : m ∈ runningTotals n ks) :
    n < m ∧ m ≤ n + ks.sum := by
  induction ks generalizing n with
  | nil => exact absurd hm List.not_mem_nil
  | cons k ks ih =>
      have hk := hpos k List.mem_cons_self
      rw [List.sum_cons]
      rcases List.mem_cons.1 hm with rfl | hm
      · omega
      · have := ih (fun k hk => hpos k (List.mem_cons_of_mem _ hk)) hm
        omega

/-- **Totals of amounts that are not nothing grow.** -/
theorem pairwise_runningTotals (hpos : ∀ k ∈ ks, 0 < k) :
    (runningTotals n ks).Pairwise (· < ·) := by
  induction ks generalizing n with
  | nil => exact .nil
  | cons k ks ih =>
      have hrest := fun k hk => hpos k (List.mem_cons_of_mem _ hk)
      exact .cons (fun m hm => (mem_runningTotals hrest hm).1) (ih hrest)

/-- The last total is that of all amounts. -/
theorem getLast?_runningTotals (n : Nat) (ks : List Nat) :
    (runningTotals n ks).getLast?.getD n = n + ks.sum := by
  induction ks generalizing n with
  | nil => rfl
  | cons k ks ih =>
      rw [runningTotals, List.getLast?_cons, Option.getD_some, ih, List.sum_cons, Nat.add_assoc]

end

/-! ## Chunks that were taken -/

/-- The answer accepts a request of an upload, with a place to go on at. -/
def accepts (s : Settings) (ref : Reference) : Answer → Bool
  | .response r => r.status == 202 && (locate s ref (r.header "Location")).isOk
  | .fault _ => false

theorem accepts_iff {a : Answer} : accepts s ref a = true ↔ ∃ place, Accepted s ref a place := by
  cases a with
  | fault f => exact ⟨nofun, fun ⟨_, _, h, _⟩ => absurd h nofun⟩
  | response r =>
      rw [accepts, Bool.and_eq_true, beq_iff_eq]
      constructor
      · rintro ⟨hs, hl⟩
        cases hlocate : locate s ref (r.header "Location") with
        | error e => rw [hlocate] at hl; exact absurd hl nofun
        | ok place => exact ⟨place, r, rfl, hs, hlocate⟩
      · rintro ⟨place, _, hr, hs, hl⟩
        cases hr
        exact ⟨hs, by rw [hl]; rfl⟩

/-- How many bytes the registry took, if what was said is a chunk that it accepted. -/
def taken? (s : Settings) (ref : Reference) (p : Request × Answer) : Option Nat :=
  if p.1.method = .patch ∧ accepts s ref p.2 = true then some (p.1.body.getD []).length else none

/-- The sizes of the chunks that the registry took. -/
def takenIn (s : Settings) (ref : Reference) (d : Dialogue) : List Nat := d.filterMap (taken? s ref)

theorem taken?_of_method {p : Request × Answer} (h : p.1.method ≠ .patch) :
    taken? s ref p = none := if_neg fun hp => h hp.1

section

variable {p : Request × Answer} {d : Dialogue} {k : Nat}

theorem takenIn_cons_of_none (h : taken? s ref p = none) :
    takenIn s ref (p :: d) = takenIn s ref d := List.filterMap_cons_none h

theorem takenIn_cons_of_some (h : taken? s ref p = some k) :
    takenIn s ref (p :: d) = k :: takenIn s ref d := List.filterMap_cons_some h

/-- Nothing is taken by other requests. -/
theorem takenIn_of_method (h : ∀ p ∈ d, p.1.method ≠ .patch) : takenIn s ref d = [] :=
  List.filterMap_eq_nil_iff.2 fun p hp => taken?_of_method (h p hp)

theorem takenIn_single (h : p.1.method ≠ .patch) : takenIn s ref [p] = [] :=
  takenIn_cons_of_none (taken?_of_method h)

end

theorem takenIn_append (d d' : Dialogue) :
    takenIn s ref (d ++ d') = takenIn s ref d ++ takenIn s ref d' := List.filterMap_append

/-- A chunk is taken if there is a place to go on at after it. -/
theorem taken?_chunk_of_ok {chunk : List UInt8} {what next : String} {a : Answer}
    (h : placeAfter s ref what a = .ok next) :
    taken? s ref (chunkPatch place chunk, a) = some chunk.length :=
  if_pos ⟨rfl, accepts_iff.2 ⟨next, placeAfter_eq_ok.1 h⟩⟩

theorem taken?_chunk_of_error {chunk : List UInt8} {what : String} {a : Answer} {e : Failure}
    (h : placeAfter s ref what a = .error e) : taken? s ref (chunkPatch place chunk, a) = none := by
  refine if_neg fun hp => ?_
  obtain ⟨next, ha⟩ := accepts_iff.1 hp.2
  exact absurd (h.symm.trans (placeAfter_eq_ok.2 ha)) nofun

/-! ## Reports of chunks -/

/-- The marks of an upload by which `n` bytes had been taken before: its requests, and a report of the
bytes so far after each chunk that is taken. -/
def announced (s : Settings) (ref : Reference) (total : Int) : Nat → Dialogue → List Mark
  | _, [] => []
  | n, p :: d =>
    match taken? s ref p with
    | none => .request p.1 :: announced s ref total n d
    | some k => .request p.1 :: .report (n + k : Nat) total :: announced s ref total (n + k) d

section

variable {p : Request × Answer} {d : Dialogue} {n k : Nat}

theorem announced_cons_of_none (h : taken? s ref p = none) :
    announced s ref total n (p :: d) = .request p.1 :: announced s ref total n d := by
  rw [announced, h]

theorem announced_cons_of_some (h : taken? s ref p = some k) :
    announced s ref total n (p :: d) =
      .request p.1 :: .report (n + k : Nat) total :: announced s ref total (n + k) d := by
  rw [announced, h]

end

theorem announced_append (n : Nat) (d d' : Dialogue) :
    announced s ref total n (d ++ d') =
      announced s ref total n d ++ announced s ref total (n + (takenIn s ref d).sum) d' := by
  induction d generalizing n with
  | nil => rfl
  | cons p d ih =>
      rw [List.cons_append]
      cases htaken : taken? s ref p with
      | none =>
          rw [announced_cons_of_none htaken, announced_cons_of_none htaken,
            takenIn_cons_of_none htaken, ih, List.cons_append]
      | some k =>
          rw [announced_cons_of_some htaken, announced_cons_of_some htaken,
            takenIn_cons_of_some htaken, ih, List.sum_cons, ← Nat.add_assoc, List.cons_append,
            List.cons_append]

/-- Where no chunk is taken there are only requests. -/
theorem announced_of_takenIn {n : Nat} {d : Dialogue} (h : takenIn s ref d = []) :
    announced s ref total n d = d.map fun p => .request p.1 := by
  induction d with
  | nil => rfl
  | cons p d ih =>
      cases htaken : taken? s ref p with
      | none =>
          rw [takenIn_cons_of_none htaken] at h
          rw [announced_cons_of_none htaken, ih h, List.map_cons]
      | some k =>
          rw [takenIn_cons_of_some htaken] at h
          exact absurd h nofun

/-- **What is reported are the running totals of the chunks.** -/
theorem filterMap_report_announced (n : Nat) (d : Dialogue) :
    (announced s ref total n d).filterMap Mark.report? =
      (runningTotals n (takenIn s ref d)).map fun m : Nat => ((m : Int), total) := by
  induction d generalizing n with
  | nil => rfl
  | cons p d ih =>
      cases htaken : taken? s ref p with
      | none =>
          rw [announced_cons_of_none htaken, takenIn_cons_of_none htaken]
          exact ih n
      | some k =>
          rw [announced_cons_of_some htaken, takenIn_cons_of_some htaken]
          exact congrArg (_ :: ·) (ih (n + k))

/-- Between two worlds this was said and heard, and reported as an upload does by which `n` bytes had
been taken before. -/
structure Announces (s : Settings) (ref : Reference) (total : Int) (n : Nat) (w : World) (d : Dialogue)
    (w' : World) : Prop where
  talk : Talk w d w'
  marks : Shows Event.mark? w (announced s ref total n d) w'

namespace Announces

variable {n : Nat} {d d' : Dialogue} {w₁ : World}

theorem of_speech (h : Speech w d w') (hd : takenIn s ref d = []) : Announces s ref total n w d w' :=
  ⟨h.talk, by rw [announced_of_takenIn hd]; exact h.marks⟩

theorem trans (h : Announces s ref total n w d w₁)
    (h' : Announces s ref total (n + (takenIn s ref d).sum) w₁ d' w') :
    Announces s ref total n w (d ++ d') w' :=
  ⟨h.talk.trans h'.talk, by rw [announced_append]; exact h.marks.trans h'.marks⟩

/-- What happens without a request or a report does not matter. -/
theorem before (h : Announces s ref total n w d w₁) (h' : Speech w₁ [] w') :
    Announces s ref total n w d w' :=
  ⟨h.talk.before h'.talk, h.marks.before h'.marks⟩

end Announces

/-! ## Uploads that are listened to -/

/-- A part of an upload reports what it says, and leaves the count behind that it has come to. -/
def Counts (s : Settings) (t : UploadTask) (state : UploadState) (w : World)
    (r : Except Failure UploadState) (w' : World) : Prop :=
  ∃ d, Announces s t.ref t.total state.accepted w d w' ∧
    ∀ state', r = .ok state' → state'.accepted = state.accepted + (takenIn s t.ref d).sum

section

variable {t : UploadTask} {state state₁ : UploadState} {r : Except Failure UploadState} {w₁ : World}

theorem Counts.refl (state : UploadState) (w : World) : Counts s t state w (.ok state) w :=
  ⟨[], .of_speech (.refl w) rfl, fun state' h => by cases h; rfl⟩

theorem Counts.trans (h : Counts s t state w (.ok state₁) w₁) (h' : Counts s t state₁ w₁ r w') :
    Counts s t state w r w' := by
  obtain ⟨d, ha, hd⟩ := h
  obtain ⟨d', ha', hd'⟩ := h'
  -- the second part counts on from where the first one has come to
  rw [hd state₁ rfl] at ha' hd'
  refine ⟨d ++ d', ha.trans ha', fun state' hok => ?_⟩
  rw [hd' state' hok, takenIn_append, List.sum_append, Nat.add_assoc]

/-- What happens around a part of an upload without a chunk that is taken. -/
theorem Counts.within {d : Dialogue} {w₂ : World} (hd : takenIn s t.ref d = []) (h : Speech w d w₁)
    (h' : Counts s t state w₁ r w₂) (h'' : Speech w₂ [] w') : Counts s t state w r w' := by
  obtain ⟨d', ha, hcount⟩ := h'
  have hbefore : Announces s t.ref t.total state.accepted w d w₁ := .of_speech h hd
  refine ⟨d ++ d', (hbefore.trans ?_).before h'', fun state' hok => ?_⟩
  · rw [hd]
    exact ha
  · rw [takenIn_append, hd]
    exact hcount state' hok

/-- Where a part fails that takes no chunk, nothing is reported. -/
theorem Counts.failed {d : Dialogue} {e : Failure} (h : Speech w d w') (hd : takenIn s t.ref d = []) :
    Counts s t state w (.error e) w' := ⟨d, .of_speech h hd, nofun⟩

/-- **A chunk is reported if it is taken**, with the count that it leaves behind. -/
theorem sendChunk_counts {chunk : List UInt8} (ht : t.listens = true)
    (h : sendChunk s t state chunk w = (r, w')) : Counts s t state w r w' := by
  rcases bind_cases h with ⟨url, w₁, h₁, h₂⟩ | ⟨e, h₁, rfl⟩
  · obtain ⟨a, hs, hplace⟩ := withResponse_calculated
      (fun response => calculates_placeAfter response _) h₁
    have htaken : taken? s t.ref (chunkPatch state.url chunk, a) = some chunk.length :=
      taken?_chunk_of_ok hplace.symm
    rw [ht] at h₂
    rw [bind_run (report_run _ _ _ w₁)] at h₂
    obtain ⟨rfl, rfl⟩ := pure_inv h₂
    obtain ⟨htalk, hmark⟩ := report_marks w₁ _ _ _
    refine ⟨_, ⟨hs.talk.before htalk, ?_⟩, fun state' hok => ?_⟩
    · rw [announced_cons_of_some htaken]
      exact hs.marks.trans hmark
    · cases hok
      rw [takenIn_cons_of_some htaken]
      rfl
  · obtain ⟨a, hs, hplace⟩ := withResponse_calculated
      (fun response => calculates_placeAfter response _) h₁
    exact .failed hs (takenIn_cons_of_none (taken?_chunk_of_error hplace.symm))

/-- Chunk by chunk, the count goes on. -/
theorem sendChunks_counts {chunks : List (List UInt8)} (ht : t.listens = true)
    (h : chunks.foldlM (sendChunk s t) state w = (r, w')) : Counts s t state w r w' := by
  induction chunks generalizing state w with
  | nil =>
      obtain ⟨rfl, rfl⟩ := pure_inv h
      exact .refl state w'
  | cons chunk chunks ih =>
      rw [List.foldlM_cons] at h
      rcases bind_cases h with ⟨state₁, w₁, h₁, h₂⟩ | ⟨e, h₁, rfl⟩
      · exact (sendChunk_counts ht h₁).trans (ih h₂)
      · exact sendChunk_counts ht h₁

theorem sendFullChunks_counts {blob : Response}
    {r : Except Failure (UploadState × Option (List UInt8))} (ht : t.listens = true)
    (h : sendFullChunks s t state blob w = (r, w')) :
    Counts s t state w (r.map Prod.fst) w' := by
  rcases bind_cases h with ⟨state₁, w₁, h₁, h₂⟩ | ⟨e, h₁, rfl⟩
  · have hcounts := sendChunks_counts ht h₁
    cases hb : blob.broken with
    | none =>
        rw [hb] at h₂
        obtain ⟨rfl, rfl⟩ := pure_inv h₂
        exact hcounts
    | some f =>
        rw [hb] at h₂
        obtain ⟨rfl, rfl⟩ := throw_inv h₂
        exact hcounts.trans (.failed (.refl _) rfl)
  · exact sendChunks_counts ht h₁

/-- Nothing is reported of a request for a blob: it fails, or what is reported is reported in the use
of the response. -/
theorem withBlob_speech {α : Type} {use : Response → Exchange α} {r : Except Failure α}
    (h : withBlob s source digest [] use w = (r, w')) :
    (∃ d, Speech w d w' ∧ (∀ p ∈ d, p.1.method = .get) ∧ ∃ e, r = .error e) ∨
      ∃ blob w₁ w₂, Speech w [(blobRequest s source digest [], .response blob)] w₁ ∧
        use blob w₁ = (r, w₂) ∧ w' = w₂.note .released := by
  rcases checkAddress_bind h with ⟨_, h⟩ | ⟨_, rfl, he⟩
  case inr => exact .inl ⟨[], .refl _, fun p hp => absurd hp List.not_mem_nil, _, he⟩
  obtain ⟨w₁, hs₁, h⟩ := ensureSession_bind_speech h
  obtain ⟨w₂, hs₂, _, h⟩ := note_bind_speech rfl rfl h
  replace hs₂ := hs₁.after hs₂
  have hget (a : Answer) : ∀ p ∈ [(blobRequest s source digest [], a)], p.1.method = .get :=
    fun p hp => List.mem_singleton.1 hp ▸ rfl
  rcases withResponse_speech h with ⟨f, hs₃, he⟩ | ⟨blob, w₃, w₄, hs₃, hx, rfl⟩
  · exact .inl ⟨_, hs₂.after hs₃, hget _, _, he⟩
  rcases expect_bind hx with ⟨_, hx⟩ | ⟨_, rfl, e, _, he⟩
  · exact .inr ⟨blob, w₃, w₄, hs₂.after hs₃, hx, rfl⟩
  · exact .inl ⟨_, (hs₂.after hs₃).before (.note _ rfl rfl), hget _, e, he⟩

/-- **A blob that is sent on is reported as it is taken**, and nothing of its source is. -/
theorem relayBlob_counts (ht : t.listens = true) (h : relayBlob s source t state w = (r, w')) :
    Counts s t state w r w' := by
  have hget (a : Answer) : takenIn s t.ref [(blobRequest s source t.digest [], a)] = [] :=
    takenIn_single nofun
  rcases bind_cases h with ⟨⟨state₁, rest?⟩, w₁, h₁, h₂⟩ | ⟨e, h₁, rfl⟩
  · rcases withBlob_speech h₁ with ⟨_, _, _, e, he⟩ | ⟨blob, w₂, w₃, hs, hx, rfl⟩
    · cases he
    have hcounts : Counts s t state w (.ok state₁) (w₃.note .released) :=
      .within (hget _) hs (sendFullChunks_counts ht hx) (.note w₃ rfl rfl)
    cases rest? with
    | none =>
        obtain ⟨rfl, rfl⟩ := pure_inv h₂
        exact hcounts
    -- what is left is less than a chunk, and is sent after the source has been released
    | some rest => exact hcounts.trans (sendChunk_counts ht h₂)
  · rcases withBlob_speech h₁ with ⟨d, hs, hget', _⟩ | ⟨blob, w₂, w₃, hs, hx, rfl⟩
    · exact .failed hs (takenIn_of_method fun p hp => by rw [hget' p hp]; decide)
    · exact .within (hget _) hs (sendFullChunks_counts ht hx) (.note w₃ rfl rfl)

/-- An upload begins without a report, and with nothing taken. -/
theorem beginUpload_speech (h : beginUpload s t w = (r, w')) :
    ∃ a, Speech w [(uploadStart s t.ref, a)] w' ∧ ∀ state, r = .ok state → state.accepted = 0 := by
  obtain ⟨a, ht, _, rfl⟩ := beginUpload_outcome h
  refine ⟨a, ⟨ht, (keeps_beginUpload unreported_online.serving).rel h⟩, fun state hok => ?_⟩
  cases hplace : placeAfter s t.ref s!"Upload to {t.ref.repository}" a with
  | error e => rw [hplace] at hok; cases hok
  | ok place => rw [hplace] at hok; cases hok; rfl

/-- An upload reports what it says if what sends its content does. -/
theorem uploadWith_announces {send : UploadState → Exchange UploadState} {r : Except Failure String}
    (hsend : ∀ {state w r w'}, send state w = (r, w') → Counts s t state w r w')
    (h : uploadWith s t send w = (r, w')) : ∃ d, Announces s t.ref t.total 0 w d w' := by
  rcases checkAddress_bind h with ⟨_, h⟩ | ⟨_, rfl, _⟩
  case inr => exact ⟨[], .of_speech (.refl _) rfl⟩
  obtain ⟨w₁, hs₁, h⟩ := ensureSession_bind_speech h
  rcases bind_cases h with ⟨state, w₂, h₂, h⟩ | ⟨e, h₂, rfl⟩
  case inr =>
    obtain ⟨a, hs₂, _⟩ := beginUpload_speech h₂
    exact ⟨_, .of_speech (hs₁.after hs₂) (takenIn_single nofun)⟩
  obtain ⟨a, hs₂, hzero⟩ := beginUpload_speech h₂
  have hbegun : Announces s t.ref t.total 0 w [(uploadStart s t.ref, a)] w₂ :=
    .of_speech (hs₁.after hs₂) (takenIn_single nofun)
  have hsent {r : Except Failure UploadState} {w₃ : World} (h₃ : send state w₂ = (r, w₃)) :
      ∃ d, Announces s t.ref t.total 0 w ([(uploadStart s t.ref, a)] ++ d) w₃ := by
    obtain ⟨d, hd, _⟩ := hsend h₃
    rw [hzero state rfl] at hd
    refine ⟨d, hbegun.trans ?_⟩
    rw [takenIn_single (p := (uploadStart s t.ref, a)) nofun]
    exact hd
  rcases bind_cases h with ⟨state', w₃, h₃, h₄⟩ | ⟨e, h₃, rfl⟩
  · obtain ⟨d, hd⟩ := hsent h₃
    obtain ⟨b, ht₄, _⟩ := endUpload_outcome h₄
    have hu₄ : unreported.rel w₃ w' := (keeps_endUpload unreported_online.serving).rel h₄
    exact ⟨_, hd.trans (.of_speech ⟨ht₄, hu₄⟩ (takenIn_single nofun))⟩
  · obtain ⟨d, hd⟩ := hsent h₃
    exact ⟨_, hd⟩

end

namespace Supply

/-- How much there is to upload, as the reports state it. -/
def statedSize : Supply → Int
  | bytes data => data.length
  | pieces total _ => total
  | blob _ => 0

end Supply

/-- **What an upload reports can be told from what it says.** -/
theorem upload_announces (s : Settings) (ref : Reference) (digest : String) (supply : Supply)
    (w : World) : let run := supply.upload s ref digest true w
    w.marksSince run.2 = announced s ref supply.statedSize 0 (w.dialogue run.2) := by
  intro run
  obtain ⟨d, ht, hmarks⟩ : ∃ d, Announces s ref supply.statedSize 0 w d run.2 := by
    cases supply with
    | bytes data =>
        exact uploadWith_announces (t := ⟨ref, digest, true, _⟩)
          (fun h => sendChunks_counts rfl h) rfl
    | pieces size parts =>
        exact uploadWith_announces (t := ⟨ref, digest, true, _⟩)
          (fun h => sendChunks_counts rfl h) rfl
    | blob source =>
        exact uploadWith_announces (t := ⟨ref, digest, true, _⟩)
          (fun h => relayBlob_counts rfl h) rfl
  rw [ht.dialogue_eq]
  exact hmarks.seenSince_eq

/-! ## How far the counts come -/

/-- The chunk of a step that sends one. -/
def UploadStep.size? : UploadStep → Option Nat
  | .chunk bytes => some bytes.length
  | .opening | .closing => none

theorem filterMap_size_uploadSteps (chunks : List (List UInt8)) :
    (uploadSteps chunks).filterMap UploadStep.size? = chunks.map List.length := by
  rw [uploadSteps, List.filterMap_cons_none rfl, List.filterMap_append, List.filterMap_map,
    ← List.filterMap_eq_map]
  exact List.append_nil _

section

variable {step : UploadStep} {a : Answer}

/-- A step that is accepted takes its chunk. -/
theorem taken?_step_of_ok {next : String} (h : step.verdict s ref digest a = .ok next) :
    taken? s ref (step.request s ref digest place, a) = step.size? := by
  cases step with
  | chunk bytes => exact taken?_chunk_of_ok h
  | opening | closing => exact taken?_of_method nofun

theorem taken?_step_of_error {e : Failure} (h : step.verdict s ref digest a = .error e) :
    taken? s ref (step.request s ref digest place, a) = none := by
  cases step with
  | chunk bytes => exact taken?_chunk_of_error h
  | opening | closing => exact taken?_of_method nofun

end

/-- **The chunks that are taken are the first ones**, and all of them if the upload succeeds. -/
theorem Follows.taken {steps : List UploadStep} {d : Dialogue} {r : Except Failure String}
    (h : Follows may s ref digest place steps d r) :
    takenIn s ref d <+: steps.filterMap UploadStep.size? ∧
      ((∃ v, r = .ok v) → takenIn s ref d = steps.filterMap UploadStep.size?) := by
  induction h with
  -- an upload that stops early has taken no chunk of the steps that are left
  | done place => exact ⟨List.prefix_refl _, fun _ => rfl⟩
  | interrupted place steps e hm => exact ⟨List.nil_prefix, fun ⟨_, hv⟩ => absurd hv nofun⟩
  | refused hv =>
      rw [takenIn_cons_of_none (taken?_step_of_error hv)]
      exact ⟨List.nil_prefix, fun ⟨_, hv⟩ => absurd hv nofun⟩
  | @accepted place next step steps a d r hv _ ih =>
      have htaken : taken? s ref (step.request s ref digest place, a) = step.size? :=
        taken?_step_of_ok hv
      cases hsize : step.size? with
      | none =>
          rw [takenIn_cons_of_none (htaken.trans hsize), List.filterMap_cons_none hsize]
          exact ih
      | some k =>
          rw [takenIn_cons_of_some (htaken.trans hsize), List.filterMap_cons_some hsize]
          exact ⟨List.cons_prefix_cons.2 ⟨rfl, ih.1⟩, fun hok => congrArg (k :: ·) (ih.2 hok)⟩

/-- What an upload says to the source of its data takes no chunk. -/
theorem takenIn_ownPart (d : Dialogue) : takenIn s ref (ownPart d) = takenIn s ref d := by
  rw [takenIn, ownPart, List.filterMap_filter, takenIn]
  congr 1
  funext p
  by_cases h : p.1.method = .get
  · rw [taken?_of_method (by rw [h]; decide)]
    simp
  · simp [h]

/-- The counts that are reported of an upload grow, up to the length of the data if it succeeds. -/
structure Grows (data : List UInt8) (total : Int) (r : Except Failure String)
    (reports : List (Int × Int)) : Prop where
  increasing : reports.Pairwise fun p q => p.1 < q.1
  bounded : ∀ p ∈ reports, 0 < p.1 ∧ p.1 ≤ data.length ∧ p.2 = total
  complete : data ≠ [] → (∃ v, r = .ok v) → reports.getLast? = some ((data.length : Int), total)

/-- Running totals of the lengths of the first slices grow. -/
theorem grows_runningTotals {size : Nat} (hsize : 0 < size) {data : List UInt8} {total : Int}
    {r : Except Failure String} {ks : List Nat}
    (hks : ks <+: (Chunks.slices size data).map List.length)
    (hall : (∃ v, r = .ok v) → ks = (Chunks.slices size data).map List.length) :
    Grows data total r ((runningTotals 0 ks).map fun m : Nat => ((m : Int), total)) := by
  have hsum : ((Chunks.slices size data).map List.length).sum = data.length := by
    rw [← List.length_flatten, Chunks.flatten_slices hsize]
  have hpos : ∀ k ∈ ks, 0 < k := by
    intro k hk
    obtain ⟨piece, hpiece, rfl⟩ := List.mem_map.1 (hks.subset hk)
    exact List.length_pos_iff.2 (Chunks.ne_nil_of_mem_slices hsize hpiece)
  have hle : ks.sum ≤ data.length := by
    obtain ⟨rest, hrest⟩ := hks
    rw [← hsum, ← hrest, List.sum_append]
    exact Nat.le_add_right _ _
  refine ⟨?_, fun p hp => ?_, fun hne hok => ?_⟩
  · exact (pairwise_runningTotals hpos).map _ fun m m' h => Int.ofNat_lt.2 h
  · obtain ⟨m, hm, rfl⟩ := List.mem_map.1 hp
    have hm := mem_runningTotals hpos hm
    refine ⟨?_, ?_, rfl⟩ <;> omega
  · have hsumks : ks.sum = data.length := by rw [hall hok, hsum]
    cases ks with
    | nil => exact absurd (List.length_eq_zero_iff.1 hsumks.symm) hne
    | cons k ks =>
        rw [List.sum_cons] at hsumks
        rw [runningTotals, List.getLast?_map, List.getLast?_cons, Nat.zero_add,
          getLast?_runningTotals, hsumks]
        rfl

/-- **The counts of an upload grow.** -/
theorem upload_grows (s : Settings) (ref : Reference) (digest : String) (supply : Supply)
    (w : World) : let run := supply.upload s ref digest true w
    Grows (supply.data (w.dialogue run.2)) supply.statedSize run.1 (w.reportsSince run.2) := by
  intro run
  rw [World.reportsSince_eq, upload_announces, filterMap_report_announced]
  cases hd : Digest.isAddress digest with
  | true =>
      have hf := upload_follows s ref true supply w hd
      obtain ⟨hks, hall⟩ := hf.taken
      rw [filterMap_size_uploadSteps, takenIn_ownPart] at hks hall
      exact grows_runningTotals s.chunkSize_pos hks hall
  | false =>
      -- a digest that is no address is refused
      have hrun : run = refused digest w := upload_refused hd s ref true supply w
      have hnothing : w.dialogue run.2 = [] := by rw [hrun]; exact (Talk.refl w).dialogue_eq
      rw [hnothing]
      refine ⟨.nil, fun p hp => absurd hp List.not_mem_nil, fun _ ⟨v, hv⟩ => ?_⟩
      rw [hrun] at hv
      exact absurd hv nofun

/-- Three bytes are two chunks, and so they are two reports. -/
example :
    let run := (Supply.bytes [1, 2, 3]).upload pairSettings teamImage "sha256:00" true takingWorld
    takingWorld.reportsSince run.2 = [(2, 3), (3, 3)] := by
  decide +kernel

/-- A registry that accepts a chunk with a location that is no URL. -/
def strandingWorld : World :=
  .start [continueAt "/v2/team/app/blobs/uploads/7", continueAt "http://["] ⟨.connection, ""⟩
    .unlimited fun _ => ""

/-- **A chunk may be accepted and not reported.** The status of the last answer accepts it, but the
upload cannot go on at its location, and fails before the report. -/
theorem upload_strands :
    let run := (Supply.bytes [1]).upload pairSettings teamImage "sha256:00" true strandingWorld
    (strandingWorld.dialogue run.2).map (fun p => (p.1.method, p.2.status?)) =
        [(.post, some 202), (.patch, some 202)] ∧
      strandingWorld.reportsSince run.2 = [] := by
  decide +kernel

end ImageTransfer.Registry
