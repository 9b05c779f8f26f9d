import ImageTransfer.Proofs.Registry.UploadSteps

/-!
# The order of an upload

What is said in an upload is `Orderly`: the requests are those of the first steps, one that is refused
is the last, and the upload gives its digest when all steps were taken and accepted, and only then. The
steps are known beforehand, since the chunks are the slices of the data. How the data arrives does not
matter for them, and so an upload of pieces is the same program as one of the data that they bring
(`uploadPieces_eq_upload`).
-/

namespace ImageTransfer.Registry

open Exchange

variable {s : Settings} {ref : Reference} {digest place : String} {may : Prop}

/-- What was said took the steps in their order, and it came to what the answers say. -/
structure Orderly (s : Settings) (ref : Reference) (digest : String) (steps : List UploadStep)
    (d : Dialogue) (r : Except Failure String) : Prop where
  /-- The requests are those of the first steps. -/
  inOrder : ∃ taken, taken <+: steps ∧
    List.Forall₂ (fun step p => ∃ place, p.1 = UploadStep.request s ref digest place step) taken d
  /-- A refused request is the last. It fails as what is not there, or as a transfer. -/
  refusal : ∀ (i : Nat) (step : UploadStep) (p : Request × Answer), steps[i]? = some step →
    d[i]? = some p → step.Refuses p.2 → i + 1 = d.length ∧
      ∃ e, r = .error e ∧ e.kind = if p.2.status? = some 404 then .missing else .transfer
  /-- The digest comes out if all steps were taken and accepted, and only then. -/
  completed : ∀ v, r = .ok v ↔
    v = digest ∧ List.Forall₂ (fun step p => UploadStep.Accepts step p.2) steps d

/-- A run that nothing else interrupts gives the digest if all steps up to the last are accepted. -/
theorem Follows.completed {steps : List UploadStep} {d : Dialogue} {r : Except Failure String}
    (hmay : ¬ may) (h : Follows may s ref digest place (steps ++ [.closing]) d r) (v : String) :
    r = .ok v ↔ v = digest ∧
      List.Forall₂ (fun step p => UploadStep.Accepts step p.2) (steps ++ [.closing]) d := by
  induction steps generalizing place d with
  | nil =>
      cases h with
      | interrupted _ _ _ hm => exact absurd hm hmay
      | @refused _ _ _ a _ hv =>
          refine ⟨nofun, fun ⟨_, hall⟩ => ?_⟩
          have hok : UploadStep.closing.verdict s ref digest a = .ok digest :=
            UploadStep.verdict_closing.2 ⟨rfl, (List.forall₂_cons.1 hall).1⟩
          exact absurd (hv.symm.trans hok) nofun
      | accepted hv hrest =>
          obtain ⟨rfl, ha⟩ := UploadStep.verdict_closing.1 hv
          cases hrest with
          | interrupted _ _ _ hm => exact absurd hm hmay
          | done => exact ⟨fun hr => ⟨(Except.ok.inj hr).symm, .cons ha .nil⟩, fun ⟨hr, _⟩ => hr ▸ rfl⟩
  | cons step steps ih =>
      rw [List.cons_append] at h ⊢
      cases h with
      | interrupted _ _ _ hm => exact absurd hm hmay
      | refused hv =>
          -- there is a step left that was not taken
          refine ⟨nofun, fun ⟨_, hall⟩ => ?_⟩
          have hlength := (List.forall₂_cons.1 hall).2.length_eq
          rw [List.length_append] at hlength
          exact absurd hlength (Nat.succ_ne_zero _)
      | accepted hv hrest =>
          rw [ih hrest, List.forall₂_cons]
          exact and_congr_right fun _ => (and_iff_right (UploadStep.accepts_of_verdict hv)).symm

/-- Settings that send two bytes at once. -/
def pairSettings : Settings := ⟨60, 2, 2, [], .warn, by decide, by decide, by decide⟩

/-- A repository to upload to. -/
def teamImage : Reference := ⟨"registry.io", "team/app", some "v1", none⟩

/-- An answer that accepts a part of an upload, and says where it goes on. -/
def continueAt (location : String) : Answer := .response ⟨202, [("Location", location)], [], none⟩

/-- A registry that takes an upload of two chunks. -/
def takingWorld : World :=
  .start (List.replicate 3 (continueAt "/v2/team/app/blobs/uploads/7") ++ [.response ⟨201, [], [], none⟩])
    ⟨.connection, ""⟩ .unlimited fun _ => ""

/-- **An upload of pieces is the same program as one of the data that they bring.** The loop that drains
its buffer gives the chunks that cutting by position gives, and so does regrouping. -/
theorem uploadPieces_eq_upload (s : Settings) (ref : Reference) (digest : String) (listens : Bool)
    (pieces : List (List UInt8)) :
    Chunks.rechunkBuffered s.chunkSize pieces = Chunks.cut s.chunkSize pieces.flatten ∧
      Chunks.rechunk s.chunkSize pieces = Chunks.slices s.chunkSize pieces.flatten ∧
      ∀ w, uploadPieces s ref digest listens pieces.flatten.length pieces w =
        upload s ref digest listens pieces.flatten w := by
  have hslices : Chunks.rechunk s.chunkSize pieces = Chunks.slices s.chunkSize pieces.flatten :=
    Chunks.rechunk_eq_slices s.chunkSize_pos pieces
  refine ⟨?_, hslices, fun w => ?_⟩
  · rw [Chunks.cut_eq_slices s.chunkSize_pos]
    exact Chunks.rechunkBuffered_eq_slices s.chunkSize_pos pieces
  · rw [uploadPieces, hslices]
    rfl

end ImageTransfer.Registry
