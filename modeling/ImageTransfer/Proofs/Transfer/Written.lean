import ImageTransfer.Proofs.Digest.Digester
import ImageTransfer.Proofs.Transfer.Failures
import ImageTransfer.Proofs.Transfer.Staging
import ImageTransfer.Transfer.Pull

/-!
# What operations have written when they end

A pull writes a blob while it arrives, so at any moment the sink has what has been gone through: a
beginning of the body, and all of it in the end. An export writes last of all. It has written
nothing when it fails, unless the sink itself has refused to go on, and that is a failure of the
archive.
-/

namespace ImageTransfer.Transfer

open Exchange Registry

variable {decoders : Compression.Decoders} {s : Settings} {ref : Reference} {digest : String}
  {policy : Option IntegrityPolicy} {w w' : World}

/-! ## Pulled blobs -/

/-- Pieces are written and hashed one after the other, up to the first that is refused. -/
theorem writePieces_outcome {d : Digest.Digester} {pieces : List (List UInt8)}
    {r : Except Failure Digest.Digester}
    (h : (pieces.foldlM (fun d piece => do
      write piece
      return d.update piece) d : Exchange Digest.Digester) w = (r, w')) :
    Talk w [] w' ∧ ∃ part, w'.sink.bytes = w.sink.bytes ++ part ∧ part <+: pieces.flatten ∧
      (r = .ok (d.update pieces.flatten) ∧ part = pieces.flatten ∨
        (∃ e, r = .error e) ∧ w'.sink.isFull = true) := by
  induction pieces generalizing d w with
  | nil =>
      obtain ⟨rfl, rfl⟩ := pure_inv h
      exact ⟨.refl _, [], (List.append_nil _).symm, List.prefix_refl _, .inl ⟨rfl, rfl⟩⟩
  | cons piece pieces ih =>
      rw [List.foldlM_cons] at h
      have hwrite := write_run piece w
      have hbytes := Sink.bytes_write w.sink piece
      have hsilent : Talk w [] { w with sink := w.sink.write piece } := .of_eq rfl rfl rfl
      split at hwrite
      · rename_i hrefused
        rw [if_pos hrefused] at hbytes
        rw [bind_error (bind_error hwrite)] at h
        obtain ⟨rfl, rfl⟩ := Prod.mk.inj h
        refine ⟨hsilent, [], ?_, List.nil_prefix, .inr ⟨⟨_, rfl⟩, Sink.isFull_write hrefused⟩⟩
        rw [hbytes, List.append_nil]
      · rename_i hrefused
        rw [if_neg hrefused] at hbytes
        rw [bind_run ((bind_run hwrite).trans rfl)] at h
        obtain ⟨ht, part, hsink, hpart, hr⟩ := ih h
        rw [List.flatten_cons, ← Digest.Digester.update_update]
        refine ⟨hsilent.trans ht, piece ++ part, ?_, ?_, ?_⟩
        · rw [hsink, hbytes, List.append_assoc]
        · exact (List.prefix_append_right_inj piece).2 hpart
        · exact hr.imp (And.imp_right (congrArg (piece ++ ·))) id

/-- **What a pull has written is a beginning of the body that it was served**, all of it if the pull
comes to its end. A pull that is served nothing writes nothing. -/
theorem pullBlob_written {r : Except Failure Nat} (h : pullBlob s policy ref digest w = (r, w')) :
    (w'.sink = w.sink ∧ ∃ e, r = .error e) ∨
      ∃ response part, Talk w [(blobRequest s ref digest [], .response response)] w' ∧
        response.status = 200 ∧ w'.sink.bytes = w.sink.bytes ++ part ∧ part <+: response.body ∧
        ∀ n, r = .ok n → response.broken = none ∧ part = response.body := by
  rcases checkAddress_bind h with ⟨-, h⟩ | ⟨-, rfl, he⟩
  case inr => exact .inl ⟨rfl, _, he⟩
  obtain ⟨w₁, ht₁, hu₁, h⟩ := note_bind rfl h
  rcases bind_cases h with ⟨start, w₂, hstart, hrest⟩ | ⟨e, hstart, he⟩
  case inr =>
    obtain ⟨rfl, -⟩ := ofExcept_cases hstart
    exact .inl ⟨hu₁.sink, e, he⟩
  obtain ⟨-, rfl⟩ := ofExcept_ok hstart
  -- the check of the digest comes when everything is written
  obtain ⟨v, w₃, hfold, ht₃, hu₃, hv⟩ : ∃ v w₃, foldBlob s ref digest [] start
      (fun d piece => do
        write piece
        return d.update piece) w₂ = (v, w₃) ∧ Talk w₃ [] w' ∧ Untouched w₃ w' ∧
      ∀ e, v = .error e → r = .error e := by
    rcases bind_cases hrest with ⟨d, w₃, hfold, hrest⟩ | ⟨e, hfold, he⟩
    · have hcheck : ∀ {F : Frame}, F.Heedless → F.rel w₃ w' := fun hF =>
        (keeps_bind (keeps_checkDigest hF _ _ _) fun _ => keeps_pure _).rel hrest
      exact ⟨_, w₃, hfold, hcheck silent_heedless, hcheck untouched_heedless, nofun⟩
    · refine ⟨_, w', hfold, .refl w', .refl w', ?_⟩
      rintro _ ⟨⟩
      exact he
  rcases foldBlob_outcome hfold with ⟨-, rfl, rfl⟩ | ⟨-, a, ⟨e, -, rfl, -, hu⟩ | hserved⟩
  · exact .inl ⟨hu₃.sink.trans hu₁.sink, _, hv _ rfl⟩
  · exact .inl ⟨hu₃.sink.trans (hu.sink.trans hu₁.sink), _, hv _ rfl⟩
  obtain ⟨response, w₄, w₅, v', hserved, ht₄, hu₄, hpieces, rfl, hresult⟩ := hserved
  obtain ⟨rfl, hstatus⟩ := servedBlob_eq_ok.1 hserved
  obtain ⟨ht₅, part, hsink, hpart, hall⟩ := writePieces_outcome hpieces
  rw [Chunks.flatten_slices s.readChunkSize_pos] at hpart hall
  refine .inr ⟨response, part, ?_, hstatus, ?_, hpart, fun n hn => ?_⟩
  · have hread := (ht₁.after ht₄).before ht₅
    exact (hread.before (.note w₅ rfl)).before ht₃
  · rw [hu₃.sink]
    show w₅.sink.bytes = _
    rw [hsink, hu₄.sink, hu₁.sink]
  · cases hv' : v with
    | error e => exact absurd (hn.symm.trans (hv e hv')) nofun
    | ok d =>
        rw [hv'] at hresult
        obtain ⟨d', hd', hend⟩ := bind_eq_ok.1 hresult.symm
        obtain ⟨bytes, hbody, -⟩ := bind_eq_ok.1 hend
        refine ⟨(wholeBody_eq_ok.1 hbody).1, ?_⟩
        rcases hall with ⟨-, hwhole⟩ | ⟨⟨e, he⟩, -⟩
        · exact hwhole
        · exact absurd (hd'.symm.trans he) nofun

/-! ## Exported images -/

/-- An image that is not staged was not written, unless the sink has refused it. -/
theorem stageImage_error {name : String} {m : Manifest} {listens : Bool} {p : IntegrityPolicy}
    {e : Failure} (h : stageImage decoders s p ref name m listens w = (.error e, w')) :
    w'.sink = w.sink ∨ e.kind = .system := by
  rcases withWorkDirectory_cases h with ⟨hp, -, -⟩ | ⟨work, w₁, w₂, hp, -, -, hx, rfl⟩
  · exact .inl hp.sink
  rcases bind_cases hx with ⟨exported, w₃, hlay, hx⟩ | ⟨e', hlay, -⟩
  · rcases bind_cases hx with ⟨_, w₄, -, hx⟩ | ⟨e', hpack, he⟩
    · exact absurd (pure_inv hx).1 nofun
    · cases he
      have hin := (keeps_layOutImage inside_staging.downloading).rel hlay
      obtain ⟨-, -, rfl⟩ | ⟨_, -, -, ⟨hok, -⟩ | ⟨_, he, hsystem, -⟩⟩ := packDirectory_cases hpack
      · exact .inl (hin.1.trans hp.sink)
      · cases hok
      · cases he
        exact .inr hsystem
  · have hin := (keeps_layOutImage inside_staging.downloading).rel hlay
    exact .inl (hin.1.trans hp.sink)

/-- **An export that fails has written nothing, or it fails as an archive** that could not be
written. -/
theorem exportImage_error {listens : Bool} {e : Failure}
    (h : exportImage decoders s policy ref listens w = (.error e, w')) :
    w'.sink = w.sink ∨ e.kind = .archive := by
  rcases exportImage_outcome h with ⟨-, -, rfl⟩ | ⟨name, a, w₁, -, -, hu₁, hm⟩
  · exact .inl rfl
  rcases hm with ⟨e', -, -, rfl⟩ | ⟨m, w₂, r, -, hstage, -, hu₂, hr⟩
  · exact .inl hu₁.sink
  cases r with
  | ok exported => cases hr
  | error e' =>
      cases hr
      rcases stageImage_error hstage with hsink | hsystem
      · exact .inl (hu₂.sink.trans (hsink.trans hu₁.sink))
      · refine .inr ?_
        rcases kind_archiveFailure ref e' with hkind | ⟨-, hkind⟩
        · exact hkind
        · rw [hsystem] at hkind
          cases hkind

end ImageTransfer.Transfer
