import ImageTransfer.Proofs.Transfer.LayerOutcome
import ImageTransfer.Proofs.Transfer.Receipts
import ImageTransfer.Proofs.Transfer.Written

/-!
# What the policy decides

Exports, inspections and pulls check every blob that they have received to its end, and look at the
policy nowhere else. So a strict run goes as the run that warns, up to the first alarm.

The three hash in different places: a configuration when all of it is there, a layer and a pulled blob
while they arrive. For each of these there is a lemma that says how the download goes, in the form of
`Downloads`; what is put together from them is read off the programs.
-/

namespace ImageTransfer.Transfer

open Exchange Registry

variable {decoders : Compression.Decoders} {s : Settings} {ref : Reference} {work : Archive.Path}
  {created : Timestamp} {w w' : World} {algorithm : Digest.Algorithm} {digest : String}

/-! ## Configurations -/

theorem downloads_config {source : LogSource} {message : String → String}
    {r : Except Failure (List UInt8)} (hs : source ≠ .integrity)
    (halgorithm : Digest.algorithmOf (Digest.algorithmName digest) = .ok algorithm)
    (h : warnOnFailure source message (readBlob s ref digest configMediaTypes) w = (r, w')) :
    Downloads decoders s ref (.config digest) (Digest.ofBytes algorithm) w r w' := by
  have ha : Alarms w [] w' :=
    (unalarmed_online.calm.keeps_warnOnFailure hs _ (keeps_readBlob unalarmed_online.serving)).rel h
  obtain ⟨w₁, hread, ht, _⟩ := warnOnFailure_talk h
  -- there is no request for it, or an answer that decides everything
  rcases readBlob_outcome hread with ⟨_, rfl, rfl⟩ | ⟨_, a, ht₁, _, hr⟩
  · exact .unasked ht ha
  replace ht : Talk w [(Blob.request (.config digest) s ref, a)] w' := ht₁.before ht
  cases hserved : servedBlob digest a with
  | error e =>
      rw [hserved] at hr
      subst hr
      exact .ended ht ha (.inl (Blob.not_isServed hserved))
  | ok response =>
      obtain ⟨rfl, hstatus⟩ := servedBlob_eq_ok.1 hserved
      rw [hserved] at hr
      change r = wholeBody response _ at hr
      cases hbody : wholeBody response (.download digest) with
      | error e =>
          rw [hbody] at hr
          subst hr
          exact .ended ht ha (.inl (Blob.not_isServed_of_body hbody))
      | ok bytes =>
          rw [hbody] at hr
          subst hr
          obtain ⟨hbroken, hbytes⟩ := wholeBody_eq_ok.1 hbody
          exact .received ht ha ⟨response, rfl, hstatus, hbroken, hbytes, nofun⟩ halgorithm rfl

/-- The configuration among the blobs of an image. -/
def configBlobs (m : Manifest) : List Blob :=
  match m.config with
  | .ok d => [.config d.digest]
  | .error _ => []

/-- What a manifest lists can be asked for. -/
theorem isAddress_of_ofValue {v : Json.Value} {d : Descriptor} (h : Descriptor.ofValue v = .ok d) :
    Digest.isAddress d.digest = true :=
  let ⟨_, _, _, haddress⟩ := Descriptor.ofValue_ok h
  haddress

theorem isAddress_of_config {m : Manifest} {d : Descriptor} (h : m.config = .ok d) :
    Digest.isAddress d.digest = true := by
  unfold Manifest.config at h
  split at h
  · exact isAddress_of_ofValue h
  · exact absurd h nofun

theorem checks_fetchConfig (m : Manifest) (w : World) :
    Checks decoders s ref (fun p => fetchConfig s p ref m) (configBlobs m) w := by
  refine Checks.after (keeps_ofExcept _ _) fun d _ v hrun => ?_
  obtain ⟨hconfig, _⟩ := ofExcept_ok hrun
  have hblobs : configBlobs m = [.config d.digest] := by rw [configBlobs, hconfig]
  obtain ⟨algorithm, halgorithm⟩ := Digest.algorithmOf_of_isAddress (isAddress_of_config hconfig)
  rw [hblobs, halgorithm]
  simp only [ofExcept_ok_bind]
  exact checks_download (.config d.digest) (downloads_config (by decide) halgorithm) fun _ _ _ =>
    checks_steady (keeps_ofExcept _ _)

/-! ## Layers -/

namespace LayerIntake

theorem served_absorb {l l' : LayerIntake decoders} {piece output : List UInt8}
    (h : l.absorb piece = .ok (l', output)) : l'.served = l.served.update piece := by
  obtain ⟨served, decoded, stream⟩ := l
  unfold absorb at h
  dsimp only at h
  split at h
  · cases h; rfl
  · exact absurd h nofun

theorem served_close {l l' : LayerIntake decoders} {output : List UInt8}
    (h : l.close = .ok (l', output)) :
    l'.served = l.served := by
  obtain ⟨served, decoded, stream⟩ := l
  unfold close at h
  dsimp only at h
  split at h
  · cases h; rfl
  · exact absurd h nofun

/-- **What is absorbed to its end is what can be decoded**, and it is decoded to what comes out. -/
theorem decompressed_iff (algorithm : Digest.Algorithm) {bytes content : List UInt8} :
    Compression.Decompressed decoders bytes content ↔
      ∃ l output l' last, (start decoders algorithm).absorb bytes = .ok (l, output) ∧
        l.close = .ok (l', last) ∧ content = output ++ last := by
  have hdecoded : ∀ {l output l' last}, (start decoders algorithm).absorb bytes = .ok (l, output) →
      l.close = .ok (l', last) →
        Compression.Decompressed decoders bytes (output ++ last) := by
    intro l output l' last habsorb hclose
    obtain ⟨_, _, hfeed, rfl⟩ := absorb_ok habsorb
    obtain ⟨_, _, hlast, rfl⟩ := close_ok hclose
    exact (Compression.Stream.fed_start.feed hfeed).decompressed hlast
  constructor
  · intro hc
    obtain ⟨t, output, hfeed, u, last, hclose⟩ := Compression.Stream.feed_of_decompressed hc
    have habsorb : (start decoders algorithm).absorb bytes =
        .ok (⟨_, _, t⟩, output.toList) := absorb_of_feed hfeed
    exact ⟨_, _, _, _, habsorb, close_of_stream hclose,
      hc.unique (hdecoded habsorb (close_of_stream hclose))⟩
  · rintro ⟨l, output, l', last, habsorb, hclose, rfl⟩
    exact hdecoded habsorb hclose

end LayerIntake

/-- A layer that is served is decoded to its end, and there is room for what comes out. -/
theorem Blob.IsServed.decodes {response : Response} {bytes : List UInt8}
    (h : (Blob.layer digest).IsServed decoders (.response response) bytes)
    (algorithm : Digest.Algorithm) :
    ∃ l output l' last,
      (LayerIntake.start decoders algorithm).absorb response.body = .ok (l, output) ∧
      l.close = .ok (l', last) ∧ output.length + last.length ≤ Disk.fileLimit := by
  obtain rfl := h.body
  obtain ⟨_, _, _, _, _, hdecoded⟩ := h
  obtain ⟨content, hc, hfits⟩ := hdecoded rfl
  obtain ⟨l, output, l', last, habsorb, hclose, rfl⟩ := (LayerIntake.decompressed_iff algorithm).1 hc
  rw [List.length_append] at hfits
  exact ⟨l, output, l', last, habsorb, hclose, hfits⟩

/-- A layer of which a beginning is too large is too large. -/
theorem not_isServed_of_overflows {response : Response} {bytes : List UInt8}
    (h : (LayerIntake.start decoders algorithm).Overflows [] response.body) :
    ¬ (Blob.layer digest).IsServed decoders (.response response) bytes := by
  intro hserved
  obtain ⟨part, l', output, ⟨rest, hrest⟩, hpart, hlarge⟩ := h
  obtain ⟨l, whole, _, last, habsorb, _, hfits⟩ := hserved.decodes algorithm
  rw [← hrest, LayerIntake.absorb_append, hpart] at habsorb
  dsimp only [bind, Except.bind] at habsorb
  obtain ⟨⟨_, more⟩, _, hall⟩ := bind_eq_ok.1 habsorb
  cases hall
  rw [List.length_append] at hfits
  rw [List.length_nil] at hlarge
  omega

/-- How a layer comes into an empty file, up to the end of the blob. -/
theorem downloadLayer_cases {d : Disk} {file : Archive.Path}
    {r : Except Failure (LayerIntake decoders)}
    (hfree : d.has file = false) (hdisk : w.disk = d.append (.file file #[] 0))
    (h : foldBlob s ref digest [] (LayerIntake.start decoders algorithm)
      (fun intake piece => receive file (intake.absorb piece)) w = (r, w')) :
    (Talk w [] w' ∧ ∃ e, r = .error e) ∨
    ∃ a, Talk w [(Blob.request (.layer digest) s ref, a)] w' ∧
      ((∃ e, r = .error e ∧
          ((∀ bytes, ¬ (Blob.layer digest).IsServed decoders a bytes) ∨ w'.IsDenied)) ∨
      ∃ response l output earlier, a = .response response ∧ response.status = 200 ∧
        response.broken = none ∧ r = .ok l ∧
        (LayerIntake.start decoders algorithm).absorb response.body = .ok (l, output) ∧
        Receiving d file earlier output l w') := by
  rcases foldBlob_outcome h with ⟨_, rfl, rfl⟩ | ⟨_, a, ⟨e, hserved, rfl, ht, _⟩ | hserved⟩
  · exact .inl ⟨.refl w', _, rfl⟩
  · exact .inr ⟨a, ht, .inl ⟨e, rfl, .inl (Blob.not_isServed hserved)⟩⟩
  obtain ⟨response, w₁, w₂, v, hserved, ht, hu, hfold, rfl, hr⟩ := hserved
  obtain ⟨rfl, hstatus⟩ := servedBlob_eq_ok.1 hserved
  have hpieces : Talk w₁ [] w₂ := (keeps_foldlM (F := silent) (fun _ _ =>
    keeps_receive silent_storing (List.nil_prefix) _) _ _).rel hfold
  refine .inr ⟨_, (ht.before hpieces).before (.note w₂ rfl), ?_⟩
  have hstart : Receiving d file w₁ [] (LayerIntake.start decoders algorithm) w₁ :=
    ⟨.refl w₁, rfl, #[], Nat.zero_le _, rfl, hu.disk.trans hdisk⟩
  have hall := receiveAll_cases hfree Compression.Stream.settled_start hstart hfold
  rw [Chunks.flatten_slices s.readChunkSize_pos] at hall
  rcases hall with ⟨l, output, habsorb, rfl, hreceived⟩ | ⟨e, habsorb, rfl⟩ | ⟨e, rfl, hwhy⟩
  · -- all pieces are there, but the body may still have broken off after them
    dsimp only [bind, Except.bind] at hr
    cases hbody : wholeBody response (.download digest) with
    | error e =>
        rw [hbody] at hr
        exact .inl ⟨e, hr, .inl (Blob.not_isServed_of_body hbody)⟩
    | ok bytes =>
        rw [hbody] at hr
        exact .inr ⟨response, l, output, w₁, rfl, hstatus, (wholeBody_eq_ok.1 hbody).1, hr, habsorb,
          hreceived.later (.note w₂ rfl) rfl⟩
  · -- what cannot be absorbed cannot be decoded
    refine .inl ⟨e, hr, .inl fun bytes hb => ?_⟩
    obtain ⟨_, _, _, _, hok, _⟩ := hb.decodes algorithm
    exact absurd (habsorb.symm.trans hok) nofun
  · refine .inl ⟨e, hr, hwhy.symm.imp_left fun hlarge bytes => ?_⟩
    exact not_isServed_of_overflows hlarge

theorem downloads_layer {file : Archive.Path} {r : Except Failure (LayerIntake decoders)}
    (hfree : w.disk.has file = false) (h : receiveLayer decoders s ref digest file w = (r, w')) :
    Downloads decoders s ref (.layer digest) (fun l => l.served.digest) w r w' := by
  have ha : Alarms w [] w' :=
    (keeps_receiveLayer unalarmed_online.serving unalarmed_storing unalarmed_storing
      (List.nil_prefix) digest).rel h
  rcases bind_cases h with ⟨algorithm, w₁, hname, h₁⟩ | ⟨e, hname, rfl⟩
  case inr => exact .unasked ((keeps_ofExcept (F := silent) _ _).rel hname) ha
  obtain ⟨halgorithm, rfl⟩ := ofExcept_ok hname
  rcases bind_cases h₁ with ⟨_, w₂, hcreate, h₂⟩ | ⟨e, hcreate, rfl⟩
  case inr => exact .unasked (changeDisk_cases hcreate).1.talk ha
  obtain ⟨hcreated, hdisk⟩ := changeDisk_ok hcreate
  rw [Disk.createFile_of_not_has hfree] at hdisk
  rcases bind_cases h₂ with ⟨l, w₃, hfold, hclose⟩ | ⟨e, hfold, rfl⟩
  · have hclosed : Talk w₃ [] w' := (keeps_receive silent_storing (List.nil_prefix) _).rel hclose
    rcases downloadLayer_cases hfree hdisk hfold with ⟨_, _, he⟩ | ⟨a, ht, ⟨_, he, _⟩ | hwhole⟩
    · exact absurd he nofun
    · exact absurd he nofun
    obtain ⟨response, _, output, earlier, rfl, hstatus, hbroken, hl, habsorb, hreceived⟩ := hwhole
    cases hl
    replace ht := (hcreated.after ht).before hclosed
    rcases receive_cases hclose with ⟨l', last, hlast, happend, rfl⟩ | ⟨e, hlast, rfl⟩ |
      ⟨_, last, e, hlast, rfl, hwhy⟩
    · -- what the file holds in the end is what the blob decodes to, so that is not too large
      obtain ⟨hdecoded, _⟩ := LayerIntake.close_ok hlast
      obtain ⟨writes, hfits, hcontent, _⟩ := (hreceived.append hfree hdecoded happend).disk
      refine .received ht ha ⟨response, rfl, hstatus, hbroken, rfl, fun _ => ⟨output ++ last,
        (LayerIntake.decompressed_iff algorithm).2 ⟨l, output, l', last, habsorb, hlast, rfl⟩,
        hcontent ▸ hfits⟩⟩ halgorithm ?_
      show l'.served.digest = _
      rw [LayerIntake.served_close hlast, LayerIntake.served_absorb habsorb]
      exact Digest.Digester.digest_update _ _
    · refine .ended ht ha (.inl fun bytes hb => ?_)
      obtain ⟨_, _, _, _, hok, hend, _⟩ := hb.decodes algorithm
      cases habsorb.symm.trans hok
      exact absurd (hlast.symm.trans hend) nofun
    · refine .ended ht ha (hwhy.symm.imp_left fun hlarge bytes hb => ?_)
      obtain ⟨_, _, _, _, hok, hend, hfits⟩ := hb.decodes algorithm
      cases habsorb.symm.trans hok
      cases hlast.symm.trans hend
      rw [hreceived.sizeOf hfree] at hlarge
      exact absurd hfits (Nat.not_le.2 hlarge)
  · rcases downloadLayer_cases hfree hdisk hfold with ⟨ht, _⟩ | ⟨a, ht, ⟨_, he, hend⟩ | hwhole⟩
    · exact .unasked (hcreated.after ht) ha
    · cases he
      exact .ended (hcreated.after ht) ha hend
    · obtain ⟨_, _, _, _, _, _, _, hok, _⟩ := hwhole
      exact absurd hok nofun

theorem checks_stageLayer (digest : String) (w : World) :
    Checks decoders s ref (fun p => stageLayer decoders s p ref created work digest)
      [.layer digest] w := by
  refine Checks.after (steady_storing.keeps_newDirectory _ _) fun staging _ v hnew => ?_
  -- a new directory is empty, so the file of the layer is a new one
  have hfree : v.disk.has (staging ++ [Archive.layerFile]) = false := by
    obtain ⟨_, name, rfl, hfree, hd⟩ := newDirectory_ok hnew
    rw [hd, Disk.has_makeDirectory]
    exact Disk.has_of_prefix (List.prefix_append _ _) hfree
  refine checks_download (.layer digest) (downloads_layer hfree) fun intake _ _ => checks_steady ?_
  exact keeps_bind (keeps_settleLayer steady_storing List.nil_prefix List.nil_prefix) fun _ =>
    keeps_bind (steady_quiet.calm.keeps_log (by decide) _ _) fun _ => keeps_pure _

theorem checks_stageLayers {listens : Bool} {total : Int} (layers : List Descriptor) (index : Int)
    (w : World) :
    Checks decoders s ref
      (fun p => stageLayers decoders s p ref created work listens total index layers)
      (layers.map fun d => .layer d.digest) w := by
  induction layers generalizing index w with
  | nil => exact checks_steady (keeps_pure _)
  | cons layer layers ih =>
      refine Checks.after (steady_quiet.calm.keeps_log (by decide) _ _) fun _ _ w₁ _ => ?_
      refine ((checks_stageLayer layer.digest w₁).warnOnFailure (by decide)).bind fun diffId w₂ _ => ?_
      refine Checks.after (keeps_report (F := steady) _ _ _ _) fun _ _ w₃ _ => ?_
      exact (ih (index + 1) w₃).before fun diffIds => keeps_pure _

/-! ## Images -/

/-- The layers among the blobs of an image. -/
def layerBlobs (m : Manifest) : List Blob :=
  match m.layers with
  | .ok layers => layers.map fun d => .layer d.digest
  | .error _ => []

theorem checks_layOutImage {name : String} {listens : Bool} (m : Manifest) (w : World) :
    Checks decoders s ref (fun p => layOutImage decoders s p ref name m listens work)
      (configBlobs m ++ layerBlobs m) w := by
  refine (checks_fetchConfig m w).bind fun config w₁ _ => ?_
  refine Checks.after (keeps_ofExcept _ _) fun layers _ w₂ hrun => ?_
  obtain ⟨hlayers, _⟩ := ofExcept_ok hrun
  have hblobs : layerBlobs m = layers.map fun d => .layer d.digest := by rw [layerBlobs, hlayers]
  rw [hblobs]
  exact (checks_stageLayers layers 1 w₂).before fun diffIds => keeps_layOutIndex steady_storing

theorem checks_stageImage {name : String} {listens : Bool} (m : Manifest) (w : World) :
    Checks decoders s ref (fun p => stageImage decoders s p ref name m listens)
      (configBlobs m ++ layerBlobs m) w := by
  refine Checks.withWorkDirectory fun work v => ?_
  refine (checks_layOutImage m v).before fun exported => ?_
  exact keeps_bind (keeps_packDirectory keeps_writes) fun _ => keeps_pure _

/-- What is heard when an image is asked for, of which an operation downloads some blobs: the manifest,
and if that is served, the blobs. -/
inductive HearsImage (decoders : Compression.Decoders) (s : Settings) (ref : Reference)
    (refused : Blob → Prop) (blobs : Manifest → List Blob) : Dialogue → List Receipt → Prop
  | unasked : HearsImage decoders s ref refused blobs [] []
  | unserved {a : Answer} : (∀ m, ¬ a.Serves m) →
      HearsImage decoders s ref refused blobs [(manifestRequest s ref, a)] []
  | served {a : Answer} {m : Manifest} {d : Dialogue} {receipts : List Receipt} : a.Serves m →
      Receives decoders s ref refused (blobs m) d receipts →
        HearsImage decoders s ref refused blobs ((manifestRequest s ref, a) :: d) receipts

section

variable {α : Type}

/-- **A program that goes on with a manifest** hears of the image what it downloads after that. -/
theorem heeds_image {x : Exchange Manifest} {f : IntegrityPolicy → Manifest → Exchange α}
    {blobs : Manifest → List Blob}
    (hx : ∀ {r w'}, x w = (r, w') → Alarms w [] w' ∧
      ∃ a, Talk w [(manifestRequest s ref, a)] w' ∧ r = manifestOutcome ref a)
    (hf : ∀ m v, Checks decoders s ref (fun p => f p m) (blobs m) v) :
    ∃ d receipts, Heeds (fun p => x >>= f p) w d (receipts.filterMap Receipt.mismatch?) ∧
      HearsImage decoders s ref (Refuses ((x >>= f .warn) w)) blobs d receipts := by
  rcases hrun : x w with ⟨r, w'⟩
  obtain ⟨ha, a, ht, hr⟩ := hx hrun
  have hheeds : Heeds (fun _ => x) w [(manifestRequest s ref, a)] [] := by
    refine heeds_of_talk ?_ ?_
    · rwa [hrun]
    · rwa [hrun]
  cases r with
  | error e =>
      refine ⟨_, [], hheeds.bind_error hrun, .unserved fun m hm => ?_⟩
      rw [manifestOutcome_eq_ok.2 hm] at hr
      exact absurd hr nofun
  | ok m =>
      obtain ⟨d, receipts, hheeds', hreceives, _⟩ := hf m w'
      refine ⟨_, receipts, hheeds.bind_ok hrun hheeds', .served (manifestOutcome_eq_ok.1 hr.symm) ?_⟩
      rw [bind_run hrun]
      exact hreceives

end

theorem heeds_inspectImage (w : World) :
    ∃ d receipts, Heeds (fun p => inspectImage s (some p) ref) w d
        (receipts.filterMap Receipt.mismatch?) ∧
      HearsImage decoders s ref (Refuses (inspectImage s (some .warn) ref w)) configBlobs d
        receipts := by
  refine heeds_image (fun {r w'} h => ?_) checks_fetchConfig
  obtain ⟨a, ht, _, hr⟩ := getManifest_outcome h
  exact ⟨(keeps_getManifest unalarmed_online.serving).rel h, a, ht, hr⟩

theorem heeds_exportImage (listens : Bool) (w : World) :
    ∃ d receipts, Heeds (fun p => exportImage decoders s (some p) ref listens) w d
        (receipts.filterMap Receipt.mismatch?) ∧
      HearsImage decoders s ref (Refuses (exportImage decoders s (some .warn) ref listens w))
        (fun m => configBlobs m ++ layerBlobs m) d receipts := by
  unfold exportImage
  cases ref.commonName with
  | none => exact ⟨[], [], heeds_of_talk (.refl w) (.refl w), .unasked⟩
  | some name =>
      refine heeds_image (fun {r w'} h => ?_) fun m v => ?_
      · obtain ⟨a, ht, _, hr⟩ := getManifest_outcome_warned h
        exact ⟨(unalarmed_online.calm.keeps_warnOnFailure (by decide) _
          (keeps_getManifest unalarmed_online.serving)).rel h, a, ht.talk, hr⟩
      · refine ((checks_stageImage m v).mapFailure fun _ => rfl).before fun exported => ?_
        exact keeps_bind (steady_quiet.calm.keeps_log (by decide) _ _) fun _ => keeps_pure _

/-! ## Pulled blobs -/

theorem downloads_pulled {r : Except Failure Digest.Digester}
    (halgorithm : Digest.algorithmOf (Digest.algorithmName digest) = .ok algorithm)
    (h : foldBlob s ref digest [] (Digest.Digester.start algorithm)
      (fun (d : Digest.Digester) piece => do
        write piece
        return d.update piece) w = (r, w')) :
    Downloads decoders s ref (.pulled digest) Digest.Digester.digest w r w' := by
  have hstep : ∀ (d : Digest.Digester) piece, Keeps steady (do
      write piece
      return d.update piece : Exchange Digest.Digester) := fun d piece =>
    keeps_bind (keeps_write piece) fun _ => keeps_pure _
  have ha : Alarms w [] w' :=
    (keeps_foldBlob unalarmed_online.serving fun d piece v => (hstep d piece v).2).rel h
  rcases foldBlob_outcome h with ⟨_, rfl, rfl⟩ | ⟨_, a, ⟨e, hserved, rfl, ht, _⟩ | hserved⟩
  · exact .unasked (.refl w') ha
  · exact .ended ht ha (.inl (Blob.not_isServed hserved))
  obtain ⟨response, w₁, w₂, v, hserved, ht, _, hfold, rfl, hr⟩ := hserved
  obtain ⟨rfl, hstatus⟩ := servedBlob_eq_ok.1 hserved
  replace ht :
      Talk w [(Blob.request (.pulled digest) s ref, .response response)] (w₂.note .released) := by
    have hpieces : steady.rel w₁ w₂ := (keeps_foldlM hstep _ _).rel hfold
    exact (ht.before hpieces.1).before (.note w₂ rfl)
  obtain ⟨-, _, -, -, hall⟩ := writePieces_outcome hfold
  rw [Chunks.flatten_slices s.readChunkSize_pos] at hall
  rcases hall with ⟨rfl, -⟩ | ⟨⟨e, rfl⟩, hfull⟩
  · dsimp only [bind, Except.bind] at hr
    cases hbody : wholeBody response (.download digest) with
    | error e =>
        rw [hbody] at hr
        subst hr
        exact .ended ht ha (.inl (Blob.not_isServed_of_body hbody))
    | ok bytes =>
        rw [hbody] at hr
        subst hr
        obtain ⟨hbroken, rfl⟩ := wholeBody_eq_ok.1 hbody
        exact .received ht ha ⟨response, rfl, hstatus, hbroken, rfl, nofun⟩ halgorithm
          (Digest.Digester.digest_update _ _)
  · subst hr
    exact .ended ht ha (.inr hfull)

theorem checks_pullBlob (s : Settings) (ref : Reference) (digest : String) (w : World) :
    Checks decoders s ref (fun p => pullBlob s (some p) ref digest) [.pulled digest] w := by
  refine Checks.after (keeps_ite (keeps_pure _) (keeps_throw _)) fun _ _ w₁ _ => ?_
  refine Checks.after (steady_quiet.calm.keeps_log (by decide) _ _) fun _ _ w₂ _ => ?_
  refine Checks.after (keeps_ofExcept _ _) fun start _ w₃ hrun => ?_
  obtain ⟨hstart, _⟩ := ofExcept_ok hrun
  unfold Digest.Digester.ofName at hstart
  cases halgorithm : Digest.algorithmOf (Digest.algorithmName digest) with
  | error e =>
      rw [halgorithm] at hstart
      exact absurd hstart nofun
  | ok algorithm =>
      rw [halgorithm] at hstart
      cases hstart
      exact checks_download (.pulled digest) (downloads_pulled halgorithm) fun _ _ _ =>
        checks_steady (keeps_pure _)

/-- The sink after a run depends on what its programs do after what they share. -/
theorem sink_bind {α β : Type} {x : Exchange α} {f g : α → Exchange β}
    (h : ∀ a v, (f a v).2.sink = (g a v).2.sink) (w : World) :
    ((x >>= f) w).2.sink = ((x >>= g) w).2.sink := by
  rcases hrun : x w with ⟨e | a, w₁⟩
  · rw [bind_error hrun, bind_error hrun]
  · rw [bind_run hrun, bind_run hrun]
    exact h a w₁

/-- **What a pull writes does not depend on the policy.** -/
theorem sink_pullBlob (p p' : IntegrityPolicy) (digest : String) (w : World) :
    (pullBlob s (some p) ref digest w).2.sink = (pullBlob s (some p') ref digest w).2.sink := by
  -- the two runs part at the check, and nothing is written after that
  refine sink_bind (fun _ _ => sink_bind (fun _ _ => sink_bind (fun _ _ =>
    sink_bind (fun d v => ?_) _) _) _) w
  have hcheck : ∀ p, Keeps untouched (do
      let _ ← checkDigest p s!"blob {digest}" digest d.digest
      return d.size : Exchange Nat) := fun p =>
    keeps_bind (keeps_checkDigest untouched_heedless _ _ _) fun _ => keeps_pure _
  exact (hcheck p v).sink.trans (hcheck p' v).sink.symm

/-! ## Operations under policies -/

/-- An operation that downloads blobs and checks them. -/
inductive Download
  | exporting (ref : Reference) (listens : Bool)
  | inspecting (ref : Reference)
  | pulling (ref : Reference) (digest : String)

namespace Download

/-- What an operation gives. -/
def Result : Download → Type
  | exporting _ _ => Exported
  | inspecting _ => Json.Members
  | pulling _ _ => Nat

/-- A run of an operation, under the policy of the caller if there is one. -/
def run (decoders : Compression.Decoders) (s : Settings) (policy : Option IntegrityPolicy) :
    (o : Download) → Exchange o.Result
  | exporting ref listens => exportImage decoders s policy ref listens
  | inspecting ref => inspectImage s policy ref
  | pulling ref digest => pullBlob s policy ref digest

/-- What an operation hears, and what it has received to its end. -/
def Hears (decoders : Compression.Decoders) (s : Settings) (refused : Blob → Prop) (o : Download)
    (d : Dialogue) (receipts : List Receipt) : Prop :=
  match o with
  | exporting ref _ =>
    HearsImage decoders s ref refused (fun m => configBlobs m ++ layerBlobs m) d receipts
  | inspecting ref => HearsImage decoders s ref refused configBlobs d receipts
  | pulling ref digest => Receives decoders s ref refused [.pulled digest] d receipts

/-- Whether an operation writes out what it downloads. -/
def isPull : Download → Bool
  | pulling _ _ => true
  | _ => false

theorem heeds_run (o : Download) (s : Settings) (w : World) :
    ∃ d receipts,
      Heeds (fun p => o.run decoders s (some p)) w d (receipts.filterMap Receipt.mismatch?) ∧
      o.Hears decoders s (Refuses (o.run decoders s (some .warn) w)) d receipts := by
  cases o with
  | exporting ref listens => exact heeds_exportImage listens w
  | inspecting ref => exact heeds_inspectImage w
  | pulling ref digest =>
      obtain ⟨d, receipts, hheeds, hreceives, _⟩ := checks_pullBlob s ref digest w
      exact ⟨d, receipts, hheeds, hreceives⟩

/-- **The policy decides what a mismatch means, and nothing else.** Whoever sets the policy, a run that
warns gives one alarm for each blob that it has received to its end with another digest than the
declared one, and no other. Without an alarm a strict run is the same run. Otherwise it fails with the
first mismatch, and its requests are the first ones of the run that warns; a pull has written the
same by then. -/
theorem run_underPolicies (decoders : Compression.Decoders) (o : Download) (s : Settings)
    (w : World) :
    (∀ policy, o.run decoders s policy = o.run decoders s (some (policy.getD s.verify))) ∧
    let warn := o.run decoders s (some .warn) w
    let strict := o.run decoders s (some .strict) w
    ∃ receipts, o.Hears decoders s (Refuses warn) (w.dialogue warn.2) receipts ∧
      let mismatches := receipts.filterMap Receipt.mismatch?
      w.alarmsSince warn.2 = mismatches.map Mismatch.text ∧
        match mismatches with
        | [] => strict = warn
        | first :: _ => strict.1 = .error first.failure ∧
            w.requestsSince strict.2 <+: w.requestsSince warn.2 ∧
              (o.isPull = true → strict.2.sink = warn.2.sink) := by
  refine ⟨fun policy => ?_, ?_⟩
  · cases o <;> rfl
  intro warn strict
  obtain ⟨d, receipts, hheeds, hhears⟩ := heeds_run o s w
  refine ⟨receipts, ?_, hheeds.alarms.alarmsSince_eq, ?_⟩
  · rw [hheeds.talk.dialogue_eq]
    exact hhears
  split
  · rename_i hnone
    exact hheeds.agrees hnone
  · rename_i first later hfound
    obtain ⟨herror, d', hprefix, ht⟩ := hheeds.stops first later hfound
    refine ⟨herror, ?_, fun hpull => ?_⟩
    · rw [ht.requestsSince_eq, hheeds.talk.requestsSince_eq]
      exact hprefix.map Prod.fst
    · cases o with
      | pulling ref digest => exact sink_pullBlob _ _ digest w
      | _ => exact absurd hpull nofun

end Download

end ImageTransfer.Transfer
