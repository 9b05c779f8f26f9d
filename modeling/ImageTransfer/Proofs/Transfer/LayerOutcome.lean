import ImageTransfer.Proofs.Compression.Pieces
import ImageTransfer.Proofs.Exchange.Service
import ImageTransfer.Proofs.Transfer.Layers

/-!
# What layers come to

On a machine that lets it, the staging of a layer comes to what the served blob comes to: the blob is
decoded as a whole and hashed as a whole (`layerOutcome`). In which pieces it arrived does not show,
and neither do the names of directories, or in which of two directories of the same name a layer
ended up.
-/

namespace ImageTransfer.Transfer

open Exchange Registry

variable {decoders : Compression.Decoders} {serve : Service} {s : Settings} {ref : Reference}
  {policy : IntegrityPolicy} {work : Archive.Path} {created : Timestamp} {w w' : World}

/-! ## Clients -/

section

variable {α : Type} {P : World → Prop} {Q : α → World → Prop}

/-- What is made of the service of a blob. -/
def blobOutcome (serve : Service) (s : Settings) (ref : Reference) (digest : String)
    (accept : List String) (use : Response → Except Failure α) (n : Nat) : Except Failure α := do
  if Digest.isAddress digest then
    let response ← servedBlob digest (serve n (blobRequest s ref digest accept))
    use response
  else throw (.digest (.malformed digest))

/-- A blob whose response is used without a word. -/
theorem decided_withBlob {digest : String} {accept : List String} {use : Response → Exchange α}
    {g : Response → Except Failure α} (hP : Lasting P) (hs : ∀ response, Keeps silent (use response))
    (hu : ∀ {n q response w r w'}, serve n q = .response response → P w →
      use response w = (r, w') → r = g response ∧ ∀ a, r = .ok a → Q a (w'.note .released)) :
    Decided serve P (withBlob s ref digest accept use) 1 (blobOutcome serve s ref digest accept g)
      Q where
  talks := keeps_withBlob talks_online.serving fun response w => ⟨[], hs response w⟩
  result {w w' r d n} hw h ht hd := by
    unfold blobOutcome
    rcases withBlob_outcome h with ⟨hbad, rfl, rfl⟩ | ⟨hd', a, ⟨e, hserved, rfl, ht', _⟩ | hserved⟩
    · rw [hbad]
      exact ⟨rfl, nofun⟩
    · have hone : d = [(blobRequest s ref digest accept, a)] := by
        rw [← ht.dialogue_eq, ht'.dialogue_eq]
      rw [hone, Service.answers_singleton] at hd
      rw [if_pos hd', ← hd, hserved]
      exact ⟨rfl, nofun⟩
    · obtain ⟨response, w₁, w₂, hserved, ht', hu', huse, rfl⟩ := hserved
      have hone : d = [(blobRequest s ref digest accept, a)] := by
        rw [← ht.dialogue_eq, ((ht'.before ((hs response).rel huse)).before (.note _ rfl)).dialogue_eq]
      rw [hone, Service.answers_singleton] at hd
      have ha : serve n (blobRequest s ref digest accept) = .response response :=
        hd.symm.trans (servedBlob_eq_ok.1 hserved).1
      obtain ⟨hr, hQ⟩ := hu ha (hP hu' hw) huse
      rw [if_pos hd', ← hd, hserved]
      exact ⟨hr, fun b hb => ⟨by rw [hone]; rfl, hQ b hb⟩⟩

/-- **A whole blob is decided by the answer**, however it is read. -/
theorem decided_readBlob {digest : String} {accept : List String} (hP : Lasting P) :
    Decided serve P (readBlob s ref digest accept) 1
      (blobOutcome serve s ref digest accept fun response => wholeBody response (.download digest))
      fun _ => P where
  talks := keeps_readBlob talks_online.serving
  result {w w' r d n} hw h ht hd := by
    unfold blobOutcome
    rcases readBlob_outcome h with ⟨hbad, rfl, rfl⟩ | ⟨hd', a, ht', hu, rfl⟩
    · rw [hbad]
      exact ⟨rfl, nofun⟩
    · have hone : d = [(blobRequest s ref digest accept, a)] := by
        rw [← ht.dialogue_eq, ht'.dialogue_eq]
      rw [hone, Service.answers_singleton] at hd
      rw [if_pos hd', ← hd, hone]
      exact ⟨rfl, fun _ _ => ⟨rfl, hP hu hw⟩⟩

end

/-! ## Streams that can be stored -/

/-- No beginning of a blob decodes to more than a file can have. -/
def Storable (decoders : Compression.Decoders) (blob : List UInt8) : Prop :=
  ∀ part t output, part <+: blob → (Compression.Stream.start decoders).feed part = .ok (t, output) →
    output.size ≤ Disk.fileLimit ∧
      ∀ u last, t.close = .ok (u, last) → output.size + last.size ≤ Disk.fileLimit

/-- A beginning of what is not compressed does not look compressed. -/
theorem detect_of_prefix {part blob : List UInt8} (hp : part <+: blob)
    (hb : Compression.detect blob = .identity) : Compression.detect part = .identity := by
  unfold Compression.detect at hb ⊢
  have hnone : ∀ c ∈ [Compression.gzip, .bzip2, .xz, .zstd],
      ¬ (c.magic.isPrefixOf part) = true := by
    intro c hc hpart
    cases hfind : [Compression.gzip, .bzip2, .xz, .zstd].find? fun c => c.magic.isPrefixOf blob with
    | none =>
        have := List.find?_eq_none.1 hfind c hc
        rw [List.isPrefixOf_iff_prefix] at this hpart
        exact this (hpart.trans hp)
    | some c' =>
        rw [hfind] at hb
        cases hb
        exact absurd (List.mem_of_find?_eq_some hfind) (by decide)
  rw [List.find?_eq_none.2 hnone]
  rfl

/-- **What is not compressed can be stored**, unless it is too large itself. -/
theorem storable_of_plain {blob : List UInt8}
    (hb : Compression.detect (blob.take Compression.magicLength) = .identity)
    (hlength : blob.length ≤ Disk.fileLimit) : Storable decoders blob := by
  intro part t output hpart hfeed
  have hfits : part.length ≤ Disk.fileLimit := Nat.le_trans hpart.length_le hlength
  have hpass : ∀ header, header <+: blob.take Compression.magicLength →
      Compression.Stream.feedKnown
        (Compression.Stream.sniff header : Compression.Stream decoders) #[] part =
        .ok (.plain, #[].appendList part) := by
    intro header hheader
    rw [Compression.Stream.sniff, detect_of_prefix hheader hb]
    exact Compression.Stream.feedKnown_plain _ _
  by_cases hshort : part.length < Compression.magicLength
  · -- a short stream is kept, and comes out in the end
    have hkept : (Compression.Stream.start decoders).feed part = .ok (.unknown part, #[]) :=
      if_pos hshort
    cases hkept.symm.trans hfeed
    refine ⟨Nat.zero_le _, fun u last hclose => ?_⟩
    rw [Compression.Stream.close, Compression.Stream.finish,
      hpass part (List.prefix_take_iff.2 ⟨hpart, Nat.le_of_lt hshort⟩)] at hclose
    cases hclose
    simpa using hfits
  · have htold : (Compression.Stream.start decoders).feed part =
        Compression.Stream.feedKnown (Compression.Stream.sniff (part.take Compression.magicLength))
          #[] part := if_neg hshort
    rw [htold, hpass _ (List.prefix_take_iff.2 ⟨(List.take_prefix _ _).trans hpart,
      List.length_take_le _ _⟩)] at hfeed
    cases hfeed
    refine ⟨by simpa using hfits, fun u last hclose => ?_⟩
    cases hclose
    simpa using hfits

/-- Whatever is served can be stored. -/
def ServesStorable (decoders : Compression.Decoders) (serve : Service) : Prop :=
  ∀ n q response, serve n q = .response response → Storable decoders response.body

namespace LayerIntake

theorem absorb_of_feed {l : LayerIntake decoders} {piece : List UInt8}
    {t : Compression.Stream decoders} {output : Array UInt8}
    (h : l.stream.feed piece = .ok (t, output)) :
    l.absorb piece =
      .ok (⟨l.served.update piece, l.decoded.update output.toList, t⟩, output.toList) := by
  obtain ⟨served, decoded, stream⟩ := l
  unfold absorb
  dsimp only at h ⊢
  rw [h]

theorem absorb_of_error {l : LayerIntake decoders} {piece : List UInt8} {e : Compression.StreamError}
    (h : l.stream.feed piece = .error e) : l.absorb piece = .error (streamFailure e) := by
  obtain ⟨served, decoded, stream⟩ := l
  unfold absorb
  dsimp only at h ⊢
  rw [h]

/-- Pieces are absorbed one after the other. -/
theorem absorb_append (l : LayerIntake decoders) (xs ys : List UInt8) :
    l.absorb (xs ++ ys) = (do
      let (l', output) ← l.absorb xs
      let (l'', more) ← l'.absorb ys
      return (l'', output ++ more)) := by
  have happend := Compression.Stream.feed_append l.stream xs ys
  cases hx : l.stream.feed xs with
  | error e =>
      rw [hx] at happend
      rw [absorb_of_error hx, absorb_of_error happend]
      rfl
  | ok v =>
      obtain ⟨t, output⟩ := v
      rw [hx] at happend
      rw [absorb_of_feed hx]
      dsimp only [bind, Except.bind] at happend ⊢
      cases hy : t.feed ys with
      | error e =>
          rw [hy] at happend
          rw [absorb_of_error happend, absorb_of_error hy]
      | ok v =>
          obtain ⟨u, more⟩ := v
          rw [hy] at happend
          rw [absorb_of_feed happend, absorb_of_feed hy]
          simp [pure, Except.pure, Digest.Digester.update_update]

theorem absorb_nil {l : LayerIntake decoders} (hl : l.stream.Settled) : l.absorb [] = .ok (l, []) :=
  absorb_of_feed hl

theorem close_of_stream {l : LayerIntake decoders} {t : Compression.Stream decoders}
    {output : Array UInt8} (h : l.stream.close = .ok (t, output)) :
    l.close = .ok (⟨l.served, l.decoded.update output.toList, t⟩, output.toList) := by
  obtain ⟨served, decoded, stream⟩ := l
  unfold close
  dsimp only at h ⊢
  rw [h]

end LayerIntake

/-! ## One layer -/

/-- What is received goes into the file, or there is nothing to receive, or the file cannot take it. -/
theorem receive_cases {file : Archive.Path}
    {next : Except Failure (LayerIntake decoders × List UInt8)}
    {r : Except Failure (LayerIntake decoders)} (h : receive file next w = (r, w')) :
    (∃ l output, next = .ok (l, output) ∧ appendFile file output w = (.ok (), w') ∧ r = .ok l) ∨
    (∃ e, next = .error e ∧ r = .error e) ∨
    ∃ l output e, next = .ok (l, output) ∧ r = .error e ∧
      (w'.IsDenied ∨ Disk.fileLimit < w.disk.sizeOf file + output.length) := by
  cases next with
  | error e =>
      obtain ⟨rfl, rfl⟩ := throw_inv h
      exact .inr (.inl ⟨e, rfl, rfl⟩)
  | ok v =>
      obtain ⟨l, output⟩ := v
      change (appendFile file output >>= fun _ => pure l) w = _ at h
      rcases bind_cases h with ⟨_, w₁, happend, h⟩ | ⟨e, happend, rfl⟩
      · obtain ⟨rfl, rfl⟩ := pure_inv h
        exact .inl ⟨l, output, rfl, happend, rfl⟩
      · rcases appendFile_cases happend with hok | ⟨_, _, hwhy⟩
        · exact absurd hok nofun
        · exact .inr (.inr ⟨l, output, e, rfl, rfl, hwhy⟩)

section

variable {d : Disk} {file : Archive.Path} {earlier : World} {content : List UInt8}
  {l : LayerIntake decoders} {pieces : List (List UInt8)} {r : Except Failure (LayerIntake decoders)}

theorem Receiving.sizeOf (hr : Receiving d file earlier content l w) (hfree : d.has file = false) :
    w.disk.sizeOf file = content.length := by
  obtain ⟨writes, _, hcontent, hdisk⟩ := hr.disk
  rw [hdisk, Disk.sizeOf_append_file hfree, hcontent]

/-- After this content, a beginning of what is still to come decodes to more than a file can have. -/
def LayerIntake.Overflows (l : LayerIntake decoders) (content rest : List UInt8) : Prop :=
  ∃ part l' output, part <+: rest ∧ l.absorb part = .ok (l', output) ∧
    Disk.fileLimit < content.length + output.length

/-- What overflows after a piece overflows with the piece. -/
theorem LayerIntake.Overflows.after {l' : LayerIntake decoders} {piece output rest : List UInt8}
    (habsorb : l.absorb piece = .ok (l', output)) (h : l'.Overflows (content ++ output) rest) :
    l.Overflows content (piece ++ rest) := by
  obtain ⟨part, l'', more, hpart, hmore, hlarge⟩ := h
  refine ⟨piece ++ part, l'', output ++ more, (List.prefix_append_right_inj piece).2 hpart, ?_, ?_⟩
  · rw [absorb_append, habsorb]
    dsimp only [bind, Except.bind]
    rw [hmore]
    rfl
  · rwa [List.length_append, ← Nat.add_assoc, ← List.length_append]

/-- **A layer is received as if it had come at once**, unless the file cannot take it. -/
theorem receiveAll_cases (hfree : d.has file = false) (hl : l.stream.Settled)
    (hr : Receiving d file earlier content l w)
    (h : pieces.foldlM (fun l piece => receive file (LayerIntake.absorb l piece)) l w = (r, w')) :
    (∃ l' output, l.absorb pieces.flatten = .ok (l', output) ∧ r = .ok l' ∧
      Receiving d file earlier (content ++ output) l' w') ∨
    (∃ e, l.absorb pieces.flatten = .error e ∧ r = .error e) ∨
    ∃ e, r = .error e ∧ (w'.IsDenied ∨ l.Overflows content pieces.flatten) := by
  -- by the pieces: the file has what they decode to so far, and the stream waits for the next one
  induction pieces generalizing l content w with
  | nil =>
      obtain ⟨rfl, rfl⟩ := pure_inv h
      refine .inl ⟨l, [], LayerIntake.absorb_nil hl, rfl, ?_⟩
      rwa [List.append_nil]
  | cons piece pieces ih =>
      rw [List.foldlM_cons] at h
      rw [List.flatten_cons, LayerIntake.absorb_append]
      rcases bind_cases h with ⟨l₁, w₁, h₁, h⟩ | ⟨e, h₁, rfl⟩
      · rcases receive_cases h₁ with ⟨_, output, habsorb, happend, hok⟩ | ⟨_, _, he⟩ | hfull
        · cases hok
          obtain ⟨hdecoded, _, hfeed, _⟩ := LayerIntake.absorb_ok habsorb
          rw [habsorb]
          dsimp only [bind, Except.bind]
          have hnext := hr.append hfree hdecoded happend
          rcases ih (Compression.Stream.settled_of_feed hfeed) hnext h with
            ⟨l', more, hrest, hr', hr''⟩ | ⟨e, hrest, hr'⟩ | ⟨e, hr', hwhy⟩
          · refine .inl ⟨l', output ++ more, by rw [hrest]; rfl, hr', ?_⟩
            rwa [← List.append_assoc]
          · exact .inr (.inl ⟨e, by rw [hrest], hr'⟩)
          · exact .inr (.inr ⟨e, hr', hwhy.imp_right (LayerIntake.Overflows.after habsorb)⟩)
        · exact absurd he nofun
        · obtain ⟨_, _, _, _, he, _⟩ := hfull
          exact absurd he nofun
      · rcases receive_cases h₁ with ⟨_, _, _, _, hok⟩ | ⟨e', habsorb, he⟩ | hfull
        · exact absurd hok nofun
        · cases he
          rw [habsorb]
          exact .inr (.inl ⟨e, rfl, rfl⟩)
        · obtain ⟨l', output, _, habsorb, _, hwhy⟩ := hfull
          refine .inr (.inr ⟨e, rfl, hwhy.imp_right fun hlarge => ?_⟩)
          rw [hr.sizeOf hfree] at hlarge
          exact ⟨piece, l', output, List.prefix_append _ _, habsorb, hlarge⟩

/-- On a machine that lets it, and as long as the layer can be stored, only the stream decides. -/
theorem receiveAll_outcome (hfree : d.has file = false) (hl : l.stream.Settled)
    (hroom : ∀ {part t} {output : Array UInt8}, part <+: pieces.flatten →
      l.stream.feed part = .ok (t, output) → content.length + output.size ≤ Disk.fileLimit)
    (hr : Receiving d file earlier content l w) (hw : w.IsWritable)
    (h : pieces.foldlM (fun l piece => receive file (LayerIntake.absorb l piece)) l w = (r, w')) :
    r = (l.absorb pieces.flatten).map Prod.fst ∧
      ∀ l', r = .ok l' → w'.IsWritable ∧ ∃ output, l.absorb pieces.flatten = .ok (l', output) ∧
        Receiving d file earlier (content ++ output) l' w' := by
  have hw' : w'.IsWritable := (keeps_foldlM (F := writable) (fun _ _ =>
    keeps_receive writable_storing (List.nil_prefix) _) _ _).rel h hw
  rcases receiveAll_cases hfree hl hr h with
    ⟨l', output, habsorb, rfl, hr'⟩ | ⟨e, habsorb, rfl⟩ | ⟨e, _, hdenied | hfull⟩
  · rw [habsorb]
    refine ⟨rfl, fun _ hl' => ?_⟩
    cases hl'
    exact ⟨hw', output, rfl, hr'⟩
  · rw [habsorb]
    exact ⟨rfl, fun _ hl' => absurd hl' (by simp)⟩
  · exact absurd hdenied (not_isDenied hw')
  · obtain ⟨part, _, _, hpart, habsorb, hlarge⟩ := hfull
    obtain ⟨_, bytes, hfeed, rfl⟩ := LayerIntake.absorb_ok habsorb
    exact absurd (hroom hpart hfeed) (Nat.not_le.2 (by simpa using hlarge))

end

/-- What a response comes to that a layer is received from. -/
def intakeOutcome (decoders : Compression.Decoders) (algorithm : Digest.Algorithm) (digest : String)
    (response : Response) : Except Failure (LayerIntake decoders) := do
  let (intake, _) ← (LayerIntake.start decoders algorithm).absorb response.body
  let _ ← wholeBody response (.download digest)
  return intake

/-- What a layer comes to that is received as request number `n`. -/
def receiveOutcome (decoders : Compression.Decoders) (serve : Service) (s : Settings)
    (ref : Reference) (digest : String) (n : Nat) : Except Failure (LayerIntake decoders) := do
  let algorithm ← (Digest.algorithmOf (Digest.algorithmName digest)).mapError .digest
  let intake ← blobOutcome serve s ref digest [] (intakeOutcome decoders algorithm digest) n
  intake.close.map Prod.fst

/-- What a check of a digest comes to. -/
def checkOutcome (policy : IntegrityPolicy) (what expected actual : String) : Except Failure Bool :=
  if expected = actual then .ok true
  else
    match policy with
    | .strict => .error (.mismatch what expected actual)
    | .warn => .ok false

/-- What the staging of a layer comes to. -/
def layerOutcome (decoders : Compression.Decoders) (serve : Service) (s : Settings)
    (ref : Reference) (policy : IntegrityPolicy) (digest : String) (n : Nat) :
    Except Failure String := do
  let intake ← receiveOutcome decoders serve s ref digest n
  let _ ← checkOutcome policy s!"layer {digest}" digest intake.served.digest
  return intake.decoded.digest

/-- What the staging of layers comes to. -/
def layersOutcome (decoders : Compression.Decoders) (serve : Service) (s : Settings)
    (ref : Reference) (policy : IntegrityPolicy) :
    List Descriptor → Nat → Except Failure (List String)
  | [], _ => .ok []
  | layer :: layers, n => do
    let diffId ← layerOutcome decoders serve s ref policy layer.digest n
    let diffIds ← layersOutcome decoders serve s ref policy layers (n + 1)
    return diffId :: diffIds

/-- A file with nothing in it yet. -/
def IsNewFile (file : Archive.Path) (disk : Disk) : Prop :=
  ∃ d : Disk, d.has file = false ∧ disk = d.append (.file file #[] 0)

/-- A file that is being received, with room for what may come in the end. -/
def HasRoomFor (file : Archive.Path) (l : LayerIntake decoders) (disk : Disk) : Prop :=
  ∃ (d : Disk) (writes : Array (List UInt8)), d.has file = false ∧
    disk = d.append (.file file writes 0) ∧
      ∀ t last, l.stream.close = .ok (t, last) →
        writes.toList.flatten.length + last.size ≤ Disk.fileLimit

/-- The pieces of a body are received into a new file as if they had come at once. -/
theorem receiveBody_outcome {file : Archive.Path} {algorithm : Digest.Algorithm} {body : List UInt8}
    {r : Except Failure (LayerIntake decoders)} (hbody : Storable decoders body)
    (hw : w.Offers (IsNewFile file))
    (h : (Chunks.slices s.readChunkSize body).foldlM
      (fun l piece => receive file (LayerIntake.absorb l piece))
        (LayerIntake.start decoders algorithm) w =
        (r, w')) :
    r = ((LayerIntake.start decoders algorithm).absorb body).map Prod.fst ∧
      ∀ l, r = .ok l → w'.Offers (HasRoomFor file l) := by
  obtain ⟨hwritable, d, hfree, hdisk⟩ := hw
  have hflat : (Chunks.slices s.readChunkSize body).flatten = body :=
    Chunks.flatten_slices s.readChunkSize_pos _
  have hstart : Receiving d file w [] (LayerIntake.start decoders algorithm) w :=
    ⟨.refl w, rfl, #[], Nat.zero_le _, rfl, hdisk⟩
  have hroom : ∀ {part t} {output : Array UInt8},
      part <+: (Chunks.slices s.readChunkSize body).flatten →
        (LayerIntake.start decoders algorithm).stream.feed part = .ok (t, output) →
          ([] : List UInt8).length + output.size ≤ Disk.fileLimit := by
    intro part t output hpart hfeed
    rw [List.length_nil, Nat.zero_add]
    exact (hbody part t output (hflat ▸ hpart) hfeed).1
  obtain ⟨hr, hok⟩ :=
    receiveAll_outcome hfree Compression.Stream.settled_start hroom hstart hwritable h
  rw [hflat] at hr hok
  refine ⟨hr, fun l hl => ?_⟩
  obtain ⟨hw', output, habsorb, hreceived⟩ := hok l hl
  obtain ⟨writes, _, hcontent, hdisk'⟩ := hreceived.disk
  obtain ⟨_, bytes, hfeed, rfl⟩ := LayerIntake.absorb_ok habsorb
  refine ⟨hw', d, writes, hfree, hdisk', fun t last hclose => ?_⟩
  rw [hcontent]
  simpa using (hbody _ _ _ (List.prefix_refl _) hfeed).2 t last hclose

theorem decided_download {file : Archive.Path} {digest : String} {algorithm : Digest.Algorithm}
    (hserve : ServesStorable decoders serve) :
    Decided serve (World.Offers (IsNewFile file))
      (foldBlob s ref digest [] (LayerIntake.start decoders algorithm) fun intake piece =>
        receive file (intake.absorb piece)) 1
      (blobOutcome serve s ref digest [] (intakeOutcome decoders algorithm digest))
      fun l => World.Offers (HasRoomFor file l) := by
  refine decided_withBlob lasting_offers (fun response => ?_) ?_
  · exact keeps_bind (keeps_foldlM (fun _ _ => keeps_receive silent_storing (List.nil_prefix) _) _ _)
      fun final => keeps_of_calculates (calculates_ending response (.download digest) final)
  · intro n q response w r w' hanswer hw huse
    obtain ⟨v, hfold, hr⟩ := bind_calculates (calculates_ending response (.download digest)) huse
    obtain ⟨rfl, hroom⟩ := receiveBody_outcome (hserve n q response hanswer) hw hfold
    refine ⟨?_, fun l hl => ?_⟩
    · rw [hr, intakeOutcome]
      cases (LayerIntake.start decoders algorithm).absorb response.body <;> rfl
    · obtain ⟨l', hl', hend⟩ := bind_eq_ok.1 (hr.symm.trans hl)
      obtain ⟨_, _, hsame⟩ := bind_eq_ok.1 hend
      cases hsame
      exact hroom _ hl'

theorem decided_close {file : Archive.Path} (l : LayerIntake decoders) :
    Decided serve (World.Offers (HasRoomFor file l)) (receive file l.close) 0
      (fun _ => l.close.map Prod.fst) fun _ => World.IsWritable := by
  refine decided_silent (keeps_receive silent_storing (List.nil_prefix) _) ?_
  rintro w r w' ⟨hw, d, writes, hfree, hdisk, hroom⟩ h
  have hw' := (keeps_receive writable_storing (List.nil_prefix) _).rel h hw
  rcases receive_cases h with ⟨l', _, hclose, _, rfl⟩ | ⟨e, hclose, rfl⟩ |
    ⟨_, _, _, hclose, _, hdenied | hlarge⟩
  · rw [hclose]
    exact ⟨rfl, fun _ _ => hw'⟩
  · rw [hclose]
    exact ⟨rfl, fun _ hl' => absurd hl' (by simp)⟩
  · exact absurd hdenied (not_isDenied hw')
  · obtain ⟨_, bytes, hlast, rfl⟩ := LayerIntake.close_ok hclose
    rw [hdisk, Disk.sizeOf_append_file hfree] at hlarge
    exact absurd (hroom _ _ hlast) (Nat.not_le.2 (by simpa using hlarge))

theorem decided_receiveLayer {file : Archive.Path} {digest : String}
    (hserve : ServesStorable decoders serve) :
    Decided serve (World.Offers fun d => d.has file = false)
      (receiveLayer decoders s ref digest file) 1
      (receiveOutcome decoders serve s ref digest) fun _ => World.IsWritable := by
  refine decided_ofExcept_bind fun algorithm => ?_
  refine Succeeds.bind ?_ (silent_storing.change fun d => d.remove_createFile (List.nil_prefix))
    fun _ => ((decided_download hserve).bind fun l => decided_close l).congr fun n => rfl
  rintro w ⟨hw, hfree⟩
  have hcreate := changeDisk_writable hw (·.createFile file)
  exact ⟨(), _, hcreate, (changeDisk_ok hcreate).1, hw, w.disk, hfree,
    Disk.createFile_of_not_has hfree⟩

theorem decided_checkDigest {P : World → Prop} (hP : Lasting P) (what expected actual : String) :
    Decided serve P (checkDigest policy what expected actual) 0
      (fun _ => checkOutcome policy what expected actual) fun _ => P := by
  unfold checkDigest checkOutcome
  split
  · exact decided_pure true
  · cases policy with
    | strict => exact decided_calculates (calculates_throw _)
    | warn => exact decided_note_bind hP rfl (decided_pure false)

/-- Nothing of a layer is left that is still to be given its place. -/
def IsTidy (work : Archive.Path) (d : Disk) : Prop :=
  ∀ name, d.has (work ++ [layerBeginning ++ name]) = false

/-- There is always a name for a provisional directory. -/
theorem succeeds_newStaging : Succeeds (World.Offers (IsTidy work))
    (newDirectory work layerBeginning nameAttempts)
    fun staging => World.Offers fun d => d.has (staging ++ [Archive.layerFile]) = false := by
  rintro w ⟨hw, htidy⟩
  have hnew : ∃ staging w', newDirectory work layerBeginning nameAttempts w = (.ok staging, w') ∧
      w'.IsWritable := newDirectory_writable hw ⟨0, by decide, htidy _⟩
  obtain ⟨staging, w', hnew, hw'⟩ := hnew
  obtain ⟨ht, name, rfl, hfree, hd⟩ := newDirectory_ok hnew
  refine ⟨_, w', hnew, ht, hw', ?_⟩
  show w'.disk.has _ = false
  rw [hd, Disk.has_makeDirectory]
  exact Disk.has_of_prefix (List.prefix_append _ _) hfree

theorem succeeds_changeDisk (f : Disk → Disk) :
    Succeeds World.IsWritable (changeDisk f) fun _ => World.IsWritable := by
  intro w hw
  have hchange := changeDisk_writable hw f
  exact ⟨(), _, hchange, (changeDisk_ok hchange).1, hw⟩

theorem succeeds_settleLayer (staging place : Archive.Path) :
    Succeeds World.IsWritable (settleLayer staging place created) fun _ => World.IsWritable := by
  intro w hw
  have hstored : isStored place w = (.ok (w.disk.has place), w) := rfl
  unfold settleLayer
  rw [bind_run hstored]
  split
  · exact succeeds_changeDisk _ w hw
  · obtain ⟨_, w₁, h₁, ht₁, hw₁⟩ := succeeds_changeDisk (·.move staging place) w hw
    obtain ⟨_, w₂, h₂, ht₂, hw₂⟩ := succeeds_changeDisk
      (·.setModified (place ++ [Archive.layerFile]) created.epochMicroseconds) w₁ hw₁
    obtain ⟨_, w₃, h₃, ht₃, hw₃⟩ := succeeds_changeDisk
      (·.setModified place created.epochMicroseconds) w₂ hw₂
    refine ⟨(), w₃, ?_, (ht₁.trans ht₂).trans ht₃, hw₃⟩
    rw [bind_run h₁, bind_run h₂]
    exact h₃

/-- **The staging of a layer is decided by the answer.** -/
theorem decided_stageLayer {digest : String} (hserve : ServesStorable decoders serve) :
    Decided serve (World.Offers (IsTidy work))
      (stageLayer decoders s policy ref created work digest) 1
      (layerOutcome decoders serve s ref policy digest) fun _ => World.IsWritable := by
  have hsettle : ∀ staging place, Keeps silent (settleLayer staging place created) := fun _ _ =>
    keeps_settleLayer silent_storing List.nil_prefix List.nil_prefix
  have hrest : ∀ (staging : Archive.Path) (diffId text : String),
      Decided serve World.IsWritable (do
        settleLayer staging (work ++ [fileStem diffId]) created
        log .exporting .debug text
        return diffId) 0 (fun _ => .ok diffId) fun _ => World.IsWritable := fun _ _ _ =>
    Succeeds.bind (succeeds_settleLayer _ _) (hsettle _ _) fun _ =>
      decided_note_bind lasting_writable rfl (decided_pure _)
  refine Succeeds.bind succeeds_newStaging (silent_storing.keeps_newDirectory _ _) fun staging => ?_
  exact Decided.congr ((decided_receiveLayer hserve).bind fun intake =>
    (decided_checkDigest lasting_writable _ _ _).bind fun _ => hrest staging _ _) fun n => rfl

/-! ## All layers -/

section

variable {base : Disk}

/-- Layers are laid out on the disk, whichever they are. -/
def IsStaged (base : Disk) (work : Archive.Path) (modified : Int) (d : Disk) : Prop :=
  ∃ contents held, Staged base work modified contents held d

theorem IsStaged.isTidy {modified : Int} {d : Disk}
    (hbase : ∀ name, base.has (work ++ [name]) = false) (h : IsStaged base work modified d) :
    IsTidy work d := by
  obtain ⟨contents, held, hs⟩ := h
  -- the l of the beginning is no hexadecimal digit
  refine fun name => hs.has_eq_false (c := 'l') hbase ?_ (by decide)
  rw [String.toList_append]
  exact List.mem_append_left _ (by decide)

/-- **The staging of layers is decided by the answers.** -/
theorem decided_stageLayers {listens : Bool} {total : Int} (layers : List Descriptor) (index : Int)
    (hserve : ServesStorable decoders serve) (hbase : ∀ name, base.has (work ++ [name]) = false) :
    Decided serve (World.Offers (IsStaged base work created.epochMicroseconds))
      (stageLayers decoders s policy ref created work listens total index layers) layers.length
      (layersOutcome decoders serve s ref policy layers)
      fun _ => World.Offers (IsStaged base work created.epochMicroseconds) := by
  induction layers generalizing index with
  | nil => exact decided_pure []
  | cons layer layers ih =>
      have hlayer : Decided serve (World.Offers (IsStaged base work created.epochMicroseconds))
          (stageLayer decoders s policy ref created work layer.digest) 1
          (layerOutcome decoders serve s ref policy layer.digest)
          fun _ => World.Offers (IsStaged base work created.epochMicroseconds) := by
        have htidy : ∀ {w : World}, w.Offers (IsStaged base work created.epochMicroseconds) →
            w.Offers (IsTidy work) := fun hw => ⟨hw.1, hw.2.isTidy hbase⟩
        refine ((decided_stageLayer hserve).of_imp htidy).and ?_
        rintro w diffId w' ⟨hw, contents, held, hs⟩ h
        obtain ⟨_, content, held', _, _, _, hs'⟩ := Staged.stageLayer hbase hs h
        exact ⟨contents ++ [content], held', hs'⟩
      have hrest : ∀ diffId text : String,
          Decided serve (World.Offers (IsStaged base work created.epochMicroseconds)) (do
            report listens index total text
            let diffIds ←
              stageLayers decoders s policy ref created work listens total (index + 1) layers
            return diffId :: diffIds) layers.length
            (fun n => do return diffId :: (← layersOutcome decoders serve s ref policy layers n))
            fun _ => World.Offers (IsStaged base work created.epochMicroseconds) := by
        intro diffId text
        have hboth := (ih (index + 1)).bind fun diffIds => decided_pure (diffId :: diffIds)
        rw [Nat.zero_add] at hboth
        exact decided_report_bind lasting_offers hboth
      refine decided_note_bind lasting_offers rfl ?_
      exact Decided.congr (hlayer.warnOnFailure.bind fun diffId => hrest diffId _) fun n => rfl

end

end ImageTransfer.Transfer
