import ImageTransfer.Proofs.Exchange.Failures
import ImageTransfer.Proofs.Registry.Chunks
import ImageTransfer.Proofs.Registry.Requests
import ImageTransfer.Transfer.Export

/-!
# What an export leaves behind

An export lays everything out in a directory of its own, and only then it writes. So whatever goes
wrong before, at whichever request, byte or change of the disk, nothing has been written out; and
since the directory is taken away on every path, the disk is what it was.

The steps of the staging keep to any frame that allows for what they are made of, and `inside work` is
one. The theorem about the whole export needs no more than that, and not what the steps are for.
-/

namespace ImageTransfer

namespace Exchange

/-- A frame that does not mind warnings about integrity. -/
structure Frame.Heedless (F : Frame) : Prop where
  warning : ∀ text, Keeps F (log .integrity .warning text)

/-- A frame that minds nothing of what is done to stage an image in a directory. -/
structure Frame.Staging (F : Frame) (work : Archive.Path) : Prop
    extends F.Online, F.Storing work, F.Heedless

/-- The same with a frame of its own for what is done while a response is in use. -/
structure Frame.Downloading (F G : Frame) (work : Archive.Path) : Prop
    extends F.Serving G, F.Storing work, F.Heedless where
  inner : G.Storing work

theorem Frame.Staging.downloading {F : Frame} {work : Archive.Path} (hF : F.Staging work) :
    F.Downloading F work where
  toServing := hF.serving
  toStoring := hF.toStoring
  toHeedless := hF.toHeedless
  inner := hF.toStoring

theorem inside_staging {work : Archive.Path} : (inside work).Staging work where
  toOnline := inside_online
  toStoring := inside_storing
  warning _ w := inside_of_untouched (.note w _)

theorem talks_staging {work : Archive.Path} : talks.Staging work where
  toOnline := talks_online
  toStoring := talks_storing
  warning _ w := ⟨[], .note w rfl⟩

theorem silent_heedless : silent.Heedless where
  warning _ w := .note w rfl

theorem untouched_heedless : untouched.Heedless where
  warning _ w := .note w _

end Exchange

namespace Transfer

open Exchange Registry

variable {decoders : Compression.Decoders} {s : Settings} {ref : Reference}
  {policy : IntegrityPolicy} {work : Archive.Path} {created : Timestamp} {F G : Frame}
  {w w' : World}

/-! ## Staging stays inside its directory -/

theorem keeps_checkDigest (hF : F.Heedless) (what expected actual : String) :
    Keeps F (checkDigest policy what expected actual) := by
  refine keeps_ite (keeps_pure _) ?_
  cases policy with
  | strict => exact keeps_throw _
  | warn => exact keeps_bind (hF.warning _) fun _ => keeps_pure _

theorem keeps_fetchConfig (hF : F.Serving G) (hA : F.Heedless) (m : Manifest) :
    Keeps F (fetchConfig s policy ref m) :=
  keeps_bind (keeps_ofExcept _ _) fun _ =>
    keeps_bind (hF.keeps_warnOnFailure (by decide) _ (keeps_readBlob hF)) fun _ =>
      keeps_bind (keeps_ofExcept _ _) fun _ =>
        keeps_bind (keeps_checkDigest hA _ _ _) fun _ => keeps_ofExcept _ _

theorem keeps_receive (hF : F.Storing work) {file : Archive.Path} (h : work <+: file)
    (next : Except Failure (LayerIntake decoders × List UInt8)) : Keeps F (receive file next) :=
  keeps_bind (keeps_ofExcept _ _) fun _ =>
    keeps_bind (hF.keeps_appendFile h _) fun _ => keeps_pure _

theorem keeps_receiveLayer (hF : F.Serving G) (hG : G.Storing work) (hS : F.Storing work)
    {file : Archive.Path} (h : work <+: file) (digest : String) :
    Keeps F (receiveLayer decoders s ref digest file) :=
  keeps_bind (keeps_ofExcept _ _) fun _ =>
    keeps_bind (hS.change fun d => d.remove_createFile h) fun _ =>
      keeps_bind (keeps_foldBlob hF fun _ _ => keeps_receive hG h _) fun _ => keeps_receive hS h _

theorem keeps_settleLayer (hF : F.Storing work) {staging place : Archive.Path} (hs : work <+: staging)
    (hp : work <+: place) : Keeps F (settleLayer staging place created) := by
  refine keeps_bind (keeps_isStored _) fun stored =>
    keeps_ite (hF.change fun d => d.remove_remove hs) ?_
  exact keeps_bind (hF.change fun d => d.remove_move hs hp) fun _ =>
    keeps_bind (hF.change fun d => d.remove_setModified (hp.trans (List.prefix_append _ _)) _) fun _ =>
      hF.change fun d => d.remove_setModified hp _

theorem keeps_stageLayer (hF : F.Downloading G work) (digest : String) :
    Keeps F (stageLayer decoders s policy ref created work digest) := by
  refine keeps_bind_of_ok (hF.keeps_newDirectory _ _) fun staging w w' hnew => ?_
  have hs : work <+: staging := by
    obtain ⟨_, _, rfl, _⟩ := newDirectory_ok hnew
    exact List.prefix_append _ _
  refine keeps_bind (keeps_receiveLayer hF.toServing hF.inner hF.toStoring
    (hs.trans (List.prefix_append _ _)) digest) fun intake => ?_
  refine keeps_bind (keeps_checkDigest hF.toHeedless _ _ _) fun _ => ?_
  exact keeps_bind (keeps_settleLayer hF.toStoring hs (List.prefix_append _ _)) fun _ =>
    keeps_bind (hF.keeps_log (by decide) _ _) fun _ => keeps_pure _

theorem keeps_stageLayers (hF : F.Downloading G work) {listens : Bool} [F.Hears listens] {total : Int}
    (layers : List Descriptor) (index : Int) :
    Keeps F (stageLayers decoders s policy ref created work listens total index layers) := by
  induction layers generalizing index with
  | nil => exact keeps_pure _
  | cons layer layers ih =>
      refine keeps_bind (hF.keeps_log (by decide) _ _) fun _ => ?_
      refine keeps_bind (hF.keeps_warnOnFailure (by decide) _ (keeps_stageLayer hF _)) fun _ => ?_
      exact keeps_bind (keeps_report _ _ _ _) fun _ =>
        keeps_bind (ih _) fun _ => keeps_pure _

theorem keeps_layOutIndex (hF : F.Storing work) {name : String} {config : Json.Members}
    {diffIds : List String} : Keeps F (layOutIndex work name created config diffIds) :=
  keeps_bind (keeps_ofExcept _ _) fun _ =>
    keeps_bind (hF.keeps_storeFile (List.prefix_append _ _) _ _) fun _ =>
      keeps_bind (hF.keeps_storeFile (List.prefix_append _ _) _ _) fun _ => keeps_pure _

/-- **Whatever comes of it, an image is laid out inside its directory.** -/
theorem keeps_layOutImage (hF : F.Downloading G work) {name : String} {m : Manifest}
    {listens : Bool} [F.Hears listens] :
    Keeps F (layOutImage decoders s policy ref name m listens work) :=
  keeps_bind (keeps_fetchConfig hF.toServing hF.toHeedless m) fun _ =>
    keeps_bind (keeps_ofExcept _ _) fun layers =>
      keeps_bind (keeps_stageLayers hF layers 1) fun _ => keeps_layOutIndex hF.toStoring

/-! ## Packing -/

theorem packDirectory_run (work : Archive.Path) (w : World) :
    packDirectory work w = match Archive.Tar.pack? (w.disk.below work) with
      | some bytes => (Chunks.slices Archive.Tar.recordSize bytes).forM write w
      | none => (.error .tooDeepTree, w) := by
  have hget : (get : Exchange World) w = (.ok w, w) := rfl
  unfold packDirectory
  rw [bind_run hget]
  cases Archive.Tar.pack? (w.disk.below work) <;> rfl

/-- Packing does nothing but write. -/
theorem keeps_packDirectory (hwrites : ∀ pieces : List (List UInt8), Keeps F (pieces.forM write)) :
    Keeps F (packDirectory work) := by
  intro w
  rw [packDirectory_run]
  cases Archive.Tar.pack? (w.disk.below work) with
  | none => exact F.refl w
  | some bytes => exact hwrites _ w

/-- A directory that can be packed is written out, unless the sink refuses a record. -/
theorem packDirectory_cases {r : Except Failure Unit} (h : packDirectory work w = (r, w')) :
    (Archive.Tar.pack? (w.disk.below work) = none ∧ r = .error .tooDeepTree ∧ w' = w) ∨
      ∃ bytes, Archive.Tar.pack? (w.disk.below work) = some bytes ∧ Writing w w' ∧
        ((r = .ok () ∧ w'.sink.bytes = w.sink.bytes ++ bytes) ∨
          ∃ e, r = .error e ∧ e.kind = .system ∧ w'.sink.isFull = true) := by
  rw [packDirectory_run] at h
  cases hpack : Archive.Tar.pack? (w.disk.below work) with
  | none =>
      rw [hpack] at h
      obtain ⟨rfl, rfl⟩ := Prod.mk.inj h
      exact .inl ⟨rfl, rfl, rfl⟩
  | some bytes =>
      rw [hpack] at h
      have hrecord : 0 < Archive.Tar.recordSize := by decide
      obtain ⟨hw, hr⟩ := writes_cases (w := w) h
      rw [Chunks.flatten_slices hrecord] at hr
      refine .inr ⟨bytes, rfl, hw, hr.imp id ?_⟩
      rintro ⟨⟨e, rfl⟩, hfull⟩
      exact ⟨e, rfl, (failsIn_writes (K := (.system = ·)) rfl _ _ _ e h).symm, hfull⟩

theorem pack?_eq_some {t : Archive.Tree} {bytes : List UInt8}
    (h : Archive.Tar.pack? t = some bytes) : bytes = Archive.Tar.archive t := by
  unfold Archive.Tar.pack? at h
  split at h
  · exact (Option.some.inj h).symm
  · cases h

/-- How a run of the staging ends: it fails before anything is written, or by a write, or it has
written the archive of what was laid out. The disk is what it was. -/
theorem stageImage_cases {name : String} {m : Manifest} {listens : Bool}
    {r : Except Failure Exported} (h : stageImage decoders s policy ref name m listens w = (r, w')) :
    w'.disk = w.disk ∧
      (((∃ e, r = .error e) ∧ (w'.sink = w.sink ∨ w'.sink.isFull = true)) ∨
        ∃ exported work w₁ w₂, r = .ok exported ∧ Private w w₁ ∧ w.disk.has work = false ∧
          w₁.disk = w.disk.makeDirectory work ∧
          layOutImage decoders s policy ref name m listens work w₁ = (.ok exported, w₂) ∧
          Talk w₂ [] w' ∧
          w'.sink.bytes = w.sink.bytes ++ Archive.Tar.archive (w₂.disk.below work)) := by
  rcases withWorkDirectory_cases h with ⟨hp, hd, _, he⟩ | ⟨work, w₁, w₂, hp, hfree, hd, hx, rfl⟩
  · exact ⟨hd, .inl ⟨⟨_, he⟩, .inl hp.sink⟩⟩
  rcases bind_cases hx with ⟨exported, w₃, hlay, hx⟩ | ⟨e, hlay, rfl⟩
  · have hin := (keeps_layOutImage inside_staging.downloading).rel hlay
    -- all is laid out, so what can still refuse is the walk, before anything is written, and the sink
    rcases bind_cases hx with ⟨_, w₄, hpack, hx⟩ | ⟨e, hpack, rfl⟩
    · obtain ⟨rfl, rfl⟩ := pure_inv hx
      obtain ⟨-, he, -⟩ | ⟨bytes, hbytes, hw, ⟨-, hb⟩ | ⟨e, he, -⟩⟩ := packDirectory_cases hpack
      · cases he
      · refine ⟨remove_of_within hfree hd (by rw [hw.disk, hin.2]), .inr ⟨exported, work, w₁, w₃,
          rfl, hp, hfree, hd, hlay, hw.talk.trans (.of_eq rfl rfl rfl), ?_⟩⟩
        rw [← hp.sink, ← hin.1, ← pack?_eq_some hbytes]
        exact hb
      · cases he
    · obtain ⟨-, -, rfl⟩ | ⟨bytes, -, hw, ⟨he, -⟩ | ⟨_, -, -, hfull⟩⟩ := packDirectory_cases hpack
      · exact ⟨remove_of_within hfree hd hin.2, .inl ⟨⟨e, rfl⟩, .inl (hin.1.trans hp.sink)⟩⟩
      · cases he
      · exact ⟨remove_of_within hfree hd (by rw [hw.disk, hin.2]), .inl ⟨⟨e, rfl⟩, .inr hfull⟩⟩
  · have hin := (keeps_layOutImage inside_staging.downloading).rel hlay
    exact ⟨remove_of_within hfree hd hin.2, .inl ⟨⟨e, rfl⟩, .inl (hin.1.trans hp.sink)⟩⟩

/-! ## The whole export -/

/-- How a run of an export goes: without a name it is refused, without a manifest it ends, and
otherwise it is what it stages of the manifest that comes of it. -/
theorem exportImage_outcome {policy : Option IntegrityPolicy} {listens : Bool}
    {r : Except Failure Exported} (h : exportImage decoders s policy ref listens w = (r, w')) :
    (ref.commonName = none ∧ r = .error (.untagged ref.text) ∧ w' = w) ∨
      ∃ name a w₁, ref.commonName = some name ∧ Speech w [(manifestRequest s ref, a)] w₁ ∧
        Untouched w w₁ ∧
        ((∃ e, manifestOutcome ref a = .error e ∧ r = .error e ∧ w' = w₁) ∨
          ∃ m w₂ r', manifestOutcome ref a = .ok m ∧
            stageImage decoders s (policy.getD s.verify) ref name m listens w₁ = (r', w₂) ∧
            Speech w₂ [] w' ∧ Untouched w₂ w' ∧ r = r'.mapError (archiveFailure ref)) := by
  unfold exportImage at h
  cases hname : ref.commonName with
  | none =>
      rw [hname] at h
      obtain ⟨rfl, rfl⟩ := throw_inv h
      exact .inl ⟨rfl, rfl, rfl⟩
  | some name =>
      rw [hname] at h
      rcases bind_cases h with ⟨m, w₁, h₁, h⟩ | ⟨e, h₁, rfl⟩
      · obtain ⟨a, hs₁, hu₁, hm⟩ := getManifest_outcome_warned h₁
        refine .inr ⟨name, a, w₁, rfl, hs₁, hu₁, .inr ?_⟩
        rcases bind_cases h with ⟨exported, w₂, h₂, h⟩ | ⟨e, h₂, rfl⟩
        · rcases mapFailure_cases h₂ with ⟨_, hstage, hok⟩ | ⟨_, _, he⟩
          · cases hok
            obtain ⟨w₃, hs₃, hu₃, hp⟩ := note_bind_speech rfl rfl h
            obtain ⟨rfl, rfl⟩ := pure_inv hp
            exact ⟨m, w₂, _, hm.symm, hstage, hs₃, hu₃, rfl⟩
          · exact absurd he (by simp)
        · rcases mapFailure_cases h₂ with ⟨_, _, he⟩ | ⟨e', hstage, he⟩
          · exact absurd he (by simp)
          · cases he
            exact ⟨m, w', _, hm.symm, hstage, .refl _, .refl _, rfl⟩
      · obtain ⟨a, hs₁, hu₁, hm⟩ := getManifest_outcome_warned h₁
        exact .inr ⟨name, a, w', rfl, hs₁, hu₁, .inl ⟨e, hm.symm, rfl, rfl⟩⟩

/-- The same, where it does not matter why there is no image. -/
theorem exportImage_cases {policy : Option IntegrityPolicy} {listens : Bool}
    {r : Except Failure Exported} (h : exportImage decoders s policy ref listens w = (r, w')) :
    ((∃ e, r = .error e) ∧ Untouched w w') ∨
      ∃ name m a w₁ w₂ r', ref.commonName = some name ∧
        Talk w [(manifestRequest s ref, a)] w₁ ∧ Untouched w w₁ ∧ a.Serves m ∧
        stageImage decoders s (policy.getD s.verify) ref name m listens w₁ = (r', w₂) ∧
        Talk w₂ [] w' ∧ Untouched w₂ w' ∧
        ((∃ e e', r' = .error e ∧ r = .error e') ∨ ∃ exported, r' = .ok exported ∧ r = .ok exported) := by
  rcases exportImage_outcome h with ⟨_, he, rfl⟩ | ⟨name, a, w₁, hname, hs₁, hu₁, hm⟩
  · exact .inl ⟨⟨_, he⟩, .refl _⟩
  rcases hm with ⟨e, _, he, rfl⟩ | ⟨m, w₂, r', hm, hstage, hs₂, hu₂, hr⟩
  · exact .inl ⟨⟨e, he⟩, hu₁⟩
  refine .inr ⟨name, m, a, w₁, w₂, r', hname, hs₁.talk, hu₁, manifestOutcome_eq_ok.1 hm, hstage,
    hs₂.talk, hu₂, ?_⟩
  cases r' with
  | error e => exact .inl ⟨e, _, rfl, hr⟩
  | ok exported => exact .inr ⟨exported, rfl, hr⟩

/-- **An export that fails has written nothing, and every export leaves the disk as it was.** The
failure may come from anywhere, but for a sink that refuses a write. Every change of the disk may be
refused and every file run full; that the files which are laid out can be read again, and that the
directory to work in can be removed, is assumed (see `packDirectory` and `withWorkDirectory`). -/
theorem exportImage_leavesNothing (decoders : Compression.Decoders) (s : Settings)
    (policy : Option IntegrityPolicy) (ref : Reference) (listens : Bool) (w : World) :
    let run := exportImage decoders s policy ref listens w
    run.2.disk = w.disk ∧
      (∀ e, run.1 = .error e → run.2.sink.isFull = false → run.2.sink = w.sink) := by
  intro run
  have hrun : exportImage decoders s policy ref listens w = (run.1, run.2) := rfl
  rcases exportImage_cases hrun with ⟨_, hu⟩ | hstaged
  · exact ⟨hu.disk, fun _ _ _ => hu.sink⟩
  obtain ⟨name, m, a, w₁, w₂, r, _, _, hu₁, _, hstage, _, hu₂, hr⟩ := hstaged
  obtain ⟨hdisk, hstage⟩ := stageImage_cases hstage
  refine ⟨hu₂.disk.trans (hdisk.trans hu₁.disk), fun e he hfull => ?_⟩
  rcases hstage with ⟨_, hsink⟩ | ⟨exported, _, _, _, hok, _⟩
  · rcases hsink with hsink | hsink
    · exact hu₂.sink.trans (hsink.trans hu₁.sink)
    · rw [hu₂.sink, hsink] at hfull
      exact absurd hfull (by simp)
  · rcases hr with ⟨_, _, herr, _⟩ | ⟨_, _, hrun⟩
    · exact absurd (hok.symm.trans herr) nofun
    · exact absurd (he.symm.trans hrun) nofun

end Transfer

end ImageTransfer
