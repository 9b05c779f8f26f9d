import ImageTransfer.Compression.Decoders
import ImageTransfer.Proofs.Transfer.ImageExport
import ImageTransfer.Proofs.Transfer.LayerOutcome

/-!
# Exports are reproducible

Two exports of what the same registry serves come to the same, byte for byte or failure for failure.
How much of a body is read at once has no influence on that, and neither has the time that a client
waits, or what directories are named.

What is laid out depends on what is served alone (`imageOutcome`), and the archive of it too: its tree
is `imageTree` of the contents, in which the name of no directory to work in is left.
-/

namespace ImageTransfer.Transfer

open Exchange Registry

variable {decoders : Compression.Decoders} {serve : Service} {s s' : Settings} {ref : Reference}
  {policy : IntegrityPolicy} {work : Archive.Path} {created : Timestamp} {w w' : World}
  {m : Manifest} {name : String}

/-! ## What is laid out -/

/-- What the configuration of an image comes to. -/
def configOutcome (serve : Service) (s : Settings) (ref : Reference) (policy : IntegrityPolicy)
    (m : Manifest) (n : Nat) : Except Failure Json.Members := do
  let descriptor ← m.config.mapError .manifest
  let bytes ← blobOutcome serve s ref descriptor.digest configMediaTypes
    (fun response => wholeBody response (.download descriptor.digest)) n
  let algorithm ← (Digest.algorithmOf (Digest.algorithmName descriptor.digest)).mapError .digest
  let _ ← checkOutcome policy "image config" descriptor.digest (Digest.ofBytes algorithm bytes)
  (ImageConfig.ofBytes bytes).mapError .config

/-- What the files of the configuration and of the index come to. -/
def indexOutcome (name : String) (config : Json.Members) (diffIds : List String) :
    Except Failure Exported := do
  let bytes ← (ImageConfig.bytes (ImageConfig.withDiffIds config diffIds)).mapError .config
  let configDigest := Digest.canonical bytes
  let entry : Archive.IndexEntry :=
    ⟨configFile configDigest, [name], diffIds.map fun d => (layerPath d).text⟩
  storeOutcome bytes
  storeOutcome (Archive.indexBytes [entry])
  return ⟨configDigest, diffIds, entry⟩

/-- What an image comes to, the configuration of which is request number `n`. -/
def imageOutcome (decoders : Compression.Decoders) (serve : Service) (s : Settings)
    (ref : Reference) (policy : IntegrityPolicy) (name : String) (m : Manifest) (n : Nat) :
    Except Failure Exported := do
  let config ← configOutcome serve s ref policy m n
  let layers ← m.layers.mapError .manifest
  let diffIds ← layersOutcome decoders serve s ref policy layers (n + 1)
  indexOutcome name config diffIds

theorem decided_fetchConfig {P : World → Prop} (hP : Lasting P) :
    Decided serve P (fetchConfig s policy ref m) 1 (configOutcome serve s ref policy m) fun _ => P :=
  decided_ofExcept_bind fun _ =>
    Decided.congr ((decided_readBlob hP).warnOnFailure.bind fun _ =>
      decided_ofExcept_bind fun _ => (decided_checkDigest hP _ _ _).bind fun _ =>
        decided_ofExcept _ _) fun _ => rfl

theorem decided_layOutIndex {base : Disk} {config : Json.Members} {diffIds : List String}
    (hbase : ∀ name, base.has (work ++ [name]) = false) :
    Decided serve (World.Offers (IsStaged base work created.epochMicroseconds))
      (layOutIndex work name created config diffIds) 0 (fun _ => indexOutcome name config diffIds)
      fun _ => World.IsWritable := by
  have hconfig : ∀ bytes : List UInt8,
      Decided serve (World.Offers (IsStaged base work created.epochMicroseconds))
        (storeFile (work ++ [configFile (Digest.canonical bytes)]) bytes created.epochMicroseconds) 0
        (fun _ => storeOutcome bytes)
        fun _ => World.Offers fun d => d.has (work ++ [Archive.indexFile]) = false := by
    intro bytes
    rw [configFile_canonical]
    have hfree : ∀ {w : World}, w.Offers (IsStaged base work created.epochMicroseconds) →
        w.Offers fun d => d.has (work ++ [contentName bytes ++ ".json"]) = false :=
      fun ⟨hw, _, _, hs⟩ => ⟨hw, hs.has_config hbase bytes⟩
    refine ((decided_storeFile bytes _).of_imp hfree).and ?_
    rintro w _ w' ⟨hw, contents, held, hs⟩ h
    obtain ⟨_, stored, _, rfl, hd⟩ := storeFile_ok (hs.has_config hbase bytes) h
    exact hs.has_index hbase hd
  exact decided_ofExcept_bind fun bytes => Decided.congr ((hconfig bytes).bind fun _ =>
    (decided_storeFile _ _).bind fun _ => decided_pure _) fun _ => rfl

/-- **What is laid out is decided by the answers.** -/
theorem decided_layOutImage {base : Disk} {listens : Bool} (hserve : ServesStorable decoders serve)
    (hbase : ∀ name, base.has (work ++ [name]) = false) :
    ∃ count, Decided serve (World.Offers (· = base))
      (layOutImage decoders s policy ref name m listens work) count
      (imageOutcome decoders serve s ref policy name m) fun _ => World.IsWritable := by
  obtain ⟨count, hrest⟩ : ∃ count, ∀ config : Json.Members,
      Decided serve (World.Offers (· = base)) (do
        let layers ← ofExcept m.layers .manifest
        let diffIds ← stageLayers decoders s policy ref (ImageConfig.created config) work listens
          layers.length 1 layers
        layOutIndex work name (ImageConfig.created config) config diffIds) count
        (fun n => do
          let layers ← m.layers.mapError .manifest
          let diffIds ← layersOutcome decoders serve s ref policy layers n
          indexOutcome name config diffIds) fun _ => World.IsWritable := by
    cases m.layers with
    | error e =>
        have hfails : ∀ (x : List Descriptor → Exchange Exported),
            Calculates (ofExcept (.error e) Failure.manifest >>= x) (.error (.manifest e)) :=
          fun x w => bind_error rfl
        refine ⟨0, fun config => decided_silent (keeps_of_calculates (hfails _)) ?_⟩
        intro w r w' _ h
        rw [hfails] at h
        obtain ⟨rfl, rfl⟩ := Prod.mk.inj h
        exact ⟨rfl, fun _ ha => absurd ha (by simp)⟩
    | ok layers =>
        have hstart : ∀ {modified : Int} {w : World}, w.Offers (· = base) →
            w.Offers (IsStaged base work modified) := fun hw =>
          ⟨hw.1, [], [], hw.2.trans base.append_empty.symm, nofun, nofun, List.nodup_nil, nofun, rfl⟩
        refine ⟨0 + layers.length, fun config => ?_⟩
        change Decided serve _ (stageLayers decoders s policy ref (ImageConfig.created config) work
          listens layers.length 1 layers >>= fun diffIds =>
            layOutIndex work name (ImageConfig.created config) config diffIds) _ _ _
        exact Decided.congr (((decided_stageLayers layers 1 hserve hbase).of_imp hstart).bind
          fun _ => decided_layOutIndex hbase) fun _ => rfl
  exact ⟨count + 1, Decided.congr ((decided_fetchConfig lasting_offers).bind fun config =>
    hrest config) fun _ => rfl⟩

/-! ## What is served -/

/-- Settings that reach registries in the same way ask the same of them. -/
theorem urlOf_congr (h : s'.plainHosts = s.plainHosts) (path : String) :
    urlOf s' ref path = urlOf s ref path := by
  have hplain : ∀ host, s'.isPlain host = s.isPlain host := fun host => by
    rw [Settings.isPlain, h]
    rfl
  rw [urlOf, Settings.baseUrl, hplain]
  rfl

theorem manifestRequest_congr (h : s'.plainHosts = s.plainHosts) :
    manifestRequest s' ref = manifestRequest s ref := by
  rw [manifestRequest, manifestUrl, urlOf_congr h]
  rfl

theorem blobRequest_congr (h : s'.plainHosts = s.plainHosts) (digest : String)
    (accept : List String) : blobRequest s' ref digest accept = blobRequest s ref digest accept := by
  rw [blobRequest, blobUrl, urlOf_congr h]
  rfl

theorem blobOutcome_congr {α : Type} (h : s'.plainHosts = s.plainHosts) (digest : String)
    (accept : List String) (use : Response → Except Failure α) :
    blobOutcome serve s' ref digest accept use = blobOutcome serve s ref digest accept use := by
  funext n
  rw [blobOutcome, blobRequest_congr h]
  rfl

theorem layersOutcome_congr (h : s'.plainHosts = s.plainHosts) (layers : List Descriptor) :
    layersOutcome decoders serve s' ref policy layers =
      layersOutcome decoders serve s ref policy layers := by
  funext n
  induction layers generalizing n with
  | nil => rfl
  | cons layer layers ih =>
      simp only [layersOutcome, layerOutcome, receiveOutcome, blobOutcome_congr h, ih]

theorem imageOutcome_congr (h : s'.plainHosts = s.plainHosts) :
    imageOutcome decoders serve s' ref policy name m =
      imageOutcome decoders serve s ref policy name m := by
  funext n
  simp only [imageOutcome, configOutcome, blobOutcome_congr h, layersOutcome_congr h]

/-- A service has one content for each layer. -/
theorem ServesLayers.unique {layers : List Descriptor} {contents contents' : List (List UInt8)}
    {d d' : Dialogue} {n : Nat} (hhosts : s'.plainHosts = s.plainHosts)
    (h : ServesLayers decoders s ref layers contents d)
    (h' : ServesLayers decoders s' ref layers contents' d')
    (hd : serve.Answers n d) (hd' : serve.Answers n d') : contents' = contents := by
  induction h generalizing contents' d' n with
  | nil =>
      cases h'
      rfl
  | cons hserved _ ih =>
      cases h' with
      | cons hserved' hparts =>
          obtain ⟨response, rfl, _, _, hc⟩ := hserved
          obtain ⟨response', rfl, _, _, hc'⟩ := hserved'
          obtain ⟨ha, hd⟩ := hd
          obtain ⟨ha', hd'⟩ := hd'
          -- both have asked for the same as the same request of the run
          rw [blobRequest_congr hhosts, ← ha] at ha'
          cases ha'
          rw [ih hparts hd hd', hc.unique hc']

/-- A service has one image for a manifest. -/
theorem ServesImage.unique {config config' : Json.Members} {contents contents' : List (List UInt8)}
    {d d' : Dialogue} {n : Nat} (hhosts : s'.plainHosts = s.plainHosts)
    (h : ServesImage decoders s ref m config contents d)
    (h' : ServesImage decoders s' ref m config' contents' d')
    (hd : serve.Answers n d) (hd' : serve.Answers n d') :
    config' = config ∧ contents' = contents := by
  obtain ⟨descriptor, layers, response, parts, hc, hl, rfl, _, _, hb, hparts⟩ := h
  obtain ⟨descriptor', layers', response', parts', hc', hl', rfl, _, _, hb', hparts'⟩ := h'
  cases hc.symm.trans hc'
  cases hl.symm.trans hl'
  obtain ⟨ha, hd⟩ := hd
  obtain ⟨ha', hd'⟩ := hd'
  rw [blobRequest_congr hhosts, ← ha] at ha'
  cases ha'
  cases hb.symm.trans hb'
  exact ⟨rfl, hparts.unique hhosts hparts' hd hd'⟩

/-! ## What is packed -/

/-- What is packed of an image: each content once, the configuration and the index. -/
def imageTree (created : Timestamp) (contents : List (List UInt8)) (config index : List UInt8) :
    Archive.Tree :=
  ⟨(firsts contents).flatMap (fun content =>
    [⟨[contentName content], .directory, created.epochMicroseconds⟩,
      ⟨[contentName content, Archive.layerFile], .file content, created.epochMicroseconds⟩]) ++
    [⟨[contentName config ++ ".json"], .file config, created.epochMicroseconds⟩,
      ⟨[Archive.indexFile], .file index, 0⟩]⟩

theorem Layout.Holds.tree_eq {l : Layout} {contents : List (List UInt8)} (h : l.Holds contents)
    (hm : l.modified = created.epochMicroseconds) :
    l.tree = imageTree created contents (contentOf l.config) (contentOf l.index) := by
  rw [Layout.tree, imageTree, ← h.order, List.flatMap_map, ← hm]
  rfl

/-- What packing comes to: the result, and the sink after it. -/
def packOutcome (sink : Sink) (exported : Exported) (tree : Archive.Tree) :
    Except Failure Exported × Sink :=
  let written := sink.writeAll (Chunks.slices Archive.Tar.recordSize (Archive.Tar.archive tree))
  (written.1.map fun _ => exported, written.2)

theorem pack_run {tree : Archive.Tree} (exported : Exported) (htree : w.disk.below work = tree)
    (hpack : Archive.Tar.pack? tree = some (Archive.Tar.archive tree)) :
    (do
      packDirectory work
      return exported : Exchange Exported) w =
      ((packOutcome w.sink exported tree).1, { w with sink := (packOutcome w.sink exported tree).2 }) := by
  have hrun := packDirectory_run work w
  rw [htree, hpack] at hrun
  dsimp only at hrun
  rw [forM_write] at hrun
  unfold packOutcome
  generalize w.sink.writeAll (Chunks.slices Archive.Tar.recordSize (Archive.Tar.archive tree)) =
    written at hrun ⊢
  obtain ⟨_ | _, sink⟩ := written
  · exact bind_error hrun
  · exact bind_run hrun

/-- The machine lets an export work: it refuses no change of its disk, and it has a name left for a
directory to work in. -/
structure LetsWork (w : World) : Prop where
  writable : w.IsWritable
  name : ∃ n < nameAttempts,
    w.disk.has (w.temporary ++ [workBeginning ++ w.names (w.named + n)]) = false

theorem lasting_letsWork : Lasting LetsWork := by
  intro w w' hu hw
  refine ⟨lasting_writable hu hw.writable, ?_⟩
  rw [hu.disk, hu.temporary, hu.names, hu.named]
  exact hw.name

/-- **What is staged is decided by the answers**, and where it is written to. -/
theorem stageImage_outcome {listens : Bool} {r : Except Failure Exported}
    (hserve : ServesStorable decoders serve) (hw : LetsWork w)
    (h : stageImage decoders s policy ref name m listens w = (r, w')) :
    ∃ d, Talk w d w' ∧ ∀ n, serve.Answers n d →
      (∃ e, imageOutcome decoders serve s ref policy name m n = .error e ∧ r = .error e ∧
        w'.sink = w.sink) ∨
      ∃ exported config contents bytes,
        imageOutcome decoders serve s ref policy name m n = .ok exported ∧
        ServesImage decoders s ref m config contents d ∧
        ImageConfig.bytes (ImageConfig.withDiffIds config exported.diffIds) = .ok bytes ∧
        (r, w'.sink) = packOutcome w.sink exported (imageTree (ImageConfig.created config) contents
          bytes (Archive.indexBytes [exported.entry])) := by
  obtain ⟨work, w₁, w₂, hp, hw₁, hfree, hmade, hx, rfl⟩ :=
    withWorkDirectory_writable hw.writable hw.name h
  have hempty : ∀ name, w₁.disk.has (work ++ [name]) = false := by
    intro name
    rw [hmade, Disk.has_makeDirectory]
    exact Disk.has_of_prefix (List.prefix_append _ _) hfree
  have hdecided : ∀ {r : Except Failure Exported} {w₃ : World} {d : Dialogue} {n : Nat},
      layOutImage decoders s policy ref name m listens work w₁ = (r, w₃) → Talk w₁ d w₃ →
        serve.Answers n d → r = imageOutcome decoders serve s ref policy name m n := by
    intro r w₃ d n hlay ht hd
    obtain ⟨_, hlaid⟩ := decided_layOutImage hserve hempty
    exact (hlaid.result ⟨hw₁, rfl⟩ hlay ht hd).1
  rcases bind_cases hx with ⟨exported, w₃, hlay, hpack⟩ | ⟨e, hlay, rfl⟩
  · -- the names of directories are gone from what is packed, and the order is that of the contents
    obtain ⟨d, config, contents, l, ht, hd, hholds, hmodified, hbytes, hindex, _, hbelow⟩ :=
      layOutImage_below hfree hmade hlay
    have hsink : w₃.sink = w.sink :=
      ((keeps_layOutImage inside_staging.downloading).rel hlay).1.trans hp.sink
    have htree : l.tree = imageTree (ImageConfig.created config) contents (contentOf l.config)
        (Archive.indexBytes [exported.entry]) := by
      rw [hholds.tree_eq hmodified, hindex]
    rw [pack_run exported hbelow l.pack_tree, hsink, htree] at hpack
    obtain ⟨rfl, rfl⟩ := Prod.mk.inj hpack
    refine ⟨d, (hp.talk.trans ht).before (.of_eq rfl rfl rfl), fun n hanswers => .inr
      ⟨exported, config, contents, contentOf l.config, (hdecided hlay ht hanswers).symm, hd, hbytes,
        rfl⟩⟩
  · obtain ⟨d, ht⟩ := (keeps_layOutImage talks_staging.downloading).rel hlay
    have hsink : w₂.sink = w.sink :=
      ((keeps_layOutImage inside_staging.downloading).rel hlay).1.trans hp.sink
    exact ⟨d, (hp.talk.trans ht).before (.of_eq rfl rfl rfl), fun n hanswers => .inl
      ⟨e, (hdecided hlay ht hanswers).symm, rfl, hsink⟩⟩

/-! ## Two exports -/

/-- Two runs of the staging that are served the same. -/
theorem stageImage_same {listens : Bool} {r r' : Except Failure Exported} {v v' : World}
    {d d' : Dialogue} {n : Nat} (hhosts : s'.plainHosts = s.plainHosts)
    (hserve : ServesStorable decoders serve) (hw : LetsWork w) (hv : LetsWork v)
    (hsink : v.sink = w.sink)
    (h : stageImage decoders s policy ref name m listens w = (r, w')) (ht : Talk w d w')
    (hd : serve.Answers n d)
    (h' : stageImage decoders s' policy ref name m listens v = (r', v')) (ht' : Talk v d' v')
    (hd' : serve.Answers n d') : r' = r ∧ v'.sink = w'.sink := by
  -- both come to the outcome of the service, which knows neither of the two machines
  obtain ⟨d₁, ht₁, ho⟩ := stageImage_outcome hserve hw h
  obtain ⟨d₂, ht₂, ho'⟩ := stageImage_outcome hserve hv h'
  rw [← ht₁.dialogue_eq, ht.dialogue_eq] at ho
  rw [← ht₂.dialogue_eq, ht'.dialogue_eq] at ho'
  rw [imageOutcome_congr hhosts] at ho'
  rcases ho n hd with ⟨e, he, hr, hs⟩ | ⟨exported, config, contents, bytes, hok, himage, hb, hr⟩
  · rcases ho' n hd' with ⟨e', he', hr', hs'⟩ | ⟨_, _, _, _, hok', _⟩
    · cases he.symm.trans he'
      exact ⟨hr'.trans hr.symm, hs'.trans (hsink.trans hs.symm)⟩
    · exact absurd (he.symm.trans hok') nofun
  · rcases ho' n hd' with ⟨e', he', _⟩ | ⟨exported', config', contents', bytes', hok', himage', hb', hr'⟩
    · exact absurd (hok.symm.trans he') nofun
    · cases hok.symm.trans hok'
      obtain ⟨rfl, rfl⟩ := himage.unique hhosts himage' hd hd'
      cases hb.symm.trans hb'
      rw [hsink, ← hr] at hr'
      exact Prod.mk.inj hr'

/-- A run of an export of an image with a name: without a manifest it ends, and otherwise it comes to
what it stages. -/
theorem exportImage_served {policy : Option IntegrityPolicy} {listens : Bool}
    {r : Except Failure Exported} (hserve : ServesStorable decoders serve) (hw : LetsWork w)
    (hname : ref.commonName = some name) (h : exportImage decoders s policy ref listens w = (r, w'))
    (hd : serve.Answers 0 (w.dialogue w')) :
    (∃ e, manifestOutcome ref (serve 0 (manifestRequest s ref)) = .error e ∧ r = .error e ∧
      w'.sink = w.sink) ∨
    ∃ m w₁ w₂ r' d, manifestOutcome ref (serve 0 (manifestRequest s ref)) = .ok m ∧
      Untouched w w₁ ∧
      stageImage decoders s (policy.getD s.verify) ref name m listens w₁ = (r', w₂) ∧
      Talk w₁ d w₂ ∧ serve.Answers 1 d ∧ w'.sink = w₂.sink ∧
      r = r'.mapError (archiveFailure ref) := by
  rcases exportImage_outcome h with ⟨hnone, _⟩ | ⟨name', a, w₁, hname', hs₁, hu₁, hm⟩
  · exact absurd (hname.symm.trans hnone) nofun
  cases hname.symm.trans hname'
  rcases hm with ⟨e, he, hr, rfl⟩ | ⟨m, w₂, r', hm, hstage, hs₂, hu₂, hr⟩
  · rw [hs₁.talk.dialogue_eq, Service.answers_singleton] at hd
    rw [← hd]
    exact .inl ⟨e, he, hr, hu₁.sink⟩
  · obtain ⟨d, ht, _⟩ := stageImage_outcome hserve (lasting_letsWork hu₁ hw) hstage
    rw [((hs₁.talk.trans ht).before hs₂.talk).dialogue_eq] at hd
    obtain ⟨ha, hd⟩ := hd
    rw [← ha]
    exact .inr ⟨m, w₁, w₂, r', d, hm, hu₁, hstage, ht, hd, hu₂.sink, hr⟩

/-- What is heard in an export is what the script of its world serves. -/
theorem exportImage_answers {policy : Option IntegrityPolicy} {listens : Bool}
    (hserve : ServesStorable decoders serve) (hw : LetsWork w) :
    w.service.Answers 0 (w.dialogue (exportImage decoders s policy ref listens w).2) := by
  have htalk : ∃ d, Talk w d (exportImage decoders s policy ref listens w).2 := by
    rcases hrun : exportImage decoders s policy ref listens w with ⟨r, w'⟩
    rcases exportImage_outcome hrun with ⟨_, _, rfl⟩ | ⟨_, a, w₁, _, hs₁, hu₁, hm⟩
    · exact ⟨[], .refl w'⟩
    rcases hm with ⟨_, _, _, rfl⟩ | ⟨m, w₂, _, _, hstage, hs₂, _, _⟩
    · exact ⟨_, hs₁.talk⟩
    · obtain ⟨d, ht, _⟩ := stageImage_outcome hserve (lasting_letsWork hu₁ hw) hstage
      exact ⟨_, (hs₁.talk.trans ht).before hs₂.talk⟩
  obtain ⟨d, ht⟩ := htalk
  rw [ht.dialogue_eq]
  exact World.service_answers ht

/-- **An export is reproducible.** Two runs that are served the same and write to the same sink come
to the same: they give the same value and have written the same bytes, or they fail in the same way.
They may read bodies in pieces of other sizes, wait for another time, and work in directories of
other names on other machines. -/
theorem exportImage_sameOutcome (decoders : Compression.Decoders) (serve : Service)
    (s s' : Settings) (policy : Option IntegrityPolicy) (ref : Reference) (listens : Bool)
    (w v : World) (hhosts : s'.plainHosts = s.plainHosts) (hverify : s'.verify = s.verify)
    (hserve : ServesStorable decoders serve) (hw : LetsWork w) (hv : LetsWork v)
    (hsink : v.sink = w.sink) :
    let run := exportImage decoders s policy ref listens w
    let run' := exportImage decoders s' policy ref listens v
    serve.Answers 0 (w.dialogue run.2) → serve.Answers 0 (v.dialogue run'.2) →
      run'.1 = run.1 ∧ run'.2.sink = run.2.sink := by
  intro run run' hd hd'
  have hrun : exportImage decoders s policy ref listens w = (run.1, run.2) := rfl
  have hrun' : exportImage decoders s' policy ref listens v = (run'.1, run'.2) := rfl
  cases hname : ref.commonName with
  | none =>
      rcases exportImage_outcome hrun with ⟨_, hr, hw'⟩ | ⟨_, _, _, hsome, _⟩
      · rcases exportImage_outcome hrun' with ⟨_, hr', hv'⟩ | ⟨_, _, _, hsome, _⟩
        · exact ⟨hr'.trans hr.symm, by rw [hv', hw', hsink]⟩
        · exact absurd (hsome.symm.trans hname) nofun
      · exact absurd (hsome.symm.trans hname) nofun
  | some name =>
      have hfirst := exportImage_served hserve hw hname hrun hd
      have hsecond := exportImage_served hserve hv hname hrun' hd'
      rw [manifestRequest_congr hhosts] at hsecond
      rw [hverify] at hsecond
      rcases hfirst with ⟨e, he, hr, hs⟩ | ⟨m, w₁, w₂, r, d, hm, hu, hstage, ht, hd, hs, hr⟩
      · rcases hsecond with ⟨e', he', hr', hs'⟩ | ⟨_, _, _, _, _, hm', _⟩
        · cases he.symm.trans he'
          exact ⟨hr'.trans hr.symm, by rw [hs', hs, hsink]⟩
        · exact absurd (he.symm.trans hm') nofun
      · rcases hsecond with ⟨e', he', _⟩ | ⟨m', v₁, v₂, r', d', hm', hu', hstage', ht', hd', hs', hr'⟩
        · exact absurd (hm.symm.trans he') nofun
        · cases hm.symm.trans hm'
          obtain ⟨rfl, hsame⟩ := stageImage_same hhosts hserve (lasting_letsWork hu hw)
            (lasting_letsWork hu' hv) (by rw [hu.sink, hu'.sink, hsink]) hstage ht hd hstage' ht' hd'
          exact ⟨hr'.trans hr.symm, by rw [hs', hs, hsame]⟩

/-- A world on an empty machine, in which these are the responses. -/
abbrev worldOf (responses : List Response) (names : Nat → String) : World :=
  .start (responses.map .response) ⟨.connection, ""⟩ .unlimited names

theorem letsWork_worldOf (responses : List Response) (names : Nat → String) :
    LetsWork (worldOf responses names) := ⟨fun _ => rfl, 0, by decide, rfl⟩

theorem servesStorable_worldOf {responses : List Response} {names : Nat → String}
    (hplain : ∀ response ∈ responses,
      Compression.detect (response.body.take Compression.magicLength) = .identity ∧
        response.body.length ≤ Disk.fileLimit) :
    ServesStorable decoders (worldOf responses names).service := by
  intro n q response hanswer
  have hmem : response ∈ responses := by
    unfold World.service at hanswer
    cases hget : (worldOf responses names).answers[n]? with
    | none =>
        rw [hget] at hanswer
        exact absurd hanswer nofun
    | some a =>
        rw [hget] at hanswer
        obtain ⟨other, hother, ha⟩ := List.mem_map.1 (List.mem_of_getElem? hget)
        cases ha.trans hanswer
        exact hother
  exact storable_of_plain (hplain response hmem).1 (hplain response hmem).2

/-- The manifest of an image of one layer. -/
def smallManifest : String :=
  "\x7b\"schemaVersion\": 2, \"config\": \x7b\"digest\": \"sha256:0a\"\x7d, " ++
    "\"layers\": [\x7b\"digest\": \"sha256:0b\"\x7d]\x7d"

/-- What a registry answers that has the image. -/
def smallImage : List Response :=
  [smallManifest, "\x7b\x7d", "layer"].map fun body =>
    ⟨200, [], Archive.Tar.asciiBytes body, none⟩

/-- A world in which it is exported, on an empty machine. -/
def smallWorld (names : Nat → String) : World :=
  .start (smallImage.map .response) ⟨.connection, ""⟩ .unlimited names

theorem letsWork_smallWorld (names : Nat → String) : LetsWork (smallWorld names) :=
  letsWork_worldOf _ _

theorem servesStorable_smallWorld (names : Nat → String) :
    ServesStorable decoders (smallWorld names).service := servesStorable_worldOf (by decide)

/-- An image is exported in the same way byte by byte and at once. -/
theorem exportImage_sameOutcome_small :
    let s : Settings := ⟨300, 1, 65536, [], .warn, by decide, by decide, by decide⟩
    let s' : Settings := ⟨7, 1, 1, [], .warn, by decide, by decide, by decide⟩
    let ref : Reference := ⟨"registry.example", "image", some "tag", none⟩
    let run := exportImage Compression.decoder s none ref true (smallWorld fun _ => "a")
    let run' := exportImage Compression.decoder s' none ref true (smallWorld fun _ => "b")
    run'.1 = run.1 ∧ run'.2.sink = run.2.sink := by
  intro s s' ref run run'
  have hstorable : ServesStorable Compression.decoder (smallWorld fun _ => "a").service :=
    servesStorable_smallWorld _
  have hfirst := letsWork_smallWorld fun _ => "a"
  have hsecond := letsWork_smallWorld fun _ => "b"
  exact exportImage_sameOutcome _ (smallWorld fun _ => "a").service s s' none ref true _ _ rfl rfl
    hstorable hfirst hsecond rfl (exportImage_answers hstorable hfirst)
    (exportImage_answers (w := smallWorld fun _ => "b") hstorable hsecond)

end ImageTransfer.Transfer
