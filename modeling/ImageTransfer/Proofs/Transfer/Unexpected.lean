import ImageTransfer.Proofs.Transfer.Failures
import ImageTransfer.Proofs.Transfer.ImageExport
import ImageTransfer.Proofs.Transfer.OpenResponses

/-!
# Documents that nobody expects

An operation that reads documents may be served one that it has no failure for: a manifest or a
configuration with too many brackets, or a manifest with a size that is infinite. `Unexpected` says
that this is so, and it can be seen in what was said and heard.

The failures that are foreseen are a matter of kinds alone, and most parts of an operation have no
others (`Covers`). `Blames` joins the two: what a program fails with is accounted for by the dialogue
it had. A program accounts for its failures if its parts do, so the documents have to be looked at
only where they are read.
-/

namespace ImageTransfer.Transfer

open Exchange Registry

/-- A document was served that ends in a failure of this kind. -/
inductive Unexpected (s : Settings) (ref : Reference) (d : Dialogue) : FailureKind → Prop
  | manifest {response : Response} : (manifestRequest s ref, .response response) ∈ d →
      ExceedsLimit response.body .nesting → Unexpected s ref d .nesting
  | config {digest : String} {response : Response} :
      (blobRequest s ref digest configMediaTypes, .response response) ∈ d →
        ExceedsLimit response.body .nesting → Unexpected s ref d .nesting
  | size {a : Answer} {m : Manifest} : (manifestRequest s ref, a) ∈ d → a.Serves m →
      m.ConfigIsBoundless ∨ m.LayerIsBoundless → Unexpected s ref d .range

/-- A kind that is foreseen, or a document that is not. -/
def Foreseen (K : FailureKind → Prop) (s : Settings) (ref : Reference) (d : Dialogue)
    (kind : FailureKind) : Prop := K kind ∨ Unexpected s ref d kind

/-- Every failure of the program is accounted for by what was said and heard after `before`. -/
def Blames (K : FailureKind → Prop) (s : Settings) (ref : Reference) (before : Dialogue)
    {α : Type} (x : Exchange α) : Prop :=
  ∀ (w w' : World) (r : Except Failure α), x w = (r, w') →
    ∃ d, Talk w d w' ∧ ∀ e, r = .error e → Foreseen K s ref (before ++ d) e.kind

variable {decoders : Compression.Decoders} {α β : Type} {K : FailureKind → Prop} {s : Settings}
  {ref source target : Reference} {policy : IntegrityPolicy} {work : Archive.Path}
  {before before' d d' : Dialogue} {kind : FailureKind} {a : Answer} {m : Manifest} {x : Exchange α}

theorem Unexpected.mono (h : Unexpected s ref d kind) (hsub : d ⊆ d') :
    Unexpected s ref d' kind := by
  cases h with
  | manifest hmem hlimit => exact .manifest (hsub hmem) hlimit
  | config hmem hlimit => exact .config (hsub hmem) hlimit
  | size hmem hserves hsize => exact .size (hsub hmem) hserves hsize

theorem Foreseen.mono (h : Foreseen K s ref d kind) (hsub : d ⊆ d') : Foreseen K s ref d' kind :=
  h.imp id fun hdocument => hdocument.mono hsub

/-! ## Programs that are put together -/

theorem Blames.mono (hx : Blames K s ref before x) (hsub : before ⊆ before') :
    Blames K s ref before' x := by
  intro w w' r h
  obtain ⟨d, ht, hblamed⟩ := hx w w' r h
  refine ⟨d, ht, fun e he => (hblamed e he).mono ?_⟩
  exact List.append_subset.2
    ⟨fun p hp => List.mem_append_left d (hsub hp), List.subset_append_right before' d⟩

/-- What follows a program has been told what was said and heard in it. -/
theorem blames_bind_told {f : α → Exchange β} (P : α → Dialogue → Prop) (hx : Blames K s ref before x)
    (htold : ∀ {w w' a}, x w = (.ok a, w') → ∃ d, Talk w d w' ∧ P a d)
    (hf : ∀ a d, P a d → Blames K s ref (before ++ d) (f a)) : Blames K s ref before (x >>= f) := by
  intro w w' r h
  rcases bind_cases h with ⟨a, w₁, hfirst, hnext⟩ | ⟨e, hfirst, rfl⟩
  · obtain ⟨d₁, ht₁, hP⟩ := htold hfirst
    obtain ⟨d₂, ht₂, hblamed⟩ := hf a d₁ hP _ _ _ hnext
    rw [List.append_assoc] at hblamed
    exact ⟨d₁ ++ d₂, ht₁.trans ht₂, hblamed⟩
  · obtain ⟨d, ht, hblamed⟩ := hx _ _ _ hfirst
    refine ⟨d, ht, fun e' he => ?_⟩
    cases he
    exact hblamed e rfl

theorem blames_bind {f : α → Exchange β} (hx : Blames K s ref before x)
    (hf : ∀ a, Blames K s ref before (f a)) : Blames K s ref before (x >>= f) := by
  refine blames_bind_told (fun _ _ => True) hx (fun h => ?_) fun a d _ =>
    (hf a).mono (List.subset_append_left before d)
  obtain ⟨d, ht, -⟩ := hx _ _ _ h
  exact ⟨d, ht, trivial⟩

/-- What happens outside of a program without a word adds no failure. -/
theorem blames_of_silent {y : Exchange α} (hx : Blames K s ref before x)
    (hy : ∀ {w w' r}, y w = (r, w') → (∃ e, r = .error e ∧ K e.kind ∧ Talk w [] w') ∨
      ∃ w₁ w₂, Talk w [] w₁ ∧ x w₁ = (r, w₂) ∧ Talk w₂ [] w') : Blames K s ref before y := by
  intro w w' r h
  rcases hy h with ⟨e, rfl, hkind, ht⟩ | ⟨w₁, w₂, ht₁, hrun, ht₂⟩
  · refine ⟨[], ht, fun e' he => .inl ?_⟩
    cases he
    exact hkind
  · obtain ⟨d, ht, hblamed⟩ := hx _ _ _ hrun
    exact ⟨d, (ht₁.after ht).before ht₂, hblamed⟩

theorem blames_warnOnFailure {origin : LogSource} {message : String → String}
    (hx : Blames K s ref before x) : Blames K s ref before (warnOnFailure origin message x) := by
  refine blames_of_silent hx fun {w w' r} h => .inr ?_
  obtain ⟨w₁, hrun, ht, -⟩ := warnOnFailure_talk h
  exact ⟨w, w₁, .refl w, hrun, ht⟩

/-- A program with foreseen failures alone. -/
theorem blames_of_failsIn (hx : FailsIn K x) (ht : Keeps talks x) : Blames K s ref before x := by
  intro w w' r h
  obtain ⟨d, htalk⟩ := ht.rel h
  refine ⟨d, htalk, fun e he => .inl ?_⟩
  cases he
  exact hx w w' e h

theorem blames_ofExcept {ε : Type} {v : Except ε α} {failure : ε → Failure}
    (hv : ∀ e, v = .error e → Foreseen K s ref before (failure e).kind) :
    Blames K s ref before (ofExcept v failure) := by
  intro w w' r h
  obtain ⟨rfl, ⟨_, -, rfl⟩ | ⟨e, hfailed, rfl⟩⟩ := ofExcept_cases h
  · exact ⟨[], .refl _, nofun⟩
  · refine ⟨[], .refl _, fun e' he => ?_⟩
    cases he
    rw [List.append_nil]
    exact hv e hfailed

/-! ## Where documents are read -/

section

variable (hK : Covers K)

include hK

/-- A document is refused as what it is, or for a limit that it exceeds, and one of the limits is
foreseen. -/
theorem foreseen_document {bytes : List UInt8} {malformed : FailureKind}
    (hmalformed : malformed.isRegistry = true) (h : kind = malformed ∨ ExceedsLimit bytes kind)
    (hdeep : ExceedsLimit bytes .nesting → Unexpected s ref d .nesting) : Foreseen K s ref d kind := by
  rcases h with rfl | hlimit
  · exact .inl (hK.registry hmalformed)
  · cases hlimit with
    | nesting hdecode hlimit => exact .inr (hdeep (.nesting hdecode hlimit))
    | digits => exact .inl hK.argument

/-- A manifest that does not come of an answer: the answer accounts for that. -/
theorem manifestOutcome_error {e : Failure} (h : manifestOutcome ref a = .error e) :
    Foreseen K s ref [(manifestRequest s ref, a)] e.kind := by
  have hexplain : ∀ reason, K (Failure.manifestFetch ref.text reason).kind :=
    fun _ => hK.registry rfl
  cases a with
  | fault f =>
      cases h
      exact .inl (kind_failure hK.system hexplain f)
  | response response =>
      rcases bind_eq_error.1 h with hserved | ⟨⟨raw, mediaType⟩, hserved, hread⟩
      · rcases bind_eq_error.1 hserved with hstatus | ⟨_, -, hbody⟩
        · exact .inl (hK.of_checkStatus rfl hstatus)
        · rcases bind_eq_error.1 hbody with hbroken | ⟨_, -, hpure⟩
          · exact .inl (hK.of_wholeBody hexplain hbroken)
          · cases hpure
      · obtain ⟨-, hbody⟩ := expect_bind_ok.1 hserved
        obtain ⟨_, hwhole, hpure⟩ := bind_eq_ok.1 hbody
        obtain ⟨-, rfl⟩ := wholeBody_eq_ok.1 hwhole
        cases hpure
        obtain ⟨refused, hrefused, rfl⟩ := mapError_eq_error.1 hread
        exact foreseen_document hK rfl (Manifest.kind_of_ofBytes hrefused) fun hdeep =>
          .manifest (List.mem_singleton.2 rfl) hdeep

/-- What follows a manifest has been told which one was served. -/
theorem blames_manifest_bind {y : Exchange Manifest} {f : Manifest → Exchange β}
    (hy : ∀ {w w' r}, y w = (r, w') →
      ∃ a, Talk w [(manifestRequest s ref, a)] w' ∧ r = manifestOutcome ref a)
    (hf : ∀ a m, a.Serves m → Blames K s ref [(manifestRequest s ref, a)] (f m)) :
    Blames K s ref [] (y >>= f) := by
  have hget : Blames K s ref [] y := by
    intro w w' r h
    obtain ⟨a, ht, rfl⟩ := hy h
    exact ⟨_, ht, fun e he => manifestOutcome_error hK he⟩
  refine blames_bind_told (fun m d => ∃ a, d = [(manifestRequest s ref, a)] ∧ a.Serves m) hget
    (fun h => ?_) ?_
  · obtain ⟨a, ht, hm⟩ := hy h
    exact ⟨_, ht, a, rfl, manifestOutcome_eq_ok.1 hm.symm⟩
  · rintro m _ ⟨a, rfl, hserves⟩
    exact hf a m hserves

/-- A descriptor that a manifest does not have is refused as a part of it, or has no size. -/
theorem foreseen_descriptor {e : Manifest.Error} (hserves : a.Serves m)
    (h : (Failure.manifest e).kind = .manifest ∨
      e = .boundlessSize ∧ (m.ConfigIsBoundless ∨ m.LayerIsBoundless)) :
    Foreseen K s ref [(manifestRequest s ref, a)] (Failure.manifest e).kind := by
  rcases h with hkind | ⟨rfl, hsize⟩
  · rw [hkind]
    exact .inl (hK.registry rfl)
  · exact .inr (.size (List.mem_singleton.2 rfl) hserves hsize)

theorem blames_config (hserves : a.Serves m) :
    Blames K s ref [(manifestRequest s ref, a)] (ofExcept m.config .manifest) :=
  blames_ofExcept fun _ he => foreseen_descriptor hK hserves
    ((Manifest.config_error he).imp id fun ⟨hsize, hb⟩ => ⟨hsize, .inl hb⟩)

theorem blames_layers (hserves : a.Serves m) :
    Blames K s ref [(manifestRequest s ref, a)] (ofExcept m.layers .manifest) :=
  blames_ofExcept fun _ he => foreseen_descriptor hK hserves
    ((Manifest.layers_error he).imp id fun ⟨hsize, hb⟩ => ⟨hsize, .inr hb⟩)

/-- A configuration that is fetched: if it is not one that the blob holds, the blob says why. -/
theorem blames_fetchConfig (hserves : a.Serves m) :
    Blames K s ref [(manifestRequest s ref, a)] (fetchConfig s policy ref m) := by
  refine blames_bind (blames_config hK hserves) fun descriptor => ?_
  have hread : Blames K s ref [(manifestRequest s ref, a)]
      (readBlob s ref descriptor.digest configMediaTypes) :=
    blames_of_failsIn hK.failsIn_readBlob (keeps_readBlob talks_online.serving)
  refine blames_bind_told (fun bytes d => ∃ response, response.body = bytes ∧
      d = [(blobRequest s ref descriptor.digest configMediaTypes, .response response)])
    (blames_warnOnFailure hread) (fun h => ?_) ?_
  · obtain ⟨w₁, hblob, ht₁, -⟩ := warnOnFailure_talk h
    obtain ⟨response, ht, -, -, -, hbody⟩ := readBlob_ok hblob
    exact ⟨_, ht.before ht₁, response, hbody, rfl⟩
  · rintro _ _ ⟨response, rfl, rfl⟩
    -- of what follows only the last step looks into the blob
    refine blames_bind (blames_of_failsIn (hK.failsIn_algorithmOf _) (keeps_ofExcept _ _)) fun _ =>
      blames_bind (blames_of_failsIn (hK.failsIn_checkDigest _ _ _) fun w =>
        ⟨[], keeps_checkDigest silent_heedless _ _ _ w⟩) fun _ =>
      blames_ofExcept fun refused hrefused => ?_
    exact foreseen_document hK rfl (ImageConfig.kind_of_ofBytes hrefused) fun hdeep =>
      .config (List.mem_append_right _ (List.mem_singleton.2 rfl)) hdeep

/-! ## Whole operations -/

theorem blames_layOutImage {name : String} {listens : Bool} (hserves : a.Serves m) :
    Blames K s ref [(manifestRequest s ref, a)]
      (layOutImage decoders s policy ref name m listens work) := by
  have hdownloading : talks.Downloading talks work := talks_staging.downloading
  refine blames_bind (blames_fetchConfig hK hserves) fun config =>
    blames_bind (blames_layers hK hserves) fun layers => blames_bind ?_ fun diffIds => ?_
  · exact blames_of_failsIn (hK.failsIn_stageLayers layers 1) (keeps_stageLayers hdownloading layers 1)
  · exact blames_of_failsIn hK.failsIn_layOutIndex (keeps_layOutIndex talks_storing)

/-- **What an image is staged with** accounts for its failures. What was laid out is packed unless the
machine fails, since the walk gets to all of it. -/
theorem blames_stageImage {name : String} {listens : Bool} (hserves : a.Serves m) :
    Blames K s ref [(manifestRequest s ref, a)]
      (stageImage decoders s policy ref name m listens) := by
  intro w w' r h
  rcases withWorkDirectory_cases h with ⟨hp, -, reason, rfl⟩ | ⟨work, w₁, w₂, hp, hfree, hmade, hx, rfl⟩
  · refine ⟨[], hp.talk, fun e he => .inl ?_⟩
    cases he
    exact hK.system
  have hgone : Talk w₂ [] { w₂ with disk := w₂.disk.remove work } := .of_eq rfl rfl rfl
  rcases bind_cases hx with ⟨exported, w₃, hlay, hpack⟩ | ⟨e, hlay, rfl⟩
  · obtain ⟨d, -, -, l, ht, -, -, -, -, -, -, htree⟩ := layOutImage_below hfree hmade hlay
    have hwalk : Archive.Tar.pack? (w₃.disk.below work) = some (Archive.Tar.archive l.tree) := by
      rw [htree, l.pack_tree]
    rcases bind_cases hpack with ⟨_, w₄, hwrite, hlast⟩ | ⟨e, hwrite, rfl⟩
    · obtain ⟨rfl, rfl⟩ := pure_inv hlast
      obtain ⟨hnone, -, -⟩ | ⟨_, -, hw, -⟩ := packDirectory_cases hwrite
      · cases hnone.symm.trans hwalk
      · exact ⟨d, ((hp.talk.trans ht).before hw.talk).before hgone, nofun⟩
    · obtain ⟨hnone, -, -⟩ | ⟨_, -, hw, ⟨hok, -⟩ | ⟨e', he, hsystem, -⟩⟩ := packDirectory_cases hwrite
      · cases hnone.symm.trans hwalk
      · cases hok
      · refine ⟨d, ((hp.talk.trans ht).before hw.talk).before hgone, fun failure hfailure => .inl ?_⟩
        cases he
        cases hfailure
        rw [hsystem]
        exact hK.system
  · obtain ⟨d, ht, hblamed⟩ := blames_layOutImage hK hserves _ _ _ hlay
    exact ⟨d, (hp.talk.trans ht).before hgone, hblamed⟩

/-- **What an export fails with** is foreseen, or it comes of a document. -/
theorem blames_exportImage {policy : Option IntegrityPolicy} {listens : Bool} :
    Blames K s ref [] (exportImage decoders s policy ref listens) := by
  unfold exportImage
  split
  · refine blames_manifest_bind hK (fun h => ?_) fun a m hserves => ?_
    · obtain ⟨a, ht, -, hm⟩ := getManifest_outcome_warned h
      exact ⟨a, ht.talk, hm⟩
    refine blames_bind ?_ fun exported => blames_of_failsIn
      (failsIn_bind (failsIn_log _ _ _) fun _ => failsIn_pure _)
      (keeps_bind (talks_online.calm.keeps_log (by decide) _ _) fun _ => keeps_pure _)
    -- a failure of the machine gets a name of its own here
    intro w w' r h
    rcases mapFailure_cases h with ⟨exported, hstage, rfl⟩ | ⟨e, hstage, rfl⟩
    · obtain ⟨d, ht, -⟩ := blames_stageImage hK hserves _ _ _ hstage
      exact ⟨d, ht, nofun⟩
    · obtain ⟨d, ht, hblamed⟩ := blames_stageImage hK hserves _ _ _ hstage
      refine ⟨d, ht, fun e' he => ?_⟩
      cases he
      rcases kind_archiveFailure ref e with hkind | ⟨hsame, -⟩
      · rw [hkind]
        exact .inl (hK.registry rfl)
      · rw [hsame]
        exact hblamed e rfl
  · exact blames_of_failsIn (failsIn_throw (hK.registry rfl)) (keeps_throw _)

/-- So is what an inspection fails with, -/
theorem blames_inspectImage {policy : Option IntegrityPolicy} :
    Blames K s ref [] (inspectImage s policy ref) := by
  refine blames_manifest_bind hK (fun h => ?_) fun a m hserves => blames_fetchConfig hK hserves
  obtain ⟨a, ht, -, hm⟩ := getManifest_outcome h
  exact ⟨a, ht, hm⟩

/-- and what a copy fails with: blobs are copied without a look at them. -/
theorem blames_copyImage {listens : Bool} :
    Blames K s source [] (copyImage s source target listens) := by
  refine blames_manifest_bind hK (fun h => ?_) fun a m hserves => ?_
  · obtain ⟨a, ht, -, hm⟩ := getManifest_outcome_warned h
    exact ⟨a, ht.talk, hm⟩
  refine blames_bind (blames_config hK hserves) fun config =>
    blames_bind (blames_layers hK hserves) fun layers => blames_of_failsIn ?_ ?_
  · refine failsIn_bind (hK.failsIn_copyParts config layers) fun _ => ?_
    exact failsIn_bind (failsIn_warnOnFailure (hK.failsIn_putManifest m)) fun _ =>
      failsIn_bind (failsIn_log _ _ _) fun _ => failsIn_pure _
  · have hF : talks.Serving talks := talks_online.serving
    refine keeps_bind (keeps_bind (keeps_copyPart hF hF _ _ _) fun _ =>
      keeps_copyLayers hF hF layers 2) fun _ => ?_
    exact keeps_bind (hF.keeps_warnOnFailure (by decide) _ (keeps_putManifest hF m)) fun _ =>
      keeps_bind (hF.keeps_log (by decide) _ _) fun _ => keeps_pure _

end

end ImageTransfer.Transfer
