import ImageTransfer.Proofs.Registry.UploadReports
import ImageTransfer.Proofs.Transfer.ImageCopy
import ImageTransfer.Proofs.Transfer.Staging

/-!
# Progress of copies and exports

An image is copied and exported in parts, one for each blob, and whoever listens hears of each part
when it is done: so many of so many. `Progress` is a run through parts that stops where one fails. In
it a report stands between the end of a part and the beginning of the next one, and nowhere else, so
that the reports count the parts that were done (`Progress.reports`).
-/

namespace ImageTransfer.Transfer

open Exchange Registry

variable {decoders : Compression.Decoders} {s : Settings} {source target ref : Reference}
  {policy : IntegrityPolicy} {work : Archive.Path} {created : Timestamp} {w w' : World}

section

variable {δ α β : Type} {part : δ → Exchange α} {total : Int}

/-- A run through parts of which `n` were done before: `k` are done, each of which is reported at once,
and then there are no more, or one fails. In between nothing is said and nothing is reported. -/
inductive Progress (part : δ → Exchange α) (total : Int) :
    Nat → List δ → World → Nat → Except Failure Unit → World → Prop
  | done {n : Nat} {w w' : World} : Speech w [] w' → Progress part total n [] w 0 (.ok ()) w'
  | completed {n k : Nat} {x : δ} {xs : List δ} {a : α} {d : Dialogue} {message : String}
      {w w₁ w₂ w₃ w' : World} {r : Except Failure Unit} : Speech w [] w₁ → part x w₁ = (.ok a, w₂) →
        Speech w₁ d w₂ → Speech w₂ [] w₃ →
        Progress part total (n + 1) xs (w₃.note (.progressed (n + 1 : Nat) total message)) k r w' →
        Progress part total n (x :: xs) w (k + 1) r w'
  | failed {n : Nat} {x : δ} {xs : List δ} {e : Failure} {d : Dialogue} {w w₁ w₂ w' : World} :
      Speech w [] w₁ → part x w₁ = (.error e, w₂) → Speech w₁ d w₂ → Speech w₂ [] w' →
        Progress part total n (x :: xs) w 0 (.error e) w'

/-- **The reports count the parts that were done**, and these are all parts if none failed. -/
theorem Progress.reports {n k : Nat} {xs : List δ} {r : Except Failure Unit}
    (h : Progress part total n xs w k r w') :
    Shows Event.report? w ((List.range' (n + 1) k).map fun i : Nat => ((i : Int), total)) w' ∧
      k ≤ xs.length ∧ (r = .ok () → k = xs.length) := by
  induction h with
  | done hs => exact ⟨hs.unreported, Nat.le_refl 0, fun _ => rfl⟩
  | @completed n k _ xs _ _ message w _ _ w₃ w' _ hs _ hpart hs' _ ih =>
      obtain ⟨hreports, hle, hall⟩ := ih
      have hbefore : Shows Event.report? w [] w₃ :=
        ((hs.after hpart).before hs').unreported
      refine ⟨?_, Nat.succ_le_succ hle, fun hok => congrArg (· + 1) (hall hok)⟩
      exact hbefore.trans ((Shows.note w₃ _).trans hreports)
  | failed hs _ hpart hs' =>
      exact ⟨((hs.after hpart).before hs').unreported, Nat.zero_le _, nofun⟩

/-- A part of which the beginning is logged, and a failure too, and which is reported when it is done;
then the run goes on. -/
theorem progress_step {n : Nat} {x : δ} {xs : List δ} {e : Event} (he : e.request? = none)
    (hreport : e.report? = none) {source : LogSource} {warning : String → String}
    {message : α → String} {f : α → Exchange β} {r : Except Failure β} {v : Except Failure Unit}
    (hpart : Keeps (talks.and unreported) (part x)) (hv : ∀ e, r = .error e → v = .error e)
    (hf : ∀ {a w₁}, f a w₁ = (r, w') → ∃ k, Progress part total (n + 1) xs w₁ k v w')
    (h : (do
      note e
      let a ← warnOnFailure source warning (part x)
      report true (n + 1 : Nat) total (message a)
      f a) w = (r, w')) :
    ∃ k, Progress part total n (x :: xs) w k v w' := by
  obtain ⟨w₁, hs₁, _, h⟩ := note_bind_speech he hreport h
  rcases bind_cases h with ⟨a, w₂, h₂, h⟩ | ⟨failure, h₂, hr⟩
  · obtain ⟨w₃, hrun, hs₃, _⟩ := warnOnFailure_speech h₂
    obtain ⟨⟨d, ht⟩, hu⟩ := hpart.rel hrun
    rw [bind_run (report_run _ _ _ w₂)] at h
    obtain ⟨k, hrest⟩ := hf h
    exact ⟨k + 1, .completed hs₁ hrun ⟨ht, hu⟩ hs₃ hrest⟩
  · obtain ⟨w₃, hrun, hs₃, _⟩ := warnOnFailure_speech h₂
    obtain ⟨⟨d, ht⟩, hu⟩ := hpart.rel hrun
    rw [hv failure hr]
    exact ⟨0, .failed hs₁ hrun ⟨ht, hu⟩ hs₃⟩

/-- A run that says something and then goes through parts, of which it says how many are done. If a part
fails, that is the end of it. -/
structure Accounts (part : δ → Exchange α) (xs : List δ) (w : World) (before : Dialogue) (k : Nat)
    (r : Except Failure β) (w' : World) : Prop where
  run : ∃ v w₁ w₂ after, Speech w before w₁ ∧ Progress part xs.length 0 xs w₁ k v w₂ ∧
    Speech w₂ after w' ∧ ((∃ e, v = .error e) → (∃ e, r = .error e) ∧ after = [])
  reports : w.reportsSince w' = (List.range' 1 k).map fun i : Nat => ((i : Int), (xs.length : Int))
  bounded : k ≤ xs.length
  complete : (∃ a, r = .ok a) → k = xs.length

theorem Progress.accounts {k : Nat} {xs : List δ} {v : Except Failure Unit} {r : Except Failure β}
    {before after : Dialogue} {w₁ w₂ : World} (hs : Speech w before w₁)
    (h : Progress part xs.length 0 xs w₁ k v w₂) (hs' : Speech w₂ after w')
    (hv : (∃ e, v = .error e) → (∃ e, r = .error e) ∧ after = []) :
    Accounts part xs w before k r w' := by
  obtain ⟨hreports, hle, hall⟩ := h.reports
  refine ⟨⟨v, w₁, w₂, after, hs, h, hs', hv⟩, ?_, hle, fun ⟨a, hok⟩ => ?_⟩
  · exact ((hs.unreported.trans hreports).before hs'.unreported).seenSince_eq
  · cases v with
    | ok u => exact hall rfl
    | error e =>
        obtain ⟨⟨e', he'⟩, _⟩ := hv ⟨e, rfl⟩
        exact absurd (hok.symm.trans he') nofun

/-- What goes before, and what follows in silence. -/
theorem Accounts.within {γ : Type} {k : Nat} {xs : List δ} {r : Except Failure β}
    {r' : Except Failure γ} {d before : Dialogue} {w₀ w₁ : World} (hs : Speech w₀ d w)
    (h : Accounts part xs w before k r w₁) (hs' : Speech w₁ [] w')
    (hr : (∃ e, r = .error e) → ∃ e, r' = .error e) :
    Accounts part xs w₀ (d ++ before) k r' w' := by
  obtain ⟨v, v₁, v₂, after, hbefore, hprogress, hafter, hend⟩ := h.run
  exact hprogress.accounts (hs.trans hbefore) (hafter.before hs') fun hv =>
    ⟨hr (hend hv).1, (hend hv).2⟩

end

/-! ## Copies -/

/-- A copy of a single blob, to which nobody listens. -/
def copyQuietly (s : Settings) (source target : Reference) (digest : String) : Exchange Unit :=
  copyBlob s source target digest false

theorem keeps_copyQuietly (digest : String) :
    Keeps (talks.and unreported) (copyQuietly s source target digest) := by
  have hF : (talks.and unreported).Online := talks_online.and unreported_online
  exact keeps_copyBlob hF.serving hF.serving false

theorem copyPart_progress {total : Int} {what digest : String} {n : Nat} {digests : List String}
    {f : Unit → Exchange Unit} {r : Except Failure Unit}
    (hf : ∀ {w₁}, f () w₁ = (r, w') →
      ∃ k, Progress (copyQuietly s source target) total (n + 1) digests w₁ k r w')
    (h : (copyPart s source target true total what (n + 1 : Nat) digest >>= f) w = (r, w')) :
    ∃ k, Progress (copyQuietly s source target) total n (digest :: digests) w k r w' := by
  simp only [copyPart, bind_assoc] at h
  exact progress_step (f := f) rfl rfl (keeps_copyQuietly digest) (fun _ hr => hr) hf h

theorem copyLayers_progress {total : Int} {layers : List Descriptor} {n : Nat} {w : World}
    {r : Except Failure Unit}
    (h : copyLayers s source target true total (n + 1 : Nat) layers w = (r, w')) :
    ∃ k, Progress (copyQuietly s source target) total n (layers.map (·.digest)) w k r w' := by
  induction layers generalizing n w with
  | nil =>
      obtain ⟨rfl, rfl⟩ := pure_inv h
      exact ⟨0, .done (.refl _)⟩
  | cons layer layers ih => exact copyPart_progress ih h

/-- **A copy reports the blobs that it has copied**, if the manifest lists any. -/
theorem copyImage_accounts {r : Except Failure String}
    (h : copyImage s source target true w = (r, w')) :
    ∃ a, ((∀ m digests, ¬ Lists a m digests) ∧ Speech w [(manifestRequest s source, a)] w' ∧
        ∃ e, r = .error e) ∨
      ∃ m digests k, Lists a m digests ∧
        Accounts (copyQuietly s source target) digests w [(manifestRequest s source, a)] k r w' := by
  obtain ⟨a, w₁, hs, ⟨hlists, hfailed, rfl⟩ | hcopied⟩ := copyImage_outcome h
  · exact ⟨a, .inl ⟨hlists, hs, hfailed⟩⟩
  obtain ⟨m, config, layers, v, w₂, hserves, hconfig, hlayers, hparts, hend⟩ := hcopied
  have hlength : ((layers.length : Int) + 1) =
      ((config.digest :: layers.map (·.digest)).length : Int) := by simp
  -- the configuration is the first blob, so the layers are counted from two on
  unfold copyParts at hparts
  rw [hlength] at hparts
  obtain ⟨k, hprogress⟩ := copyPart_progress copyLayers_progress hparts
  refine ⟨a, .inr ⟨m, _, k, ⟨hserves, config, layers, hconfig, hlayers, rfl⟩, ?_⟩⟩
  rcases hend with ⟨e, he, hr, rfl⟩ | ⟨hok, b, hput⟩
  · exact hprogress.accounts hs (.refl _) fun _ => ⟨⟨e, hr⟩, rfl⟩
  · exact hprogress.accounts hs hput fun ⟨e, he⟩ => absurd (hok.symm.trans he) nofun

/-! ## Exports -/

theorem saying_staging : (talks.and unreported).Staging work where
  toOnline := talks_online.and unreported_online
  toStoring := talks_storing.and unreported_recording.storing
  warning _ w := ⟨⟨[], .note w rfl⟩, .note_of_eq w rfl⟩

theorem idle_storing {p : Archive.Path} : idle.Storing p where
  change hf w := ⟨silent_storing.change hf w, unreported_recording.storing.change hf w⟩
  naming _ := ⟨.of_eq rfl rfl rfl, .of_eq rfl⟩

theorem idle_heedless : idle.Heedless where
  warning _ w := .note w rfl rfl

theorem stageLayers_progress {total : Int} {layers : List Descriptor} {n : Nat} {w : World}
    {r : Except Failure (List String)}
    (h : stageLayers decoders s policy ref created work true total (n + 1 : Nat) layers w =
      (r, w')) :
    ∃ k, Progress (stageLayer decoders s policy ref created work) total n (layers.map (·.digest)) w k
      (r.map fun _ => ()) w' := by
  induction layers generalizing n w r with
  | nil =>
      obtain ⟨rfl, rfl⟩ := pure_inv h
      exact ⟨0, .done (.refl _)⟩
  | cons layer layers ih =>
      -- of what the other layers come to only a failure matters
      refine progress_step (f := fun diffId => do
          let diffIds ←
            stageLayers decoders s policy ref created work true total (n + 1 + 1 : Nat) layers
          return diffId :: diffIds)
        rfl rfl (keeps_stageLayer saying_staging.downloading layer.digest)
        (fun e hr => by rw [hr]; rfl) (fun {diffId _} h => ?_) h
      rcases bind_cases h with ⟨diffIds, w₂, h₂, h⟩ | ⟨e, h₂, rfl⟩
      · obtain ⟨rfl, rfl⟩ := pure_inv h
        exact ih (r := .ok diffIds) h₂
      · exact ih (r := .error e) h₂

/-- What is said when the configuration of a manifest is asked for. -/
def AsksConfig (s : Settings) (ref : Reference) (m : Manifest) (d : Dialogue) : Prop :=
  ∃ descriptor b, m.config = .ok descriptor ∧
    d = [(blobRequest s ref descriptor.digest configMediaTypes, b)]

/-- A configuration is fetched by a single request, if it comes to that. -/
theorem fetchConfig_speech {m : Manifest} {r : Except Failure Json.Members}
    (h : fetchConfig s policy ref m w = (r, w')) :
    ∃ d, Speech w d w' ∧ (d = [] ∨ AsksConfig s ref m d) ∧
      ((∃ config, r = .ok config) → AsksConfig s ref m d) := by
  have hreports : unreported.rel w w' := by
    refine (keeps_fetchConfig unreported_online.serving ⟨fun _ w => ?_⟩ m).rel h
    exact .note_of_eq w rfl
  rcases bind_cases h with ⟨descriptor, w₁, h₁, hrest⟩ | ⟨e, h₁, rfl⟩
  case inr =>
    obtain ⟨rfl, _⟩ := ofExcept_cases h₁
    exact ⟨[], .refl _, .inl rfl, fun ⟨_, hok⟩ => absurd hok nofun⟩
  obtain ⟨hconfig, rfl⟩ := ofExcept_ok h₁
  -- once the bytes are there, they are only checked and read
  obtain ⟨v, w₂, h₂, hs₂, hfails⟩ := bind_idle hrest fun bytes =>
    keeps_bind (keeps_ofExcept _ _) fun _ =>
      keeps_bind (keeps_checkDigest idle_heedless _ _ _) fun _ => keeps_ofExcept _ _
  obtain ⟨w₃, hread, ht₃, _⟩ := warnOnFailure_talk h₂
  rcases readBlob_outcome hread with ⟨_, rfl, rfl⟩ | ⟨_, b, ht, _⟩
  · refine ⟨[], ⟨ht₃.before hs₂.talk, hreports⟩, .inl rfl, fun ⟨_, hok⟩ => ?_⟩
    exact absurd ((hfails _ rfl).symm.trans hok) nofun
  · have hasks : AsksConfig s ref m [(blobRequest s ref descriptor.digest configMediaTypes, b)] :=
      ⟨descriptor, b, hconfig, rfl⟩
    exact ⟨_, ⟨(ht.before ht₃).before hs₂.talk, hreports⟩, .inr hasks, fun _ => hasks⟩

/-- How the layers of an image are staged and accounted for: they are gone through once the
configuration has been asked for, or the run fails before that. -/
def StagesLayers (decoders : Compression.Decoders) (s : Settings) (policy : IntegrityPolicy)
    (ref : Reference) (m : Manifest) (w : World) (r : Except Failure Exported) (w' : World) :
    Prop :=
  (∃ d, Speech w d w' ∧ (d = [] ∨ AsksConfig s ref m d) ∧ ∃ e, r = .error e) ∨
    ∃ d layers created work k, AsksConfig s ref m d ∧ m.layers = .ok layers ∧
      Accounts (stageLayer decoders s policy ref created work) (layers.map (·.digest)) w d k r w'

theorem StagesLayers.within {m : Manifest} {r r' : Except Failure Exported} {w₁ w₂ : World}
    (hs : Speech w [] w₁) (h : StagesLayers decoders s policy ref m w₁ r w₂) (hs' : Speech w₂ [] w')
    (hr : (∃ e, r = .error e) → ∃ e, r' = .error e) :
    StagesLayers decoders s policy ref m w r' w' := by
  rcases h with ⟨d, hd, hasks, hfailed⟩ | ⟨d, layers, created, work, k, hasks, hl, ha⟩
  · exact .inl ⟨d, (hs.after hd).before hs', hasks, hr hfailed⟩
  · exact .inr ⟨d, layers, created, work, k, hasks, hl, ha.within hs hs' hr⟩

theorem layOutImage_stagesLayers {name : String} {m : Manifest} {r : Except Failure Exported}
    (h : layOutImage decoders s policy ref name m true work w = (r, w')) :
    StagesLayers decoders s policy ref m w r w' := by
  rcases bind_cases h with ⟨config, w₁, h₁, hlayers⟩ | ⟨e, h₁, rfl⟩
  case inr =>
    obtain ⟨d, hs, hasks, _⟩ := fetchConfig_speech h₁
    exact .inl ⟨d, hs, hasks, e, rfl⟩
  obtain ⟨d, hs, _, hasks⟩ := fetchConfig_speech h₁
  replace hasks := hasks ⟨config, rfl⟩
  rcases bind_cases hlayers with ⟨layers, w₂, h₂, hstaged⟩ | ⟨e, h₂, rfl⟩
  case inr =>
    obtain ⟨rfl, _⟩ := ofExcept_cases h₂
    exact .inl ⟨d, hs, .inr hasks, e, rfl⟩
  obtain ⟨hl, rfl⟩ := ofExcept_ok h₂
  obtain ⟨v, w₃, h₃, hs₃, hfails⟩ := bind_idle hstaged fun diffIds => keeps_layOutIndex idle_storing
  obtain ⟨k, hprogress⟩ := stageLayers_progress (n := 0) h₃
  refine .inr ⟨d, layers, ImageConfig.created config, work, k, hasks, hl, ?_⟩
  rw [← List.length_map] at hprogress
  refine hprogress.accounts hs hs₃ fun ⟨e, he⟩ => ⟨?_, rfl⟩
  cases v with
  | ok diffIds => exact absurd he nofun
  | error failure => exact ⟨failure, hfails failure rfl⟩

/-- Writing neither says nor reports anything. -/
theorem idle_writes (pieces : List (List UInt8)) : Keeps idle (pieces.forM write) := by
  intro w
  rw [forM_write]
  exact .of_eq rfl rfl rfl

theorem stageImage_stagesLayers {name : String} {m : Manifest} {r : Except Failure Exported}
    (h : stageImage decoders s policy ref name m true w = (r, w')) :
    StagesLayers decoders s policy ref m w r w' := by
  rcases withWorkDirectory_cases h with ⟨hp, _, _, he⟩ | ⟨work, w₁, w₂, hp, _, _, hx, rfl⟩
  · exact .inl ⟨[], hp.speech, .inl rfl, _, he⟩
  obtain ⟨v, w₃, hlay, hs₃, hfails⟩ := bind_idle hx fun exported =>
    keeps_bind (keeps_packDirectory idle_writes) fun _ => keeps_pure _
  -- the directory goes whether the image was staged or not
  have hcleared : Speech w₃ [] { w₂ with disk := w₂.disk.remove work } :=
    hs₃.trans (.of_eq rfl rfl rfl)
  exact (layOutImage_stagesLayers hlay).within hp.speech hcleared fun ⟨e, he⟩ => ⟨e, hfails e he⟩

/-- What is said before the layers of an image are asked for: its manifest is served, and its
configuration is asked for. -/
def Introduces (s : Settings) (ref : Reference) (m : Manifest) (d : Dialogue) : Prop :=
  ∃ a config, d = (manifestRequest s ref, a) :: config ∧ a.Serves m ∧ AsksConfig s ref m config

/-- **An export reports the layers that it has staged**, if it comes to that. -/
theorem exportImage_accounts {policy : Option IntegrityPolicy} {r : Except Failure Exported}
    (h : exportImage decoders s policy ref true w = (r, w')) :
    (∃ d, Speech w d w' ∧ (d = [] ∨ (∃ a, d = [(manifestRequest s ref, a)]) ∨
        ∃ m, Introduces s ref m d) ∧ ∃ e, r = .error e) ∨
      ∃ d m layers created work k, Introduces s ref m d ∧ m.layers = .ok layers ∧
        Accounts (stageLayer decoders s (policy.getD s.verify) ref created work)
          (layers.map (·.digest)) w d k r w' := by
  rcases exportImage_outcome h with ⟨_, he, rfl⟩ | ⟨name, a, w₁, _, hs₁, _, hm⟩
  · exact .inl ⟨[], .refl _, .inl rfl, _, he⟩
  rcases hm with ⟨e, _, he, rfl⟩ | ⟨m, w₂, r', hm, hstage, hs₂, _, rfl⟩
  · exact .inl ⟨_, hs₁, .inr (.inl ⟨a, rfl⟩), e, he⟩
  have hserves : a.Serves m := manifestOutcome_eq_ok.1 hm
  have hfails : (∃ e, r' = .error e) → ∃ e, r'.mapError (archiveFailure ref) = .error e := by
    rintro ⟨e, rfl⟩
    exact ⟨_, rfl⟩
  rcases stageImage_stagesLayers hstage with ⟨d, hs, hasks, hfailed⟩ | hstaged
  · refine .inl ⟨_, (hs₁.trans hs).before hs₂, .inr ?_, hfails hfailed⟩
    rcases hasks with rfl | hasks
    · exact .inl ⟨a, rfl⟩
    · exact .inr ⟨m, a, d, rfl, hserves, hasks⟩
  · obtain ⟨d, layers, created, work, k, hasks, hl, ha⟩ := hstaged
    exact .inr ⟨_, m, layers, created, work, k, ⟨a, d, rfl, hserves, hasks⟩, hl,
      ha.within hs₁ hs₂ hfails⟩

/-! ## All together -/

/-- **What is reported, and when.** A copy goes through the blobs that the manifest lists, an export
goes through its layers, and both account for the ones that are done, whether the run succeeds or not;
if it does not come to that, they report nothing. An upload reports the bytes so far after each chunk
that was taken, and at no other time. Its counts grow, up to the length of the data if it succeeds. -/
theorem progress_reported (decoders : Compression.Decoders) (s : Settings) :
    (∀ source target w, let run := copyImage s source target true w
      ∃ a, ((∀ m digests, ¬ Lists a m digests) ∧ Speech w [(manifestRequest s source, a)] run.2 ∧
          ∃ e, run.1 = .error e) ∨
        ∃ m digests k, Lists a m digests ∧
          Accounts (copyQuietly s source target) digests w [(manifestRequest s source, a)] k run.1
            run.2) ∧
    (∀ policy ref w, let run := exportImage decoders s policy ref true w
      (∃ d, Speech w d run.2 ∧ (d = [] ∨ (∃ a, d = [(manifestRequest s ref, a)]) ∨
          ∃ m, Introduces s ref m d) ∧ ∃ e, run.1 = .error e) ∨
        ∃ d m layers created work k, Introduces s ref m d ∧ m.layers = .ok layers ∧
          Accounts (stageLayer decoders s (policy.getD s.verify) ref created work)
            (layers.map (·.digest)) w d k run.1 run.2) ∧
    ∀ ref digest (supply : Supply) w, let run := supply.upload s ref digest true w
      w.marksSince run.2 = announced s ref supply.statedSize 0 (w.dialogue run.2) ∧
        Grows (supply.data (w.dialogue run.2)) supply.statedSize run.1 (w.reportsSince run.2) :=
  ⟨fun _ _ _ => copyImage_accounts rfl, fun _ _ _ => exportImage_accounts rfl,
    fun ref digest supply w =>
      ⟨upload_announces s ref digest supply w, upload_grows s ref digest supply w⟩⟩

end ImageTransfer.Transfer
