import ImageTransfer.Proofs.Registry.BlobCopy
import ImageTransfer.Transfer.Copy

/-!
# Copies of images

The manifest of an image is what makes it usable at the target, so it has to come last. A run of a
copy asks for the manifest, copies the blobs that it lists one after the other (`Copies`), and puts
the manifest if every copy ended well. What was said between the two is then a list of parts, one for
each blob in the order of the manifest, of which each confirms its blob (`Confirms`).
-/

namespace ImageTransfer.Transfer

open Exchange Registry

variable {s : Settings} {source target : Reference} {listens : Bool} {total : Int} {w w' : World}

/-- A part of a dialogue by which the target is known to have a blob: it said that it has it, or
mounted it, or took an upload of the whole blob under its digest. -/
def Confirms (s : Settings) (source target : Reference) (digest : String) (d : Dialogue) : Prop :=
  ∃ e : Ending, e.Concludes s source target digest d

/-- Whether a request puts a manifest. An upload is ended by a request without a body. -/
def PutsManifest (q : Request) : Prop := q.method = .put ∧ q.body.isSome = true

/-- An answer that serves a manifest of which all descriptors are valid, and the digests that it
lists: the one of the configuration first, and then those of the layers. -/
def Lists (a : Answer) (m : Manifest) (digests : List String) : Prop :=
  a.Serves m ∧ ∃ config layers, m.config = .ok config ∧ m.layers = .ok layers ∧
    digests = config.digest :: layers.map (·.digest)

/-- Blobs are copied one after the other, up to the first copy that fails. Nothing is said in
between. -/
inductive Copies (s : Settings) (source target : Reference) :
    List String → World → Except Failure Unit → World → Prop
  | done {w w' : World} : Talk w [] w' → Copies s source target [] w (.ok ()) w'
  | copied {digest : String} {digests : List String} {w w₁ w₂ w' : World}
      {r : Except Failure Unit} : Talk w [] w₁ →
        copyBlob s source target digest false w₁ = (.ok (), w₂) →
        Copies s source target digests w₂ r w' →
        Copies s source target (digest :: digests) w r w'
  | failed {digest : String} {digests : List String} {w w₁ w₂ w' : World} {e : Failure} :
      Talk w [] w₁ → copyBlob s source target digest false w₁ = (.error e, w₂) →
        Talk w₂ [] w' → Copies s source target (digest :: digests) w (.error e) w'

theorem Lists.unique {a : Answer} {m m' : Manifest} {digests digests' : List String}
    (h : Lists a m digests) (h' : Lists a m' digests') : m' = m ∧ digests' = digests := by
  obtain ⟨hs, config, layers, hc, hl, rfl⟩ := h
  obtain ⟨hs', config', layers', hc', hl', rfl⟩ := h'
  obtain rfl := hs.unique hs'
  obtain rfl := Except.ok.inj (hc'.symm.trans hc)
  obtain rfl := Except.ok.inj (hl'.symm.trans hl)
  exact ⟨rfl, rfl⟩

/-! ## One blob after the other -/

/-- A copy of a blob puts no manifest. If it ends well, it confirms the blob. -/
theorem copyBlob_confirms {digest : String} {r : Except Failure Unit}
    (h : copyBlob s source target digest listens w = (r, w')) :
    ∃ d, Talk w d w' ∧ (∀ p ∈ d, ¬ PutsManifest p.1) ∧
      (r = .ok () → Confirms s source target digest d) := by
  have hnothing : ∀ {d : Dialogue}, PutsNothing d → ∀ p ∈ d, ¬ PutsManifest p.1 := by
    intro d hd p hp hm
    exact hd p hp hm.1
  obtain ⟨d, ht, _, hd⟩ := copyBlob_cases h
  refine ⟨d, ht, ?_⟩
  rcases hd with ⟨_, hend⟩ | ⟨_, hend⟩ | ⟨before, up, last, a, rfl, hwant, hup, hiff⟩ | ⟨hp, e, rfl⟩
  · refine ⟨?_, fun _ => ⟨_, hend⟩⟩
    obtain ⟨a, rfl, _⟩ := hend
    exact hnothing (putsNothing_single nofun)
  · refine ⟨?_, fun _ => ⟨_, hend⟩⟩
    obtain ⟨_, _, a, b, rfl, _⟩ := hend
    exact hnothing ((putsNothing_single (q := blobQuestion s target digest) nofun).append
      (putsNothing_single (q := mountRequest s source target digest) nofun))
  · refine ⟨fun p hp hm => ?_, fun hok => ⟨.uploaded, before, up, last, a, rfl, hwant, hup,
      hiff.1 hok⟩⟩
    rcases List.mem_append.1 hp with hp | hp
    · exact hnothing (hwant.putsNothing.append hup.putsNothing) p hp hm
    · rw [List.mem_singleton.1 hp] at hm
      exact absurd hm.2 (by simp [uploadEnd])
  · exact ⟨hnothing hp, nofun⟩

/-- A part of an image is a copy of a blob, and some lines of the log. -/
theorem copyPart_cases {what digest : String} {index : Int} {r : Except Failure Unit}
    (h : copyPart s source target listens total what index digest w = (r, w')) :
    ∃ w₁ w₂, Talk w [] w₁ ∧ copyBlob s source target digest false w₁ = (r, w₂) ∧
      Talk w₂ [] w' := by
  obtain ⟨w₁, ht₁, _, h⟩ := note_bind rfl h
  rcases bind_cases h with ⟨_, w₂, h₂, h₃⟩ | ⟨e, h₂, rfl⟩
  · obtain ⟨w₃, hcopy, ht₂, _⟩ := warnOnFailure_talk h₂
    obtain ⟨rfl, _⟩ := report_cases h₃
    exact ⟨w₁, w₃, ht₁, hcopy, ht₂.trans ((keeps_report (F := silent) _ _ _ _).rel h₃)⟩
  · obtain ⟨w₃, hcopy, ht₂, _⟩ := warnOnFailure_talk h₂
    exact ⟨w₁, w₃, ht₁, hcopy, ht₂⟩

/-- Copies go on from where others stopped. -/
theorem Copies.before {digests : List String} {w₁ : World} {r : Except Failure Unit}
    (h : Copies s source target digests w₁ r w') (ht : Talk w [] w₁) :
    Copies s source target digests w r w' := by
  cases h with
  | done h => exact .done (ht.trans h)
  | copied h hcopy hrest => exact .copied (ht.trans h) hcopy hrest
  | failed h hcopy hlast => exact .failed (ht.trans h) hcopy hlast

theorem copyPart_bind {what digest : String} {index : Int} {digests : List String}
    {f : Unit → Exchange Unit} {r : Except Failure Unit}
    (hf : ∀ {w₁ : World}, f () w₁ = (r, w') → Copies s source target digests w₁ r w')
    (h : (copyPart s source target listens total what index digest >>= f) w = (r, w')) :
    Copies s source target (digest :: digests) w r w' := by
  rcases bind_cases h with ⟨_, w₁, h₁, h₂⟩ | ⟨e, h₁, rfl⟩
  · obtain ⟨w₂, w₃, ht, hcopy, ht'⟩ := copyPart_cases h₁
    exact .copied ht hcopy ((hf h₂).before ht')
  · obtain ⟨w₂, w₃, ht, hcopy, ht'⟩ := copyPart_cases h₁
    exact .failed ht hcopy ht'

theorem copies_of_copyLayers {layers : List Descriptor} {index : Int} {w : World}
    {r : Except Failure Unit}
    (h : copyLayers s source target listens total index layers w = (r, w')) :
    Copies s source target (layers.map (·.digest)) w r w' := by
  induction layers generalizing index w with
  | nil =>
      obtain ⟨rfl, rfl⟩ := pure_inv h
      exact .done (.refl _)
  | cons layer layers ih => exact copyPart_bind ih h

/-- **What is said while blobs are copied falls into parts that confirm them, one by one.** -/
theorem Copies.confirms {digests : List String} {r : Except Failure Unit}
    (h : Copies s source target digests w r w') :
    ∃ d, Talk w d w' ∧ (∀ p ∈ d, ¬ PutsManifest p.1) ∧
      (r = .ok () → ∃ segments : List Dialogue, d = segments.flatten ∧
        List.Forall₂ (Confirms s source target) digests segments) := by
  induction h with
  | done ht => exact ⟨[], ht, fun p hp => absurd hp (by simp), fun _ => ⟨[], rfl, .nil⟩⟩
  | copied ht hcopy hrest ih =>
      obtain ⟨d₁, ht₁, hm₁, hd₁⟩ := copyBlob_confirms hcopy
      obtain ⟨d₂, ht₂, hm₂, hd₂⟩ := ih
      refine ⟨d₁ ++ d₂, (ht.after ht₁).trans ht₂, fun p hp => ?_, fun hok => ?_⟩
      · rcases List.mem_append.1 hp with hp | hp
        · exact hm₁ p hp
        · exact hm₂ p hp
      · obtain ⟨segments, rfl, hs⟩ := hd₂ hok
        exact ⟨d₁ :: segments, rfl, .cons (hd₁ rfl) hs⟩
  | failed ht hcopy ht' =>
      obtain ⟨d, ht₁, hm, _⟩ := copyBlob_confirms hcopy
      exact ⟨d, (ht.after ht₁).before ht', hm, nofun⟩

/-! ## The whole run -/

/-- How a run of a copy goes. It asks for the manifest. If what it gets is no manifest, or lists
something that is no descriptor, that is all. Otherwise the blobs are copied, and if every copy ended
well the manifest is put. Nothing is reported before the blobs are copied, and nothing after that. -/
theorem copyImage_outcome {r : Except Failure String}
    (h : copyImage s source target listens w = (r, w')) :
    ∃ a w₁, Speech w [(manifestRequest s source, a)] w₁ ∧
      (((∀ m digests, ¬ Lists a m digests) ∧ (∃ e, r = .error e) ∧ w' = w₁) ∨
        ∃ m config layers r' w₂, a.Serves m ∧ m.config = .ok config ∧ m.layers = .ok layers ∧
          copyParts s source target listens config layers w₁ = (r', w₂) ∧
          ((∃ e, r' = .error e ∧ r = .error e ∧ w' = w₂) ∨
            (r' = .ok () ∧ ∃ b, Speech w₂ [(manifestPut s target m, b)] w'))) := by
  rcases bind_cases h with ⟨m, w₁, h₁, hread⟩ | ⟨e, h₁, rfl⟩
  case inr =>
    obtain ⟨a, hs, _, hm⟩ := getManifest_outcome_warned h₁
    refine ⟨a, w', hs, .inl ⟨fun m digests hl => ?_, ⟨e, rfl⟩, rfl⟩⟩
    rw [manifestOutcome_eq_ok.2 hl.1] at hm
    exact absurd hm nofun
  obtain ⟨a, hs, _, hm⟩ := getManifest_outcome_warned h₁
  have hserves : a.Serves m := manifestOutcome_eq_ok.1 hm.symm
  refine ⟨a, w₁, hs, ?_⟩
  rcases bind_cases hread with ⟨config, w₃, h₃, hconf⟩ | ⟨e, h₃, rfl⟩
  case inr =>
    obtain ⟨rfl, ⟨_, _, he⟩ | ⟨e', hc, _⟩⟩ := ofExcept_cases h₃
    · exact absurd he (by simp)
    refine .inl ⟨fun m' digests hl => ?_, ⟨e, rfl⟩, rfl⟩
    obtain ⟨hs', config, layers, hc', _⟩ := hl
    obtain rfl := hserves.unique hs'
    exact absurd (hc.symm.trans hc') nofun
  obtain ⟨hconfig, rfl⟩ := ofExcept_ok h₃
  rcases bind_cases hconf with ⟨layers, w₄, h₄, hparts⟩ | ⟨e, h₄, rfl⟩
  case inr =>
    obtain ⟨rfl, ⟨_, _, he⟩ | ⟨e', hc, _⟩⟩ := ofExcept_cases h₄
    · exact absurd he (by simp)
    refine .inl ⟨fun m' digests hl => ?_, ⟨e, rfl⟩, rfl⟩
    obtain ⟨hs', _, layers, _, hl', _⟩ := hl
    obtain rfl := hserves.unique hs'
    exact absurd (hc.symm.trans hl') nofun
  obtain ⟨hlayers, rfl⟩ := ofExcept_ok h₄
  -- from here on the blobs are copied
  refine .inr ⟨m, config, layers, ?_⟩
  rcases bind_cases hparts with ⟨_, w₅, h₅, hlast⟩ | ⟨e, h₅, rfl⟩
  case inr => exact ⟨.error e, w', hserves, hconfig, hlayers, h₅, .inl ⟨e, rfl, rfl, rfl⟩⟩
  refine ⟨.ok (), w₅, hserves, hconfig, hlayers, h₅, .inr ⟨rfl, ?_⟩⟩
  have hput {v : Except Failure String} {w₆ : World}
      (h₆ : warnOnFailure .copying (fun e => s!"Failed to push manifest to {target}: {e}")
        (putManifest s target m) w₅ = (v, w₆)) :
      ∃ b, Speech w₅ [(manifestPut s target m, b)] w₆ := by
    obtain ⟨w₇, hput, hs₇, _⟩ := warnOnFailure_speech h₆
    obtain ⟨b, ht, _⟩ := putManifest_cases hput
    have hreports : unreported.rel w₅ w₇ := (keeps_putManifest unreported_online.serving m).rel hput
    exact ⟨b, (Speech.mk ht hreports).before hs₇⟩
  rcases bind_cases hlast with ⟨digest, w₆, h₆, hlog⟩ | ⟨e, h₆, rfl⟩
  · obtain ⟨b, hs₆⟩ := hput h₆
    obtain ⟨w₈, hs₈, _, hp⟩ := note_bind_speech rfl rfl hlog
    obtain ⟨_, rfl⟩ := pure_inv hp
    exact ⟨b, hs₆.before hs₈⟩
  · exact hput h₆

/-- **What a copy says**, of which the blobs are copied one after the other. -/
theorem copyImage_cases {r : Except Failure String}
    (h : copyImage s source target listens w = (r, w')) :
    ∃ a w₁, Talk w [(manifestRequest s source, a)] w₁ ∧
      (((∀ m digests, ¬ Lists a m digests) ∧ Talk w₁ [] w') ∨
        ∃ m digests r' w₂, Lists a m digests ∧ Copies s source target digests w₁ r' w₂ ∧
          ((∃ e, r' = .error e ∧ r = .error e ∧ Talk w₂ [] w') ∨
            (r' = .ok () ∧ ∃ b, Talk w₂ [(manifestPut s target m, b)] w'))) := by
  obtain ⟨a, w₁, hs, ⟨hlists, _, rfl⟩ | hcopied⟩ := copyImage_outcome h
  · exact ⟨a, w', hs.talk, .inl ⟨hlists, .refl w'⟩⟩
  obtain ⟨m, config, layers, r', w₂, hserves, hconfig, hlayers, hparts, hend⟩ := hcopied
  refine ⟨a, w₁, hs.talk, .inr ⟨m, _, r', w₂, ⟨hserves, config, layers, hconfig, hlayers, rfl⟩,
    copyPart_bind copies_of_copyLayers hparts, ?_⟩⟩
  rcases hend with ⟨e, he, hr, rfl⟩ | ⟨hok, b, hput⟩
  · exact .inl ⟨e, he, hr, .refl _⟩
  · exact .inr ⟨hok, b, hput.talk⟩

/-- Where only the last exchange of a dialogue can put a manifest, one that does is the last. -/
theorem last_of_putsManifest {d tail : Dialogue} (hd : ∀ p ∈ d, ¬ PutsManifest p.1)
    (ht : tail.length ≤ 1) {i : Nat} {p : Request × Answer} (hi : (d ++ tail)[i]? = some p)
    (hp : PutsManifest p.1) : p ∈ tail ∧ i + 1 = (d ++ tail).length := by
  rcases Nat.lt_or_ge i d.length with hlt | hge
  · rw [List.getElem?_append_left hlt] at hi
    exact absurd hp (hd p (List.mem_of_getElem? hi))
  · rw [List.getElem?_append_right hge] at hi
    have hlt := (List.getElem?_eq_some_iff.1 hi).1
    rw [List.length_append]
    exact ⟨List.mem_of_getElem? hi, by omega⟩

/-- **The manifest comes last.** In every run of a copy:

* a manifest is put at most once, by the last request;
* if one is put, it goes to the target's reference with the very bytes that the source served, after
  each blob that it lists has been confirmed at the target, in the order of the manifest;
* if no manifest with valid descriptors is got, the request for it is the only one;
* otherwise the blobs are copied in order up to the first copy that fails, and the manifest is put
  if and only if none does. -/
theorem copyImage_manifestLast (s : Settings) (source target : Reference) (listens : Bool)
    (w : World) :
    let run := copyImage s source target listens w
    let d := w.dialogue run.2
    (∀ i p, d[i]? = some p → PutsManifest p.1 → i + 1 = d.length) ∧
      (∀ p ∈ d, PutsManifest p.1 → ∃ response m digests segments,
        d = (manifestRequest s source, .response response) :: (segments.flatten ++ [p]) ∧
          Lists (.response response) m digests ∧
          List.Forall₂ (Confirms s source target) digests segments ∧
          p.1.url = manifestUrl s target ∧ p.1.body = some response.body) ∧
      ((∀ a m digests, d.head? = some (manifestRequest s source, a) → ¬ Lists a m digests) →
        d.map Prod.fst = [manifestRequest s source]) ∧
      ∀ a m digests, d.head? = some (manifestRequest s source, a) → Lists a m digests →
        ∃ w₁ r w₂ tail, Talk w [(manifestRequest s source, a)] w₁ ∧
          Copies s source target digests w₁ r w₂ ∧
          d = (manifestRequest s source, a) :: (w₁.dialogue w₂ ++ tail) ∧
          (∀ e, r = .error e → run.1 = .error e ∧ ∀ p ∈ d, ¬ PutsManifest p.1) ∧
          (r = .ok () → ∃ b, tail = [(manifestPut s target m, b)]) := by
  intro run d
  have hrun : copyImage s source target listens w = (run.1, run.2) := rfl
  obtain ⟨a, w₁, ht₁, hnone | hsome⟩ := copyImage_cases hrun
  · -- the manifest was asked for, and nothing else
    obtain ⟨hlists, ht₂⟩ := hnone
    have hd : d = [(manifestRequest s source, a)] := (ht₁.before ht₂).dialogue_eq
    have hno : ∀ p ∈ d, ¬ PutsManifest p.1 := by
      intro p hp hm
      rw [hd, List.mem_singleton] at hp
      rw [hp] at hm
      exact absurd hm.1 nofun
    refine ⟨fun i p hi hp => absurd hp (hno p (List.mem_of_getElem? hi)),
      fun p hp hm => absurd hm (hno p hp), fun _ => by rw [hd]; rfl, fun b m digests hb hl => ?_⟩
    rw [hd] at hb
    cases hb
    exact absurd hl (hlists m digests)
  · obtain ⟨m, digests, r, w₂, hlists, hcopies, hlast⟩ := hsome
    obtain ⟨c, ht₂, hc, hsegments⟩ := hcopies.confirms
    have htail : ∃ tail, Talk w₂ tail run.2 ∧ ((tail = [] ∧ ∃ e, r = .error e ∧ run.1 = .error e) ∨
        (r = .ok () ∧ ∃ b, tail = [(manifestPut s target m, b)])) := by
      rcases hlast with ⟨e, hr, hrun, ht⟩ | ⟨hr, b, ht⟩
      · exact ⟨[], ht, .inl ⟨rfl, e, hr, hrun⟩⟩
      · exact ⟨_, ht, .inr ⟨hr, b, rfl⟩⟩
    obtain ⟨tail, ht₃, htail⟩ := htail
    have hd : d = ([(manifestRequest s source, a)] ++ c) ++ tail :=
      ((ht₁.trans ht₂).trans ht₃).dialogue_eq
    -- before the tail no manifest is put, and the tail is one request at most
    have hinit : ∀ p ∈ [(manifestRequest s source, a)] ++ c, ¬ PutsManifest p.1 := by
      intro p hp hm
      rcases List.mem_append.1 hp with hp | hp
      · rw [List.mem_singleton.1 hp] at hm
        exact absurd hm.1 nofun
      · exact hc p hp hm
    have hlen : tail.length ≤ 1 := by
      rcases htail with ⟨rfl, _⟩ | ⟨_, b, rfl⟩
      · exact Nat.zero_le 1
      · exact Nat.le_refl 1
    refine ⟨fun i p hi hp => ?_, fun p hp hm => ?_, fun hno => ?_, fun b m' digests' hb hl => ?_⟩
    · rw [hd] at hi ⊢
      exact (last_of_putsManifest hinit hlen hi hp).2
    · obtain ⟨i, hi⟩ := List.mem_iff_getElem?.1 hp
      rw [hd] at hi
      have hp := (last_of_putsManifest hinit hlen hi hm).1
      rcases htail with ⟨rfl, _⟩ | ⟨hok, b, rfl⟩
      · exact absurd hp (by simp)
      · obtain ⟨segments, hc, hsegments⟩ := hsegments hok
        rw [List.mem_singleton.1 hp]
        obtain ⟨response, rfl⟩ : ∃ response, a = .response response := by
          obtain ⟨⟨response, ha, _⟩, _⟩ := hlists
          exact ⟨response, ha⟩
        refine ⟨response, m, digests, segments, ?_, hlists, hsegments, rfl, ?_⟩
        · rw [hd, hc]
          rfl
        · exact congrArg some (raw_of_serves hlists.1)
    · refine absurd hlists (hno a m digests ?_)
      rw [hd]
      rfl
    · rw [hd] at hb
      cases hb
      obtain ⟨rfl, rfl⟩ := hlists.unique hl
      refine ⟨w₁, r, w₂, tail, ht₁, hcopies, ?_, fun e he => ?_, fun hok => ?_⟩
      · rw [hd, ht₂.dialogue_eq]
        rfl
      · rcases htail with ⟨rfl, e', he', hrun⟩ | ⟨hok, _⟩
        · cases he.symm.trans he'
          refine ⟨hrun, fun p hp => hinit p ?_⟩
          rwa [hd, List.append_nil] at hp
        · exact absurd (he.symm.trans hok) nofun
      · rcases htail with ⟨_, e', he', _⟩ | ⟨_, hb⟩
        · exact absurd (hok.symm.trans he') nofun
        · exact hb

end ImageTransfer.Transfer
