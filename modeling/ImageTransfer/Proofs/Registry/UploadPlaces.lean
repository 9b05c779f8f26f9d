import ImageTransfer.Proofs.Reference.Grammar
import ImageTransfer.Proofs.Registry.Query
import ImageTransfer.Proofs.Registry.UploadOrder
import ImageTransfer.Proofs.Registry.UriResolution

/-!
# The places of an upload

Each accepted answer of an upload names the place for the next request. Wherever the request was sent
that it answers, the place is resolved against the root of the registry, and an answer that names no
place sends the upload to that root (`upload_places`). So a place that is a whole URL or a path from the
root is the one that the registry means, but one that is relative to the request is not
(`upload_strays`).

The last request goes to the last place, with the digest as one more parameter (`finalPut_place`).
-/

namespace ImageTransfer

/-- The place that an answer names. -/
def Answer.location : Answer → String
  | .response r => r.header "Location"
  | .fault _ => ""

namespace Registry

open Exchange

variable {s : Settings} {ref : Reference} {digest place next : String} {may : Prop}

/-! ## From request to request -/

namespace Follows

variable {steps : List UploadStep} {d : Dialogue} {r : Except Failure String}

/-- After each answer the run ends with a failure, or goes on through the other steps. -/
theorem after (h : Follows may s ref digest place steps d r) {i : Nat} {p : Request × Answer}
    (hp : d[i]? = some p) : ∃ step, steps[i]? = some step ∧
      ((∃ e, step.verdict s ref digest p.2 = .error e ∧ d.drop (i + 1) = []) ∨
        ∃ next, step.verdict s ref digest p.2 = .ok next ∧
          Follows may s ref digest next (steps.drop (i + 1)) (d.drop (i + 1)) r) := by
  induction h generalizing i with
  | done | interrupted => exact absurd hp nofun
  | @refused place step steps a e ha =>
      cases i with
      | succ i => exact absurd hp nofun
      | zero =>
          cases hp
          exact ⟨step, rfl, .inl ⟨e, ha, rfl⟩⟩
  | @accepted place next step steps a d r ha hrest ih =>
      cases i with
      | succ i => exact ih hp
      | zero =>
          cases hp
          exact ⟨step, rfl, .inr ⟨next, ha, hrest⟩⟩

/-- A run begins with the request of its first step. -/
theorem first_request (h : Follows may s ref digest place steps d r) {q : Request × Answer}
    (hq : d.head? = some q) :
    ∃ step, steps.head? = some step ∧ q.1 = step.request s ref digest place := by
  cases h with
  | done | interrupted => exact absurd hq nofun
  | refused _ | accepted _ _ =>
      cases hq
      exact ⟨_, rfl, rfl⟩

/-- **Each request goes to the place that the answer before it names.** -/
theorem next_request (h : Follows may s ref digest place steps d r) {i : Nat} {p q : Request × Answer}
    (hp : d[i]? = some p) (hq : d[i + 1]? = some q) : ∃ step step' next, steps[i]? = some step ∧
      steps[i + 1]? = some step' ∧ step.verdict s ref digest p.2 = .ok next ∧
        q.1 = step'.request s ref digest next := by
  obtain ⟨step, hstep, hend | ⟨next, hv, hrest⟩⟩ := h.after hp
  · obtain ⟨e, _, hnil⟩ := hend
    rw [← List.head?_drop, hnil] at hq
    exact absurd hq nofun
  · rw [← List.head?_drop] at hq
    obtain ⟨step', hstep', hrequest⟩ := hrest.first_request hq
    rw [List.head?_drop] at hstep'
    exact ⟨step, step', next, hstep, hstep', hv, hrequest⟩

/-- A run that nothing else interrupts goes on after an accepted answer. -/
theorem goes_on (hmay : ¬ may) (h : Follows may s ref digest place steps d r) {i : Nat}
    {p : Request × Answer} {step step' : UploadStep} (hp : d[i]? = some p)
    (hstep : steps[i]? = some step) (hnext : steps[i + 1]? = some step')
    (hv : step.verdict s ref digest p.2 = .ok next) : ∃ q, d[i + 1]? = some q := by
  obtain ⟨step₁, hstep₁, hend | ⟨next₁, _, hrest⟩⟩ := h.after hp
  · obtain ⟨e, he, _⟩ := hend
    cases hstep.symm.trans hstep₁
    exact absurd (hv.symm.trans he) nofun
  · rw [← List.head?_drop] at hnext ⊢
    generalize d.drop (i + 1) = rest at hrest ⊢
    generalize steps.drop (i + 1) = left at hrest hnext
    cases hrest with
    | done => exact absurd hnext nofun
    | interrupted _ _ _ hm => exact absurd hm hmay
    | refused _ | accepted _ _ => exact ⟨_, rfl⟩

end Follows

/-- What is accepted before the last request names the next place. -/
theorem verdict_eq_ok {step : UploadStep} (h : step ≠ .closing) {a : Answer} :
    step.verdict s ref digest a = .ok place ↔ Accepted s ref a place := by
  cases step with
  | opening => exact placeAfter_eq_ok
  | chunk bytes => exact placeAfter_eq_ok
  | closing => exact absurd rfl h

/-- Only the last step closes the upload, and only the first opens it. -/
theorem uploadSteps_spec {chunks : List (List UInt8)} {i : Nat} {step step' : UploadStep}
    (h : (uploadSteps chunks)[i]? = some step) (h' : (uploadSteps chunks)[i + 1]? = some step') :
    step ≠ .closing ∧ ((∃ chunk, step' = .chunk chunk) ∨ step' = .closing) := by
  have hchunk {step : UploadStep} (hs : step ∈ chunks.map UploadStep.chunk) :
      ∃ chunk, step = .chunk chunk := by
    obtain ⟨chunk, _, rfl⟩ := List.mem_map.1 hs
    exact ⟨chunk, rfl⟩
  constructor
  · have hlt : i < (UploadStep.opening :: chunks.map .chunk).length := by
      have hlength := (List.getElem?_eq_some_iff.1 h').1
      rw [uploadSteps, ← List.cons_append, List.length_append, List.length_singleton] at hlength
      omega
    rw [uploadSteps, ← List.cons_append, List.getElem?_append_left hlt] at h
    rcases List.mem_cons.1 (List.mem_of_getElem? h) with rfl | hs
    · exact nofun
    · obtain ⟨chunk, rfl⟩ := hchunk hs
      exact nofun
  · have hs : step' ∈ chunks.map .chunk ++ [.closing] := List.mem_of_getElem? h'
    rcases List.mem_append.1 hs with hs | hs
    · exact .inl (hchunk hs)
    · exact .inr (List.mem_singleton.1 hs)

/-! ## The root of a registry -/

/-- The host at which a registry is reached. -/
def apiHost (registry : String) : String :=
  if registry = Reference.dockerHub then Reference.dockerHubHost else registry

/-- The root of a registry. -/
def registryRoot (s : Settings) (registry : String) : Uri :=
  .root (if s.isPlain (apiHost registry) then "http" else "https").toList (apiHost registry).toList

/-- A registry is named by a host: there is no blank, no control and no delimiter in it. -/
def IsHostName (registry : String) : Prop := registry.toList.all Uri.isHostChar = true

theorem text_registryRoot (s : Settings) (registry : String) :
    s.baseUrl registry ++ "/" = String.ofList (registryRoot s registry).text := by
  rw [← String.toList_inj, String.toList_ofList]
  show ((if s.isPlain (apiHost registry) then "http" else "https") ++ "://" ++ apiHost registry ++ "/").toList = _
  simp [registryRoot, Uri.root, Uri.text, Uri.tail, Uri.marked]

theorem isSound_registryRoot {registry : String} (h : IsHostName registry) :
    (registryRoot s registry).IsSound := by
  refine Uri.isSound_root ?_ ?_
  · split <;> rfl
  · rw [apiHost]
    split
    · rfl
    · exact h

/-- The scheme of a registry is in small letters. -/
theorem lowerAscii_scheme (plain : Bool) :
    (if plain then "http" else "https").toList.map Url.lowerAscii =
      (if plain then "http" else "https").toList := by
  cases plain <;> decide

/-! ## From location to place -/

/-- What a place has to do with the location that it was made of, in the answer to a request that was
sent to `asked`. -/
structure Placed (s : Settings) (registry asked location place : String) : Prop where
  /-- No location at all is the root of the registry. -/
  missing : location = "" → place = s.baseUrl registry ++ "/"
  /-- A location is resolved against that root. -/
  resolved : IsHostName registry → ∀ u : Uri, u.Reads location → u.IsPlain →
    ∃ v : Uri, v.Reads place ∧ v.Same ((registryRoot s registry).resolve u)
  /-- That is as it should be for a whole URL, and for a path from the root if the request was sent to
  the registry itself. -/
  meant : IsHostName registry → ∀ u b : Uri, u.Reads location → u.IsPlain → b.Reads asked →
    u.scheme? ≠ none ∨ ((u.host? ≠ none ∨ u.path.head? = some '/') ∧
      b.scheme? = (registryRoot s registry).scheme? ∧ b.host? = (registryRoot s registry).host?) →
    ∃ v : Uri, v.Reads place ∧ v.Same (b.resolve u)

/-- A place is the text of what its location is settled to. -/
theorem locate_eq_ok {u : Uri} {location : String} (hregistry : IsHostName ref.registry)
    (hu : u.Reads location) (hplain : u.IsPlain) (h : locate s ref location = .ok place) :
    ((registryRoot s ref.registry).settled u).Reads place := by
  have hroot := isSound_registryRoot (s := s) hregistry
  obtain rfl : location = String.ofList u.text := by
    rw [← hu.2, String.ofList_toList]
  rw [locate, text_registryRoot] at h
  rw [Uri.resolve_eq_ok (lowerAscii_scheme _) hroot hu.1 hplain h]
  exact ⟨Uri.isSound_settled hroot hu.1 hplain, String.toList_ofList⟩

/-- A location is accepted if its host is, and that of the registry. -/
theorem locate_isOk {u : Uri} {location : String} (hregistry : IsHostName ref.registry)
    (hu : u.Reads location) (hplain : u.IsPlain)
    (hhost : Url.checkHost (apiHost ref.registry).toList = .ok ())
    (hname : Url.checkHost (u.host?.getD []) = .ok ()) : ∃ place, locate s ref location = .ok place := by
  obtain rfl : location = String.ofList u.text := by
    rw [← hu.2, String.ofList_toList]
  rw [locate, text_registryRoot]
  exact Uri.resolve_isOk (lowerAscii_scheme _) (isSound_registryRoot hregistry) hu.1 hplain hhost hname

theorem placed_of_locate {location : String} (asked : String)
    (h : locate s ref location = .ok place) : Placed s ref.registry asked location place where
  missing := by
    rintro rfl
    exact (Except.ok.inj h).symm
  resolved := fun hregistry u hu hplain =>
    ⟨_, locate_eq_ok hregistry hu hplain h, Uri.same_settled (lowerAscii_scheme _)⟩
  meant := by
    intro hregistry u b hu hplain _ habsolute
    refine ⟨_, locate_eq_ok hregistry hu hplain h, ?_⟩
    have hsame : b.resolve u = (registryRoot s ref.registry).resolve u := by
      rcases habsolute with hscheme | ⟨hrooted, hscheme, hhost⟩
      · rw [Uri.resolve_of_scheme _ hscheme, Uri.resolve_of_scheme _ hscheme]
      · exact Uri.resolve_congr hscheme hhost hrooted
    rw [hsame]
    exact Uri.same_settled (lowerAscii_scheme _)

/-- A request of an upload is sent to a place: one with a chunk, or the last one. -/
def GoesTo (digest place : String) (q : Request) : Prop :=
  (∃ chunk, q = chunkPatch place chunk) ∨ q = uploadEnd place digest

/-- After each answer of an upload but the last, the answer was accepted, and the next request goes to
the place that it names. -/
theorem upload_next (s : Settings) (ref : Reference) (listens : Bool) (supply : Supply) (w : World)
    (hd : Digest.isAddress digest = true) :
    let run := supply.upload s ref digest listens w
    let own := ownPart (w.dialogue run.2)
    ∀ i p q, own[i]? = some p → own[i + 1]? = some q →
      ∃ place, Accepted s ref p.2 place ∧ GoesTo digest place q.1 := by
  intro run own i p q hp hq
  have hf := upload_follows s ref listens supply w hd
  obtain ⟨step, step', next, hstep, hstep', hv, hrequest⟩ := hf.next_request hp hq
  obtain ⟨hne, hlater⟩ := uploadSteps_spec hstep hstep'
  refine ⟨next, (verdict_eq_ok hne).1 hv, ?_⟩
  rcases hlater with ⟨chunk, rfl⟩ | rfl
  · exact .inl ⟨chunk, hrequest⟩
  · exact .inr hrequest

/-- **Every location is resolved against the root of the registry**, wherever the request went that it
answers, and there the upload goes on. -/
theorem upload_places (s : Settings) (ref : Reference) (listens : Bool) (supply : Supply) (w : World)
    (hd : Digest.isAddress digest = true) :
    let run := supply.upload s ref digest listens w
    let own := ownPart (w.dialogue run.2)
    ∀ i p q, own[i]? = some p → own[i + 1]? = some q →
      ∃ place, p.2.status? = some 202 ∧ GoesTo digest place q.1 ∧
        Placed s ref.registry p.1.url p.2.location place := by
  intro run own i p q hp hq
  obtain ⟨place, ha, hgoes⟩ := upload_next s ref listens supply w hd i p q hp hq
  refine ⟨place, ha.status, hgoes, ?_⟩
  obtain ⟨response, hresponse, _, hlocate⟩ := ha
  rw [hresponse]
  exact placed_of_locate p.1.url hlocate

/-- A registry that names a place relative to the request first, and then none. -/
def strayingWorld : World :=
  .start [continueAt "7b3c", .response ⟨202, [], [], none⟩, .response ⟨201, [], [], none⟩]
    ⟨.connection, ""⟩ .unlimited fun _ => ""

/-- The data goes where the first of these answers puts it beside the root of the registry. -/
theorem upload_places_straying :
    Digest.isAddress "sha256:00" = true ∧
      let run := (Supply.bytes [1]).upload pairSettings teamImage "sha256:00" false strayingWorld
      let own := ownPart (strayingWorld.dialogue run.2)
      ∃ p q, own[0]? = some p ∧ own[1]? = some q ∧ p.2.location = "7b3c" ∧
        ∃ place, p.2.status? = some 202 ∧ GoesTo "sha256:00" place q.1 ∧
          Placed pairSettings teamImage.registry p.1.url p.2.location place := by
  have hd : Digest.isAddress "sha256:00" = true := by decide +kernel
  refine ⟨hd, ?_⟩
  intro run own
  have hfirst : own[0]?.map (·.2.location) = some "7b3c" := by decide +kernel
  have hsecond : own[1]?.isSome = true := by decide +kernel
  obtain ⟨p, hp, hlocation⟩ := Option.map_eq_some_iff.1 hfirst
  obtain ⟨q, hq⟩ := Option.isSome_iff_exists.1 hsecond
  exact ⟨p, q, hp, hq, hlocation,
    upload_places pairSettings teamImage false (.bytes [1]) strayingWorld hd 0 p q hp hq⟩

/-- Where uploads to that repository begin. -/
def teamUploads : Uri :=
  ⟨some "https".toList, some "registry.io".toList, "/v2/team/app/blobs/uploads/".toList, none, none⟩

/-- **An upload strays.** The first answer means a place below that of the request, but the data goes to
another one, and after an answer without a place the digest goes to the root of the registry. -/
theorem upload_strays :
    let run := (Supply.bytes [1]).upload pairSettings teamImage "sha256:00" false strayingWorld
    let meant : Uri := teamUploads.resolve ⟨none, none, "7b3c".toList, none, none⟩
    teamUploads.text = (uploadsUrl pairSettings teamImage).toList ∧
      meant.text = "https://registry.io/v2/team/app/blobs/uploads/7b3c".toList ∧
      (strayingWorld.dialogue run.2).map (fun p => (p.1.method, p.1.url, p.2.location)) =
        [(.post, "https://registry.io/v2/team/app/blobs/uploads/", "7b3c"),
          (.patch, "https://registry.io/7b3c", ""),
          (.put, "https://registry.io/?digest=sha256%3A00", "")] := by
  decide +kernel

/-! ## The last request -/

theorem blank_not_mem_of_isAddress (hd : Digest.isAddress digest = true) : ' ' ∉ digest.toList :=
  Reference.not_mem_of_isAddress hd (by decide) (by decide) (by decide) (by decide)

/-- The parameter that names a digest. -/
def digestParam (digest : String) : List Char := "digest=".toList ++ (Url.encodeValue digest).toList

theorem query_digest (digest : String) :
    Url.query [("digest", digest)] = String.ofList (digestParam digest) := by
  rw [← String.toList_inj, String.toList_ofList, Url.query]
  show ("digest" ++ "=" ++ Url.encodeValue digest).toList = _
  rw [String.toList_append]
  rfl

theorem mem_digestParam {c : Char} (h : c ∈ digestParam digest) :
    Uri.isQueryChar c = true ∧ c ≠ '&' := by
  rcases List.mem_append.1 h with hc | hc
  · have hname : ("digest=".toList.all fun c => Uri.isQueryChar c && c != '&') = true := by decide
    simpa using List.all_eq_true.1 hname c hc
  · obtain ⟨hvisible, hhash, hand⟩ := Url.mem_encodeValue hc
    simp [Uri.isQueryChar, Uri.isVisible, hvisible, hhash, hand]

/-- A request ends an upload at a place that a location stands for: it puts nothing there but the digest,
in one more parameter. -/
structure Finalizes (target location : Uri) (digest : String) (q : Request) : Prop where
  method : q.method = .put
  url : ∃ v : Uri, v.Reads q.url ∧
    v.scheme?.map (·.map Url.lowerAscii) = target.scheme?.map (·.map Url.lowerAscii) ∧
    v.host? = target.host? ∧ v.path = target.path ∧
    ∃ value, v.queryParams = location.queryParams ++ ["digest=".toList ++ value] ∧
      Url.percentDecode value = some (Text.utf8OfString digest)

/-- The last request at the place of a location is what it should be. -/
theorem finalizes_uploadEnd {u : Uri} {location : String} (hd : Digest.isAddress digest = true)
    (hregistry : IsHostName ref.registry) (hu : u.Reads location) (hplain : u.IsPlain)
    (h : locate s ref location = .ok place) :
    Finalizes ((registryRoot s ref.registry).resolve u) u digest (uploadEnd place digest) where
  method := rfl
  url := by
    have hplace := locate_eq_ok hregistry hu hplain h
    have hsame : ((registryRoot s ref.registry).settled u).Same _ :=
      Uri.same_settled (lowerAscii_scheme _)
    have hparam : (digestParam digest).all Uri.isQueryChar = true :=
      List.all_eq_true.2 fun c hc => (mem_digestParam hc).1
    refine ⟨((registryRoot s ref.registry).settled u).withParam (digestParam digest), ?_, hsame.scheme,
      hsame.host, hsame.path, (Url.encodeValue digest).toList, ?_,
      Url.percentDecode_encodeValue (blank_not_mem_of_isAddress hd)⟩
    · show Uri.Reads _ (place ++ _ ++ Url.query [("digest", digest)])
      rw [query_digest]
      exact Uri.reads_withParam hplace (Uri.fragment_settled hplain) hparam
    · have hne : digestParam digest ≠ [] := List.cons_ne_nil _ _
      have hand : '&' ∉ digestParam digest := fun hmem => (mem_digestParam hmem).2 rfl
      rw [Uri.queryParams_withParam _ hne hand, registryRoot, Uri.queryParams_settled hplain]
      rfl

/-- **The last request of an upload keeps its last location.** It is a put at what the location stands
for beside the registry, with the same parameters in its query and one more, which is the digest. It is
sent as soon as the location is accepted, unless the source of the data breaks off. -/
theorem finalPut_place (s : Settings) (ref : Reference) (listens : Bool) (supply : Supply) (w : World)
    (hd : Digest.isAddress digest = true) (hregistry : IsHostName ref.registry) :
    let run := supply.upload s ref digest listens w
    let d := w.dialogue run.2
    let own := ownPart d
    let last := (Chunks.slices s.chunkSize (supply.data d)).length
    ∀ p u, own[last]? = some p → u.Reads p.2.location → u.IsPlain →
      (p.2.status? = some 202 → ¬ supply.Breaks d →
        Url.checkHost (apiHost ref.registry).toList = .ok () →
        Url.checkHost (u.host?.getD []) = .ok () → ∃ q, own[last + 1]? = some q) ∧
      ∀ q, own[last + 1]? = some q →
        Finalizes ((registryRoot s ref.registry).resolve u) u digest q.1 := by
  intro run d own last p u hp hu hplain
  have hf := upload_follows s ref listens supply w hd
  have hclosing : (uploadSteps (Chunks.slices s.chunkSize (supply.data d)))[last + 1]? =
      some .closing := by
    simp [uploadSteps, last]
  constructor
  · intro hstatus hbreaks hhost hname
    obtain ⟨step, hstep, _⟩ := hf.after hp
    obtain ⟨next, hlocate⟩ := locate_isOk (s := s) hregistry hu hplain hhost hname
    obtain ⟨response, hresponse⟩ : ∃ response, p.2 = .response response := by
      cases hanswer : p.2 with
      | fault f => rw [hanswer] at hstatus; exact absurd hstatus nofun
      | response response => exact ⟨response, rfl⟩
    rw [hresponse] at hstatus hlocate
    have haccepted : Accepted s ref p.2 next :=
      ⟨response, hresponse, Option.some.inj hstatus, hlocate⟩
    exact hf.goes_on hbreaks hp hstep hclosing
      ((verdict_eq_ok (uploadSteps_spec hstep hclosing).1).2 haccepted)
  · intro q hq
    obtain ⟨step, step', next, hstep, hstep', hv, hrequest⟩ := hf.next_request hp hq
    cases hclosing.symm.trans hstep'
    obtain ⟨response, hresponse, _, hlocate⟩ :=
      (verdict_eq_ok (uploadSteps_spec hstep hstep').1).1 hv
    rw [hresponse] at hu
    rw [hrequest]
    exact finalizes_uploadEnd hd hregistry hu hplain hlocate

/-- A place on another host, with the state of the upload in its query. -/
def cdnPlace : Uri :=
  ⟨some "HTTPS".toList, some "cdn.example:8443".toList, "/up/7".toList,
    some "state=a%2Fb&&c".toList, none⟩

theorem isSound_cdnPlace : cdnPlace.IsSound where
  scheme := fun _ h => Option.some.inj h ▸ rfl
  host := fun _ h => Option.some.inj h ▸ rfl
  path := rfl
  query := fun _ h => Option.some.inj h ▸ rfl
  fragment := fun _ h => absurd h nofun
  pathAfterHost := fun _ => .inr rfl
  pathAlone := fun h => absurd h nofun
  firstSegment := fun h => absurd h nofun

/-- A registry that takes the data at that place. -/
def cdnWorld : World :=
  .start [continueAt (String.ofList cdnPlace.text), continueAt (String.ofList cdnPlace.text),
    .response ⟨201, [], [], none⟩] ⟨.connection, ""⟩ .unlimited fun _ => ""

/-- The upload is ended there too, and its state is not lost. -/
theorem finalPut_place_cdn :
    Digest.isAddress "sha256:00" = true ∧ IsHostName teamImage.registry ∧ cdnPlace.IsPlain ∧
      let run := (Supply.bytes [1]).upload pairSettings teamImage "sha256:00" false cdnWorld
      let own := ownPart (cdnWorld.dialogue run.2)
      let last := (Chunks.slices 2 [(1 : UInt8)]).length
      ∃ p q, own[last]? = some p ∧ own[last + 1]? = some q ∧ cdnPlace.Reads p.2.location ∧
        p.2.status? = some 202 ∧
        Finalizes ((registryRoot pairSettings teamImage.registry).resolve cdnPlace) cdnPlace
          "sha256:00" q.1 := by
  have hd : Digest.isAddress "sha256:00" = true := by decide +kernel
  have hregistry : IsHostName teamImage.registry := by unfold IsHostName; decide
  have hplain : cdnPlace.IsPlain :=
    Uri.isPlain_of_absolute isSound_cdnPlace (.inl ⟨_, _, rfl⟩) rfl (by decide)
      (by unfold Uri.IsDotless; decide)
  refine ⟨hd, hregistry, hplain, ?_⟩
  intro run own last
  have hp : (own[last]?.map fun p => (p.2.location, p.2.status?)) =
      some (String.ofList cdnPlace.text, some 202) := by decide +kernel
  obtain ⟨p, hp, hanswer⟩ := Option.map_eq_some_iff.1 hp
  obtain ⟨hlocation, hstatus⟩ := Prod.mk.inj hanswer
  have hreads : cdnPlace.Reads p.2.location :=
    ⟨isSound_cdnPlace, by rw [hlocation, String.toList_ofList]⟩
  obtain ⟨hsent, hfinal⟩ := finalPut_place pairSettings teamImage false (.bytes [1]) cdnWorld hd
    hregistry p cdnPlace hp hreads hplain
  obtain ⟨q, hq⟩ := hsent hstatus not_false (by decide) (by decide)
  exact ⟨p, q, hp, hq, hreads, hstatus, hfinal q hq⟩

end Registry

end ImageTransfer
