import ImageTransfer.Proofs.Image.Refusals
import ImageTransfer.Proofs.Registry.Requests
import ImageTransfer.Proofs.Text.Split

/-!
# Which responses are manifests

A registry says in up to three places what it serves: in a field of the response, in the body, and by
the shape of the body. `Yields` is what a response has to be like for a manifest to come of it, and
says which manifest that is.

Types that are no list's are not looked at further: a manifest of any type that is not known is let
through (`getManifest_foreignType`).
-/

namespace ImageTransfer

open Json

namespace Registry

open Exchange

/-- What a response has to be like for a manifest to come of it, and which one does. -/
structure Yields (response : Response) (m : Manifest) : Prop where
  status : response.status = 200
  whole : response.broken = none
  document : readDocument response.body = .ok (.object m.members)
  version : Manifest.HasVersion m.members
  /-- The body holds no list of manifests. -/
  single : Members.get? m.members (Text.ofString "manifests") = none
  /-- The field of the response goes before what the body says. -/
  mediaType : m.mediaType = Manifest.typeOf (contentType response) m.members
  notList : ¬ Manifest.IsListType m.mediaType
  /-- The bytes are kept as they came. -/
  raw : m.raw = response.body

variable {response : Response} {m : Manifest} {e : Failure} {ref : Reference}

theorem serves_iff_yields : (Answer.response response).Serves m ↔ Yields response m := by
  constructor
  · rintro ⟨_, hr, hstatus, hwhole, hm⟩
    cases hr
    obtain ⟨hread, hversion, hlist, htype, hraw⟩ := Manifest.ofBytes_eq_ok.1 hm
    rw [Manifest.IsList, not_or] at hlist
    exact ⟨hstatus, hwhole, hread, hversion, by simpa using hlist.2, htype, htype ▸ hlist.1, hraw⟩
  · intro h
    refine ⟨response, rfl, h.status, h.whole, Manifest.ofBytes_eq_ok.2
      ⟨h.document, h.version, ?_, h.mediaType, h.raw⟩⟩
    rintro (hlist | hlist)
    · exact h.notList (h.mediaType ▸ hlist)
    · rw [h.single] at hlist
      cases hlist

/-- What a manifest that is not got fails with: the status comes first, then the body has to arrive,
and then to be a manifest. -/
theorem manifestOutcome_eq_error (h : manifestOutcome ref (.response response) = .error e) :
    (response.status ≠ 200 ∧ e.kind = if response.status = 404 then .missing else .manifest) ∨
    (response.status = 200 ∧ ∃ f, response.broken = some f ∧
      e = f.failure (.manifestFetch ref.text)) ∨
    (response.status = 200 ∧ response.broken = none ∧ ∃ e', e = .manifest e' ∧
      Manifest.ofBytes response.body (contentType response) = .error e') := by
  rcases bind_eq_error.1 h with hserved | ⟨⟨raw, mediaType⟩, hserved, hread⟩
  · by_cases hstatus : response.status ∈ [200]
    · have hbody : (wholeBody response (.manifestFetch ref.text) >>= fun raw =>
          pure (raw, contentType response)) = .error e := by
        rcases bind_eq_error.1 hserved with hchecked | ⟨_, -, hbody⟩
        · cases (checkStatus_of_mem hstatus).symm.trans hchecked
        · exact hbody
      rcases bind_eq_error.1 hbody with hbroken | ⟨_, -, hpure⟩
      · unfold wholeBody at hbroken
        split at hbroken
        · cases hbroken
        · rename_i f hf
          cases hbroken
          exact .inr (.inl ⟨List.mem_singleton.1 hstatus, f, hf, rfl⟩)
      · cases hpure
    · obtain ⟨e', he', hkind⟩ := checkStatus_refused s!"Manifest {ref}" .manifest hstatus
      rcases bind_eq_error.1 hserved with hchecked | ⟨_, hchecked, -⟩
      · cases he'.symm.trans hchecked
        exact .inl ⟨mt List.mem_singleton.2 hstatus, hkind⟩
      · cases he'.symm.trans hchecked
  · obtain ⟨hstatus, hbody⟩ := expect_bind_ok.1 hserved
    obtain ⟨_, hwhole, hpure⟩ := bind_eq_ok.1 hbody
    obtain ⟨hbroken, rfl⟩ := wholeBody_eq_ok.1 hwhole
    cases hpure
    obtain ⟨e', he', rfl⟩ := mapError_eq_error.1 hread
    exact .inr (.inr ⟨List.mem_singleton.1 hstatus, hbroken, e', rfl, he'⟩)

/-- The answer of a script is the one that is heard. -/
theorem getManifest_answered (s : Settings) (ref : Reference) (w : World) (response : Response) :
    let asked := w.answering 0 (.response response)
    let run := getManifest s ref asked
    Talk asked [(manifestRequest s ref, .response response)] run.2 ∧
      run.1 = manifestOutcome ref (.response response) := by
  intro asked run
  obtain ⟨a, ht, -, hr⟩ := getManifest_outcome (rfl : run = (run.1, run.2))
  have hheard : [a] = [Answer.response response] := ht.heard
  cases hheard
  exact ⟨ht, hr⟩

/-- An object is refused as a manifest in words. -/
theorem kind_of_object {members : Members} {served : String} {e' : Manifest.Error}
    (hread : readDocument response.body = .ok (.object members))
    (h : Manifest.ofBytes response.body served = .error e') :
    (Failure.manifest e').kind = .manifest := by
  rcases Manifest.ofBytes_object served hread with
    ⟨_, v, hv⟩ | ⟨_, _, v, hv⟩ | ⟨_, _, hv⟩
  · cases h.symm.trans hv
    rfl
  · cases h.symm.trans hv
    rfl
  · cases h.symm.trans hv

/-- **Which responses are manifests.** Of the response to the one request that is sent, a manifest
comes exactly if `Yields` says so: it is a success, the body arrives and is an object of the right
version, and it is a list of manifests neither by its type nor by what is in it; the type is the
response's, else the body's own, else the one that stands in for both. Every other response is a
failure. One that says that the manifest is not there is told apart, and all others are failures of
the manifest, except that the machine may break off the body and that the reader of JSON has limits:
an object, such as a list of manifests, exceeds none. -/
theorem getManifest_verdict (s : Settings) (ref : Reference) (w : World) (response : Response) :
    let asked := w.answering 0 (.response response)
    let run := getManifest s ref asked
    asked.requestsSince run.2 = [manifestRequest s ref] ∧
    (∀ m, run.1 = .ok m ↔ Yields response m) ∧
    ∀ e, run.1 = .error e →
      (response.status = 404 → e.kind = .missing) ∧
      (response.status ≠ 404 → e.kind = .manifest ∨
        (∃ f, response.broken = some f ∧ f.isNetwork = false ∧ e = .system f.text) ∨
        (ExceedsLimit response.body e.kind ∧
          ∀ members, readDocument response.body ≠ .ok (.object members))) ∧
      (response.status ≠ 404 → response.status ≠ 200 → e.kind = .manifest) := by
  intro asked run
  obtain ⟨ht, hr⟩ := getManifest_answered s ref w response
  refine ⟨ht.requestsSince_eq, fun m => ?_, fun e he => ?_⟩
  · rw [show run.1 = _ from hr, manifestOutcome_eq_ok, serves_iff_yields]
  · rcases manifestOutcome_eq_error (hr.symm.trans he) with
      ⟨_, hkind⟩ | ⟨hs, f, hf, rfl⟩ | ⟨hs, _, e', rfl, hm⟩
    · refine ⟨fun hs => ?_, fun hs => .inl ?_, fun hs _ => ?_⟩
      · rwa [if_pos hs] at hkind
      · rwa [if_neg hs] at hkind
      · rwa [if_neg hs] at hkind
    · refine ⟨fun h => absurd (hs.symm.trans h) (by decide), fun _ => ?_, fun _ h => absurd hs h⟩
      rw [Fault.failure]
      by_cases hn : f.isNetwork = true
      · rw [if_pos hn]
        exact .inl rfl
      · rw [if_neg hn]
        exact .inr (.inl ⟨f, hf, by simpa using hn, rfl⟩)
    · refine ⟨fun h => absurd (hs.symm.trans h) (by decide), fun _ => ?_, fun _ h => absurd hs h⟩
      by_cases hread : ∃ members, readDocument response.body = .ok (.object members)
      · obtain ⟨members, hread⟩ := hread
        exact .inl (kind_of_object hread hm)
      · rcases Manifest.kind_of_ofBytes hm with hkind | hlimit
        · exact .inl hkind
        · exact .inr (.inr ⟨hlimit, not_exists.1 hread⟩)

/-- The members of a manifest that says no more than its version. -/
def bareMembers : Members := [(Text.ofString "schemaVersion", .integer Manifest.schemaVersion)]

/-- This manifest, served as one of a format that came before. -/
def foreignResponse : Response :=
  ⟨200, [("Content-Type", "application/vnd.docker.distribution.manifest.v1+json")],
    Text.utf8OfString "\x7b\"schemaVersion\":2\x7d", none⟩

theorem readDocument_foreignResponse :
    readDocument foreignResponse.body = .ok (.object bareMembers) := by
  have hlegible : Legible nestingLimit (.object bareMembers) :=
    .object (by decide) (List.forall_mem_singleton.2 (legible_small _ (by decide)))
  have hwritten : document (.object bareMembers) = .ok foreignResponse.body := by cbv
  exact readDocument_object hlegible hwritten

/-- A manifest of a type that is no image's is not refused. -/
theorem getManifest_foreignType :
    ∃ m, (getManifest ⟨60, 2, 2, [], .warn, by decide, by decide, by decide⟩
        ⟨"r.io", "a/b", some "v1", none⟩
        (World.start [.response foreignResponse] ⟨.client, ""⟩ .unlimited Nat.repr)).1 = .ok m ∧
      m.mediaType = .ofString "application/vnd.docker.distribution.manifest.v1+json" ∧
      ¬ Manifest.IsImageType m.mediaType := by
  have htype : contentType foreignResponse =
      "application/vnd.docker.distribution.manifest.v1+json" := by decide +kernel
  refine ⟨⟨foreignResponse.body, bareMembers, .ofString (contentType foreignResponse)⟩, ?_, ?_, ?_⟩
  · have hr := (getManifest_answered ⟨60, 2, 2, [], .warn, by decide, by decide, by decide⟩
      ⟨"r.io", "a/b", some "v1", none⟩ (.start [] ⟨.client, ""⟩ .unlimited Nat.repr)
      foreignResponse).2
    refine hr.trans (manifestOutcome_eq_ok.2 (serves_iff_yields.2 ?_))
    exact {
      status := rfl
      whole := rfl
      document := readDocument_foreignResponse
      version := ⟨_, rfl, rfl⟩
      single := rfl
      mediaType := by rw [Manifest.typeOf, if_pos (by rw [htype]; decide)]
      notList := by
        rw [htype]
        exact mt Value.exists_ofString_iff.1 (by decide)
      raw := rfl }
  · rw [htype]
  · rw [htype]
    exact mt Value.exists_ofString_iff.1 (by decide)

end Registry

end ImageTransfer
