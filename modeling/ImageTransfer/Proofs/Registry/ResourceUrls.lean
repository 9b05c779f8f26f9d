import ImageTransfer.Proofs.Reference.Printing
import ImageTransfer.Proofs.Registry.Requests
import ImageTransfer.Proofs.Registry.UploadPlaces

/-!
# Different resources are at different places

The address of a manifest or blob is put together from a host, the path of a repository, and a tag or
digest, none of them escaped. A repository may have components that are called as the parts around it,
so what an address says has to be read from both ends: the host comes before the first slash, the name
after the last one, and the kind before that (`Resource.ofUrl?`). What is left is the repository,
whatever it consists of.

The Docker Hub is reached at another host than the one that its references name, and no reference that
was read names that one (`parse_registry`).
-/

namespace ImageTransfer

open Exchange Reference

namespace Registry

/-- What an address at a registry says. -/
structure Resource where
  host : List Char
  repository : List Char
  kind : List Char
  name : List Char

/-- What is read off an address. -/
def Resource.ofUrl? (url : String) : Option Resource := do
  let rest ← (Text.splitFirst ':' url.toList).2
  let (host, path?) := Text.splitFirst '/' (rest.drop "//".length)
  let path ← path?
  let (before, name) ← Text.splitLast? '/' (path.drop "v2/".length)
  let (repository, kind) ← Text.splitLast? '/' before
  return ⟨host, repository, kind, name⟩

variable {s : Settings} {ref : Reference} {kind name : String}

theorem apiHost_noSlash {registry : String} (h : '/' ∉ registry.toList) :
    '/' ∉ (apiHost registry).toList := by
  unfold apiHost
  split
  · decide
  · exact h

/-- The parts of an address, as they are cut. -/
theorem toList_urlOf (s : Settings) (ref : Reference) (kind name : String) :
    (urlOf s ref (kind ++ "/" ++ name)).toList =
      (if s.isPlain (apiHost ref.registry) then "http" else "https").toList ++ ':' :: ("//".toList ++
        ((apiHost ref.registry).toList ++ '/' :: ("v2/".toList ++
          ((ref.repository.toList ++ '/' :: kind.toList) ++ '/' :: name.toList)))) := by
  show ((if s.isPlain (apiHost ref.registry) then "http" else "https") ++ "://" ++
    apiHost ref.registry ++ "/v2/" ++ ref.repository ++ "/" ++ (kind ++ "/" ++ name)).toList = _
  simp [String.toList_append]

/-- **An address is read as what it was put together from.** -/
theorem ofUrl?_urlOf (s : Settings) (hhost : '/' ∉ ref.registry.toList) (hkind : '/' ∉ kind.toList)
    (hname : '/' ∉ name.toList) : Resource.ofUrl? (urlOf s ref (kind ++ "/" ++ name)) =
      some ⟨(apiHost ref.registry).toList, ref.repository.toList, kind.toList, name.toList⟩ := by
  have hscheme : ':' ∉ (if s.isPlain (apiHost ref.registry) then "http" else "https").toList := by
    split <;> decide
  rw [Resource.ofUrl?, toList_urlOf, Text.splitFirst_append hscheme, Option.bind_eq_bind,
    Option.bind_some, List.drop_left' (by rfl), Text.splitFirst_append (apiHost_noSlash hhost)]
  dsimp only
  rw [Option.bind_eq_bind, Option.bind_some, List.drop_left' (by rfl),
    Text.splitLast?_append _ hname, Option.bind_some]
  dsimp only
  rw [Text.splitLast?_append _ hkind]
  rfl

/-! ## References that were read -/

/-- A registry that was read has no slash, and is not the host by which the Docker Hub is reached. -/
theorem parse_registry {text : String} (h : parse text = .ok ref) :
    '/' ∉ ref.registry.toList ∧ ref.registry ≠ dockerHubHost := by
  obtain ⟨p, hp, -, rfl⟩ := parse_eq_ok.1 h
  refine ⟨hp.registry.2.1, fun hhost => ?_⟩
  -- that host is another name of the Docker Hub
  obtain hhub | ⟨cs, hcs, hregistry⟩ := registryAt_cases p.host
  · exact absurd (hhub.symm.trans hhost) (by decide)
  · have hname : String.ofList cs = dockerHubHost := hregistry.symm.trans hhost
    have hhub : registryAt p.host = dockerHub := by
      rw [registryAt, hcs, Option.map_some, Option.getD_some, hname]
      decide
    exact absurd (hhub.symm.trans hhost) (by decide)

theorem noSlash_of_isAddress {digest : String} (h : Digest.isAddress digest = true) :
    '/' ∉ digest.toList :=
  not_mem_of_isAddress h (by decide) (by decide) (by decide) (by decide)

/-- Neither a tag nor a digest has a slash. -/
theorem parse_manifestReference {text : String} (h : parse text = .ok ref) :
    '/' ∉ ref.manifestReference.toList := by
  obtain ⟨p, hp, -, rfl⟩ := parse_eq_ok.1 h
  cases hdigest : p.digest with
  | some digest =>
      have hname : p.reference.manifestReference = String.ofList digest := by
        rw [manifestReference, Spelling.reference, hdigest]
        rfl
      rw [hname]
      exact noSlash_of_isAddress (hp.digest digest hdigest)
  | none =>
      have hname : p.reference.manifestReference = p.reference.tag.getD "" := by
        rw [manifestReference, Spelling.reference, hdigest]
        rfl
      rw [hname]
      cases htag : p.reference.tag with
      | none => decide
      | some tag =>
          exact not_mem_of_isNameChar (isNameChar_of_isTag (Spelling.isTag_of_reference hp htag))
            (by decide)

/-- Registries that were read are told apart by the hosts at which they are reached. -/
theorem apiHost_inj {registry registry' : String} (h : registry ≠ dockerHubHost)
    (h' : registry' ≠ dockerHubHost) :
    apiHost registry = apiHost registry' ↔ registry = registry' := by
  refine ⟨fun heq => ?_, congrArg apiHost⟩
  unfold apiHost at heq
  split at heq
  · rename_i hhub
    split at heq
    · rename_i hhub'
      exact hhub.trans hhub'.symm
    · exact absurd heq.symm h'
  · split at heq
    · exact absurd heq h
    · exact heq

/-! ## Places of resources -/

section

variable {text text' : String} {ref' : Reference} {name' : String}

/-- **Two resources at one place are the same**: they agree on the registry, the repository, the kind
and the name. -/
theorem urlOf_inj (s : Settings) (h : parse text = .ok ref) (h' : parse text' = .ok ref')
    (kind kind' : String) (hkind : '/' ∉ kind.toList) (hkind' : '/' ∉ kind'.toList)
    (hname : '/' ∉ name.toList) (hname' : '/' ∉ name'.toList) :
    urlOf s ref (kind ++ "/" ++ name) = urlOf s ref' (kind' ++ "/" ++ name') ↔
      ref.registry = ref'.registry ∧ ref.repository = ref'.repository ∧ kind = kind' ∧
        name = name' := by
  constructor
  · intro heq
    have hread := ofUrl?_urlOf s (parse_registry h).1 hkind hname
    rw [heq, ofUrl?_urlOf s (parse_registry h').1 hkind' hname'] at hread
    obtain ⟨hhost, hrepository, hkinds, hnames⟩ := Resource.mk.inj (Option.some.inj hread)
    refine ⟨?_, String.toList_inj.1 hrepository.symm, String.toList_inj.1 hkinds.symm,
      String.toList_inj.1 hnames.symm⟩
    exact (apiHost_inj (parse_registry h).2 (parse_registry h').2).1 (String.toList_inj.1 hhost.symm)
  · rintro ⟨hregistry, hrepository, rfl, rfl⟩
    rw [urlOf, urlOf, hregistry, hrepository]

theorem manifestUrl_inj (s : Settings) (h : parse text = .ok ref) (h' : parse text' = .ok ref') :
    manifestUrl s ref = manifestUrl s ref' ↔ ref.registry = ref'.registry ∧
      ref.repository = ref'.repository ∧ ref.manifestReference = ref'.manifestReference := by
  refine (urlOf_inj s h h' "manifests" "manifests" (by decide) (by decide)
    (parse_manifestReference h) (parse_manifestReference h')).trans ?_
  rw [eq_self, true_and]

theorem blobUrl_inj (s : Settings) (h : parse text = .ok ref) (h' : parse text' = .ok ref')
    {digest digest' : String} (hd : Digest.isAddress digest = true)
    (hd' : Digest.isAddress digest' = true) : blobUrl s ref digest = blobUrl s ref' digest' ↔
      ref.registry = ref'.registry ∧ ref.repository = ref'.repository ∧ digest = digest' := by
  refine (urlOf_inj s h h' "blobs" "blobs" (by decide) (by decide) (noSlash_of_isAddress hd)
    (noSlash_of_isAddress hd')).trans ?_
  rw [eq_self, true_and]

/-- A manifest is never where a blob is. -/
theorem manifestUrl_ne_blobUrl (s : Settings) (h : parse text = .ok ref)
    (h' : parse text' = .ok ref') {digest : String} (hd : Digest.isAddress digest = true) :
    manifestUrl s ref ≠ blobUrl s ref' digest := by
  intro heq
  have hkinds := (urlOf_inj s h h' "manifests" "blobs" (by decide) (by decide)
    (parse_manifestReference h) (noSlash_of_isAddress hd)).1 heq
  exact absurd hkinds.2.2.1 (by decide)

end

/-! ## Requests -/

/-- The addresses that a run in a world has sent requests to. -/
def asked {α : Type} (w : World) (run : Except Failure α × World) : List String :=
  (w.requestsSince run.2).map (·.url)

theorem asked_of_talk {α : Type} {w : World} {run : Except Failure α × World} {q : Request}
    {a : Answer} (h : Talk w [(q, a)] run.2) : asked w run = [q.url] := by
  rw [asked, h.requestsSince_eq]
  rfl

theorem asked_getManifest (s : Settings) (ref : Reference) (w : World) :
    asked w (getManifest s ref w) = [manifestUrl s ref] := by
  obtain ⟨a, ht, -⟩ := getManifest_outcome (rfl : getManifest s ref w = (_, _))
  exact asked_of_talk ht

theorem asked_hasBlob (s : Settings) (ref : Reference) (digest : String) (w : World) :
    asked w (hasBlob s ref digest w) = [blobUrl s ref digest] := by
  obtain ⟨a, ht, -⟩ := hasBlob_cases (rfl : hasBlob s ref digest w = (_, _))
  exact asked_of_talk ht

theorem asked_readBlob (s : Settings) (ref : Reference) {digest : String}
    (hd : Digest.isAddress digest = true) (accept : List String) (w : World) :
    asked w (readBlob s ref digest accept w) = [blobUrl s ref digest] := by
  rcases readBlob_outcome (rfl : readBlob s ref digest accept w = (_, _)) with
    ⟨hnot, -⟩ | ⟨-, a, ht, -⟩
  · cases hd.symm.trans hnot
  · exact asked_of_talk ht

/-- **No two resources are at one place.** Of two references that were read, the manifests are asked
for at the same address exactly if the references agree on the registry, the repository and what
addresses the manifest; and blobs of theirs are asked for at the same address exactly if the references
agree on the registry and the repository, and the digests are the same. A manifest and a blob are never
asked for at the same address. -/
theorem resources_apart (s : Settings) {text text' : String} {ref ref' : Reference}
    (h : parse text = .ok ref) (h' : parse text' = .ok ref') (w w' : World) :
    (asked w (getManifest s ref w) = asked w' (getManifest s ref' w') ↔
      ref.registry = ref'.registry ∧ ref.repository = ref'.repository ∧
        ref.manifestReference = ref'.manifestReference) ∧
    ∀ digest digest', Digest.isAddress digest = true → Digest.isAddress digest' = true →
      ∀ accept accept',
        (asked w (readBlob s ref digest accept w) = asked w' (readBlob s ref' digest' accept' w') ↔
          ref.registry = ref'.registry ∧ ref.repository = ref'.repository ∧ digest = digest') ∧
        asked w (hasBlob s ref digest w) = asked w (readBlob s ref digest accept w) ∧
        asked w (getManifest s ref w) ≠ asked w' (readBlob s ref' digest' accept' w') := by
  refine ⟨?_, fun digest digest' hd hd' accept accept' => ⟨?_, ?_, ?_⟩⟩
  · rw [asked_getManifest, asked_getManifest, List.singleton_inj, manifestUrl_inj s h h']
  · rw [asked_readBlob s ref hd, asked_readBlob s ref' hd', List.singleton_inj,
      blobUrl_inj s h h' hd hd']
  · rw [asked_hasBlob, asked_readBlob s ref hd]
  · rw [asked_getManifest, asked_readBlob s ref' hd', Ne, List.singleton_inj]
    exact manifestUrl_ne_blobUrl s h h' hd'

/-- Two texts for one repository of the Docker Hub, whose components are called as the parts around
them. -/
theorem resources_apart_hub :
    let s : Settings := ⟨60, 2, 2, [], .warn, by decide, by decide, by decide⟩
    let w := World.start [] ⟨.client, ""⟩ .unlimited Nat.repr
    let ref : Reference := ⟨"docker.io", "v2/manifests", some "blobs", none⟩
    let ref' : Reference := ⟨"docker.io", "v2/manifests", none, some "sha256:00"⟩
    parse "index.docker.io/v2/manifests:blobs" = .ok ref ∧
      parse "registry-1.docker.io/v2/manifests@sha256:00" = .ok ref' ∧
      Digest.isAddress "sha256:00" = true ∧
      asked w (getManifest s ref w) ≠ asked w (getManifest s ref' w) ∧
      asked w (readBlob s ref "sha256:00" [] w) = asked w (readBlob s ref' "sha256:00" [] w) := by
  intro s w ref ref'
  have h : parse "index.docker.io/v2/manifests:blobs" = .ok ref := by decide +kernel
  have h' : parse "registry-1.docker.io/v2/manifests@sha256:00" = .ok ref' := by decide +kernel
  have hd : Digest.isAddress "sha256:00" = true := by decide +kernel
  obtain ⟨hmanifests, hblobs⟩ := resources_apart s h h' w w
  refine ⟨h, h', hd, mt hmanifests.1 ?_, (hblobs "sha256:00" "sha256:00" hd hd [] []).1.2 ?_⟩
  · rintro ⟨-, -, hname⟩
    exact absurd hname (by decide)
  · exact ⟨rfl, rfl, rfl⟩

end Registry

end ImageTransfer
