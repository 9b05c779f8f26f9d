import ImageTransfer.Proofs.Reference.Spelling

/-!
# Printed references are read again

The full text of a reference spells everything out: the registry under its one name, all components of
the repository, and the tag that was taken for granted. So it is the text of a spelling, `full`, in
which nothing is left for a reader to add, and the conventions of the Docker Hub change nothing when
they are applied once more. What is left to show is that this spelling is sound, and its two ends are
the point of that: in front of it stands the registry, and behind it the tag or digest that ended the
text before.
-/

namespace ImageTransfer.Reference

open Text

/-! ## Conventions that are applied twice -/

/-- A registry is the Docker Hub or the host that was written. -/
theorem registryAt_cases (host : Option (List Char)) :
    registryAt host = dockerHub ∨ ∃ cs, host = some cs ∧ registryAt host = String.ofList cs := by
  cases host with
  | none => exact .inl (by decide)
  | some cs =>
      by_cases halias : dockerHubAliases.contains (String.ofList cs) = true
      · exact .inl (if_pos halias)
      · exact .inr ⟨cs, rfl, if_neg halias⟩

theorem registryAt_registryAt (host : Option (List Char)) :
    registryAt (some (registryAt host).toList) = registryAt host := by
  have hname : ∀ name : String, registryAt (some name.toList) =
      if dockerHubAliases.contains name then dockerHub else name := by
    intro name
    rw [registryAt, Option.map_some, Option.getD_some, String.ofList_toList]
  rw [hname]
  by_cases hhub : registryAt host = dockerHub
  · rw [hhub]
    decide
  · refine if_neg ?_
    intro halias
    obtain hhub' | ⟨cs, rfl, hcs⟩ := registryAt_cases host
    · exact hhub hhub'
    · rw [hcs] at halias
      exact hhub (if_pos halias)

theorem componentsAt_componentsAt (registry : String) (path : List (List Char)) :
    componentsAt registry (componentsAt registry path) = componentsAt registry path := by
  rcases path with _ | ⟨name, _ | ⟨second, more⟩⟩
  · rfl
  · by_cases hhub : registry = dockerHub
    · have hlibrary : componentsAt registry [name] = [library, name] := if_pos hhub
      rw [hlibrary]
      rfl
    · have hsame : componentsAt registry [name] = [name] := if_neg hhub
      rw [hsame, hsame]
  · rfl

namespace Spelling

variable {p : Spelling}

/-! ## The full spelling -/

/-- The same reference with nothing left out. -/
def full (p : Spelling) : Spelling where
  host := some (registryAt p.host).toList
  path := p.components
  tag := p.reference.tag.map String.toList
  digest := p.digest

theorem full_reference (p : Spelling) : p.full.reference = p.reference := by
  have hcomponents : p.full.components = p.components := by
    show componentsAt (registryAt (some (registryAt p.host).toList))
      (componentsAt (registryAt p.host) p.path) = _
    rw [registryAt_registryAt, componentsAt_componentsAt]
    rfl
  have htag : p.full.reference.tag = p.reference.tag := by
    show (if (p.reference.tag.map String.toList).isNone && p.digest.isNone then some defaultTag
      else (p.reference.tag.map String.toList).map String.ofList) = p.reference.tag
    cases hwritten : p.reference.tag with
    | some tag => simp
    | none =>
        -- then the image is pinned to a digest, which is not left out
        cases hdigest : p.digest with
        | some digest => rfl
        | none =>
            rw [reference, hdigest] at hwritten
            cases htag : p.tag with
            | none =>
                rw [htag] at hwritten
                cases hwritten
            | some tag =>
                rw [htag] at hwritten
                cases hwritten
  have hregistry : p.full.reference.registry = p.reference.registry := registryAt_registryAt p.host
  have hrepository : p.full.reference.repository = p.reference.repository :=
    congrArg (fun cs => String.ofList (joinWith '/' cs)) hcomponents
  have hdigest : p.full.reference.digest = p.reference.digest := rfl
  calc p.full.reference
      = ⟨p.full.reference.registry, p.full.reference.repository, p.full.reference.tag,
          p.full.reference.digest⟩ := rfl
    _ = p.reference := by rw [hregistry, hrepository, htag, hdigest]

/-- **The text of a reference is its full spelling.** -/
theorem text_reference (h : p.Sound) : p.reference.text = String.ofList p.full.chars := by
  have hlocated : p.full.located = (registryAt p.host).toList ++ '/' :: joinWith '/' p.components := by
    show joinWith '/' ([(registryAt p.host).toList] ++ p.components) = _
    rw [List.singleton_append, joinWith_cons (components_ne_nil h)]
  have hdigest : p.reference.digest = p.full.digest.map String.ofList := rfl
  have hregistry : p.reference.registry = registryAt p.host := rfl
  apply String.toList_injective
  rw [String.toList_ofList, chars, named, hlocated, text, hdigest, hregistry]
  show _ = _ ++ ((p.reference.tag.map String.toList).map (':' :: ·)).getD [] ++ _
  cases p.reference.tag with
  | none =>
      cases p.full.digest with
      | none => simp [toList_repository]
      | some digest => simp [toList_repository]
  | some tag =>
      cases p.full.digest with
      | none => simp [toList_repository]
      | some digest => simp [toList_repository]

/-! ## The full spelling is sound -/

/-- What comes after the path. -/
def ending (p : Spelling) : List Char :=
  (p.tag.map (':' :: ·)).getD [] ++ (p.digest.map ('@' :: ·)).getD []

theorem chars_eq (p : Spelling) : p.chars = p.located ++ p.ending := List.append_assoc _ _ _

/-- The text ends in what ended it before, or in the tag that was taken for granted. -/
theorem ending_full (p : Spelling) :
    (p.full.ending = p.ending ∧ p.ending ≠ []) ∨ p.full.ending = ':' :: defaultTag.toList := by
  have hfull : p.full.ending = ((p.reference.tag.map String.toList).map (':' :: ·)).getD [] ++
      (p.digest.map ('@' :: ·)).getD [] := rfl
  rw [hfull, reference, ending]
  cases p.tag with
  | some tag =>
      left
      simp
  | none =>
      cases p.digest with
      | some digest =>
          left
          simp
      | none =>
          right
          rfl

/-- A registry looks like a host, and has none of the marks that a reference is cut at. -/
theorem Sound.registry (h : p.Sound) : isHost (registryAt p.host).toList = true ∧
    '/' ∉ (registryAt p.host).toList ∧ '@' ∉ (registryAt p.host).toList := by
  obtain hhub | ⟨cs, hcs, hregistry⟩ := registryAt_cases p.host
  · rw [hhub]
    decide
  · rw [hregistry, String.toList_ofList]
    exact h.host cs hcs

/-- No blank stands before a registry. -/
theorem Sound.registry_head (h : p.Sound) {c : Char}
    (hc : (registryAt p.host).toList.head? = some c) : isBlank c.toNat = false := by
  obtain hhub | ⟨cs, hcs, hregistry⟩ := registryAt_cases p.host
  · rw [hhub] at hc
    cases hc
    decide
  · rw [hregistry, String.toList_ofList] at hc
    have hfirst := (trimBlank_eq_self.1 h.edges).1 c
    have hlocated : p.located = cs ++ '/' :: joinWith '/' p.path := by
      rw [located, hcs, Option.toList_some, List.singleton_append, joinWith_cons h.path]
    rw [chars_eq, hlocated, List.head?_append, List.head?_append, hc] at hfirst
    exact hfirst rfl

theorem Sound.edges_full (h : p.Sound) : trimBlank Char.toNat p.full.chars = p.full.chars := by
  have hlast := (trimBlank_eq_self.1 h.edges).2
  rw [trimBlank_eq_self]
  constructor
  · intro c hc
    have hregistry : (registryAt p.host).toList ≠ [] := by
      intro hnil
      have hlooks := h.registry.1
      rw [hnil] at hlooks
      exact absurd hlooks (by decide)
    obtain ⟨first, rest, hcons⟩ := List.exists_cons_of_ne_nil hregistry
    have hhead : p.full.chars.head? = some first := by
      rw [chars_eq]
      show (joinWith '/' ([(registryAt p.host).toList] ++ p.components) ++ _).head? = _
      rw [List.singleton_append, joinWith_cons (components_ne_nil h), hcons]
      rfl
    rw [hhead] at hc
    cases hc
    exact h.registry_head (by rw [hcons]; rfl)
  · intro c hc
    rw [chars_eq] at hc
    obtain ⟨hending, hne⟩ | hending := p.ending_full
    · apply hlast
      rw [hending, List.getLast?_append, List.getLast?_eq_some_getLast hne, Option.some_or] at hc
      rw [chars_eq, List.getLast?_append, List.getLast?_eq_some_getLast hne, Option.some_or, hc]
    · rw [hending, List.getLast?_append] at hc
      have hlatest : c = 't' := by simpa [defaultTag] using hc.symm
      rw [hlatest]
      decide

theorem Sound.full (h : p.Sound) : p.full.Sound where
  host := by
    rintro _ ⟨⟩
    exact h.registry
  path := components_ne_nil h
  components := components_sound h
  hostless := nofun
  tag := by
    intro tag htag
    obtain ⟨written, hwritten, rfl⟩ := Option.map_eq_some_iff.1 htag
    exact isTag_of_reference h hwritten
  digest := h.digest
  edges := h.edges_full

end Spelling

/-- **A reference that was read and is printed is read as the same reference**: the registry, the
repository, the tag and the digest come back. -/
theorem parse_text {text : String} {r : Reference} (h : parse text = .ok r) : parse r.text = .ok r := by
  obtain ⟨p, hp, -, rfl⟩ := parse_eq_ok.1 h
  have hread := hp.full.parse_chars
  rwa [← Spelling.text_reference hp, Spelling.full_reference] at hread

/-- So is an official image under another name of the Docker Hub, which is printed with all that its
text leaves out. -/
theorem parse_text_official :
    parse "index.docker.io/nginx" = .ok ⟨"docker.io", "library/nginx", some "latest", none⟩ ∧
      parse "docker.io/library/nginx:latest" =
        .ok ⟨"docker.io", "library/nginx", some "latest", none⟩ := by
  have hread : parse "index.docker.io/nginx" =
      .ok ⟨"docker.io", "library/nginx", some "latest", none⟩ := by
    decide +kernel
  exact ⟨hread, parse_text hread⟩

end ImageTransfer.Reference
