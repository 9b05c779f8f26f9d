import ImageTransfer.Proofs.Reference.Spelling

/-!
# Short names that are read again

The name that people know an image by leaves out what a reader adds again: the host of the Docker Hub,
and the `library/` of official images. A reader adds the library only to a path of one component, and
takes a first component that looks like a host for one. So the short name of an image of the Docker Hub
is read as another image if more than one component comes after the library, or if the first component
that is left looks like a host. All other names are read as what they were printed from.

Both sides are spellings (`Spelling.retagged`, `Spelling.ofParts`), so that what is read is known from
`Spelling.Sound.parse_chars`, and only lists of components are left to compare.
-/

namespace ImageTransfer.Reference

open Text

/-! ## Texts that end in a tag -/

theorem not_isBlank_of_isTagChar {c : Char} (h : isTagChar c = true) : isBlank c.toNat = false := by
  have hsmall : c.toNat < 128 := by
    unfold isTagChar isTagStart at h
    simp only [Bool.or_eq_true, Bool.and_eq_true, decide_eq_true_eq, beq_iff_eq] at h
    rcases h with ((((⟨_, h⟩ | ⟨_, h⟩) | ⟨_, h⟩) | rfl) | rfl) | rfl
    · exact Nat.lt_of_le_of_lt h (by decide)
    · exact Nat.lt_of_le_of_lt h (by decide)
    · exact Nat.lt_of_le_of_lt h (by decide)
    · decide
    · decide
    · decide
  have hall : ∀ n : Fin 128, isTagChar (Char.ofNat n) = true → isBlank n = false := by decide
  have hc : Char.ofNat c.toNat = c := Char.ofNat_toNat c
  exact hall ⟨c.toNat, hsmall⟩ (by rw [hc]; exact h)

/-- A tag is a line of characters of tags, or such a line and its break. -/
theorem isTag_cases {tag : List Char} (h : isTag tag = true) :
    (tag ≠ [] ∧ ∀ c ∈ tag, isTagChar c = true) ∨ ∃ line, tag = line ++ ['\n'] := by
  rcases Digest.dropFinalNewline_cases tag with heq | heq
  · left
    unfold isTag at h
    rw [← heq] at h
    split at h
    · exact absurd h nofun
    · rename_i first rest
      rw [Bool.and_eq_true, Bool.and_eq_true] at h
      refine ⟨List.cons_ne_nil _ _, fun c hc => ?_⟩
      rcases List.mem_cons.1 hc with rfl | hc
      · rw [isTagChar, h.1.1]
        rfl
      · exact List.all_eq_true.1 h.1.2 c hc
  · exact .inr ⟨_, heq⟩

theorem isTag_line {tag : List Char} (h : isTag tag = true) (hline : '\n' ∉ tag) :
    tag ≠ [] ∧ ∀ c ∈ tag, isTagChar c = true := by
  rcases isTag_cases h with hall | ⟨line, rfl⟩
  · exact hall
  · exact absurd (List.mem_append_right _ List.mem_cons_self) hline

namespace Spelling

variable {p : Spelling} {pieces : List (List Char)} {tag : List Char}

theorem chars_tagged (htag : p.tag = some tag) (hdigest : p.digest = none) :
    p.chars = p.located ++ ':' :: tag := by
  rw [chars, named, htag, hdigest]
  exact List.append_nil _

/-- A text that ends in a tag has no blank at its end, so only the first character is to be checked. -/
theorem edges_tagged (htag : p.tag = some tag) (hdigest : p.digest = none) (hsound : isTag tag = true)
    (hline : '\n' ∉ tag) (hne : p.located ≠ [])
    (hfirst : ∀ c, p.located.head? = some c → isBlank c.toNat = false) :
    trimBlank Char.toNat p.chars = p.chars := by
  obtain ⟨hempty, hchars⟩ := isTag_line hsound hline
  rw [chars_tagged htag hdigest, trimBlank_eq_self]
  refine ⟨fun c hc => hfirst c ?_, fun c hc => ?_⟩
  · rwa [List.head?_append, List.head?_eq_some_head hne, Option.some_or,
      ← List.head?_eq_some_head hne] at hc
  · rw [List.getLast?_append, List.getLast?_cons_of_ne_nil hempty,
      List.getLast?_eq_some_getLast hempty, Option.some_or] at hc
    cases hc
    exact not_isBlank_of_isTagChar (hchars _ (List.getLast_mem hempty))

/-- The same place under a tag alone. -/
def retagged (p : Spelling) (tag : List Char) : Spelling := ⟨p.host, p.path, some tag, none⟩

theorem Sound.retagged (h : p.Sound) (htag : isTag tag = true) (hline : '\n' ∉ tag) :
    (p.retagged tag).Sound where
  host := h.host
  path := h.path
  components := h.components
  hostless := h.hostless
  tag := by
    rintro _ ⟨⟩
    exact htag
  digest := nofun
  edges := by
    refine edges_tagged rfl rfl htag hline h.located_ne_nil fun c hc => ?_
    have hfirst := (trimBlank_eq_self.1 h.edges).1 c
    change p.located.head? = some c at hc
    rw [chars, named, List.head?_append, List.head?_append, hc] at hfirst
    exact hfirst rfl

/-- Components under a tag are read, though the first of them may be taken for a host. -/
theorem sound_components (hne : pieces ≠ []) (hpieces : ∀ c ∈ pieces, isPathComponent c = true)
    (htag : isTag tag = true) (hline : '\n' ∉ tag) : (ofParts pieces (some tag) none).Sound := by
  have hname : ∀ c ∈ pieces, ∀ x, isNameChar x = false → x ∉ c := fun c hc x hx =>
    not_mem_of_isNameChar (isNameChar_of_isPathComponent (hpieces c hc)) hx
  refine sound_ofParts hne (fun c hc => hname c hc _ (by decide)) (fun c hc => hname c hc _ (by decide))
    (fun c hc => hpieces c ?_) ?_ nofun ?_
  · rw [← hostAndPath_eq pieces]
    exact List.mem_append_right _ hc
  · rintro _ ⟨⟩
    exact htag
  · obtain ⟨first, more, rfl⟩ := List.exists_cons_of_ne_nil hne
    obtain ⟨c, rest, rfl, hc⟩ := head_of_isPathComponent (hpieces first List.mem_cons_self)
    have hhead : (ofParts ((c :: rest) :: more) (some tag) none).located.head? = some c := by
      rw [located_ofParts]
      cases more with
      | nil => rfl
      | cons second more => rfl
    refine edges_tagged rfl rfl htag hline (fun hnil => ?_) fun d hd => ?_
    · rw [hnil] at hhead
      exact absurd hhead nofun
    · cases hhead.symm.trans hd
      exact not_isBlank_of_isTagChar (isTagChar_of_isPathChar hc)

/-! ## Short names of the Docker Hub -/

/-- The components of a short name: the library is left out. -/
def shortened : List (List Char) → List (List Char)
  | first :: second :: more =>
    if first = library then second :: more else first :: second :: more
  | pieces => pieces

/-- Whether the components of a repository of the Docker Hub are read again when they are shortened: a
host must not come first, nor the library of more than one component. -/
def keepsComponents : List (List Char) → Bool
  | first :: more => !isHost first && (first ≠ library || more.length = 1)
  | [] => false

end Spelling

open Spelling

/-- Of components that are shortened and read again, there is at most one more in front. -/
theorem length_componentsAt_le (registry : String) (path : List (List Char)) :
    (componentsAt registry path).length ≤ path.length + 1 := by
  unfold componentsAt
  split
  · split <;> simp
  · simp

/-- **Which components are read again when they are shortened.** -/
theorem shortened_readBack (first second : List Char) (more : List (List Char)) :
    (registryAt (hostAndPath (shortened (first :: second :: more))).1 = dockerHub ∧
      componentsAt dockerHub (hostAndPath (shortened (first :: second :: more))).2 =
        first :: second :: more) ↔ keepsComponents (first :: second :: more) = true := by
  have hhub : registryAt none = dockerHub := by decide
  by_cases hfirst : first = library
  · have hlibrary : isHost first = false := by
      rw [hfirst]
      decide
    rw [shortened, if_pos hfirst, keepsComponents, hlibrary]
    cases more with
    | nil =>
        refine iff_of_true ⟨hhub, ?_⟩ (by simp)
        rw [hfirst]
        rfl
    | cons third more =>
        -- what is left has one component less, and a path as long as that gets no library
        refine iff_of_false ?_ (by simp [hfirst])
        rintro ⟨_, heq⟩
        have hlength := congrArg List.length heq
        by_cases hsecond : isHost second = true
        · have hle := length_componentsAt_le dockerHub (third :: more)
          rw [hostAndPath, if_pos hsecond] at hlength
          simp only [List.length_cons] at hlength hle
          omega
        · rw [hostAndPath, if_neg hsecond, componentsAt] at hlength
          · simp only [List.length_cons] at hlength
            omega
          · simp
  · rw [shortened, if_neg hfirst, keepsComponents, hostAndPath]
    by_cases hhost : isHost first = true
    · refine iff_of_false ?_ (by simp [hhost])
      rw [if_pos hhost]
      rintro ⟨_, heq⟩
      cases more with
      | nil => exact hfirst (List.cons.inj heq).1.symm
      | cons third more =>
          have hlength := congrArg List.length heq
          rw [componentsAt] at hlength
          · simp only [List.length_cons] at hlength
            omega
          · simp
    · rw [if_neg hhost]
      refine iff_of_true ⟨hhub, rfl⟩ ?_
      simp [hhost, hfirst]

/-- What is left of a path without its library are the shortened components. -/
theorem withoutBeginning_joinWith {first second : List Char} {more : List (List Char)}
    (hslash : '/' ∉ first) :
    withoutBeginning officialPath.toList (joinWith '/' (first :: second :: more)) =
      joinWith '/' (shortened (first :: second :: more)) := by
  have hofficial : officialPath.toList = library ++ ['/'] := by decide
  have hlibrary : '/' ∉ library := by decide
  rw [withoutBeginning, hofficial, joinWith_cons (List.cons_ne_nil _ _), shortened]
  by_cases hfirst : first = library
  · have hjoined : library ++ '/' :: joinWith '/' (second :: more) =
        (library ++ ['/']) ++ joinWith '/' (second :: more) := by
      rw [List.append_assoc]
      rfl
    rw [hfirst, hjoined, if_pos (List.isPrefixOf_iff_prefix.2 (List.prefix_append _ _)),
      List.drop_left, if_pos rfl]
  · rw [if_neg hfirst, joinWith_cons (List.cons_ne_nil _ _)]
    refine if_neg fun hprefix => hfirst ?_
    -- both texts are cut at the first slash
    obtain ⟨rest, heq⟩ := List.isPrefixOf_iff_prefix.1 hprefix
    rw [List.append_assoc] at heq
    have hcut := splitFirst_append hlibrary rest
    rw [show library ++ '/' :: rest = _ from heq, splitFirst_append hslash] at hcut
    exact (Prod.mk.inj hcut).1

/-! ## Names that are read again -/

namespace Spelling

variable {p : Spelling} {tag : String}

/-- A repository of the Docker Hub has two components at least. -/
theorem components_hub (h : p.Sound) (hhub : registryAt p.host = dockerHub) :
    ∃ first second more, p.components = first :: second :: more := by
  obtain ⟨first, more, hpath⟩ := List.exists_cons_of_ne_nil h.path
  rw [components, hpath]
  cases more with
  | nil => exact ⟨library, first, [], by rw [componentsAt, if_pos hhub]⟩
  | cons second more => exact ⟨first, second, more, rfl⟩

theorem ofList_tagged (cs : List Char) (tag : String) :
    String.ofList cs ++ ":" ++ tag = String.ofList (cs ++ ':' :: tag.toList) := by
  apply String.toList_injective
  simp

/-- The name of an image of the Docker Hub. -/
theorem commonName_hub (h : p.Sound) (hhub : registryAt p.host = dockerHub)
    (htag : p.reference.tag = some tag) :
    p.reference.commonName =
      some (String.ofList (ofParts (shortened p.components) (some tag.toList) none).chars) := by
  obtain ⟨first, second, more, hcomponents⟩ := components_hub h hhub
  have hslash : '/' ∉ first := by
    refine not_mem_of_isNameChar (isNameChar_of_isPathComponent (components_sound h first ?_))
      (by decide)
    rw [hcomponents]
    exact List.mem_cons_self
  rw [commonName, htag, Option.map_some, if_pos (show p.reference.registry = dockerHub from hhub),
    toList_repository, hcomponents, withoutBeginning_joinWith hslash, ofList_tagged, chars_tagged rfl rfl,
    located_ofParts]

/-- The name of an image of another registry. -/
theorem commonName_elsewhere (h : p.Sound) (hhub : registryAt p.host ≠ dockerHub)
    (htag : p.reference.tag = some tag) :
    p.reference.commonName = some (String.ofList (p.retagged tag.toList).chars) := by
  have hnone : registryAt none = dockerHub := by decide
  obtain ⟨host, hhost⟩ : ∃ host, p.host = some host :=
    Option.ne_none_iff_exists'.1 fun hnot => hhub (by rw [hnot, hnone])
  have hregistry : p.reference.registry = String.ofList host := by
    show registryAt p.host = _
    rw [hhost] at hhub ⊢
    exact if_neg fun halias => hhub (if_pos halias)
  have hcomponents : p.components = p.path := by
    unfold components componentsAt
    split
    · rename_i name hpath
      rw [if_neg hhub, hpath]
    · rfl
  have hlocated : (p.retagged tag.toList).located = host ++ '/' :: joinWith '/' p.path := by
    show joinWith '/' (p.host.toList ++ p.path) = _
    rw [hhost, Option.toList_some, List.singleton_append, joinWith_cons h.path]
  have hnamed : p.reference.registry ++ "/" ++ p.reference.repository =
      String.ofList (host ++ '/' :: joinWith '/' p.path) := by
    rw [hregistry, reference, hcomponents]
    apply String.toList_injective
    simp
  rw [commonName, htag, Option.map_some, if_neg (show p.reference.registry ≠ dockerHub from hhub),
    hnamed, ofList_tagged, chars_tagged rfl rfl, hlocated]

/-- A short name ends in the tag. -/
theorem commonName_ending (h : p.Sound) (htag : p.reference.tag = some tag) :
    ∃ front, p.reference.commonName = some (String.ofList (front ++ ':' :: tag.toList)) := by
  by_cases hhub : registryAt p.host = dockerHub
  · exact ⟨_, (commonName_hub h hhub htag).trans (by rw [chars_tagged rfl rfl])⟩
  · exact ⟨_, (commonName_elsewhere h hhub htag).trans (by rw [chars_tagged rfl rfl])⟩

end Spelling

/-- Whether the short name of a reference is read as the same place: at the Docker Hub, if its
components are. -/
def KeepsName (r : Reference) : Prop :=
  r.registry = dockerHub → keepsComponents (splitAll '/' r.repository.toList) = true

instance (r : Reference) : Decidable r.KeepsName := inferInstanceAs (Decidable (_ → _))

namespace Spelling

variable {p : Spelling} {tag : String}

theorem keepsName_iff (h : p.Sound) :
    p.reference.KeepsName ↔ (registryAt p.host = dockerHub → keepsComponents p.components = true) := by
  unfold KeepsName
  rw [splitAll_repository h]
  exact Iff.rfl

/-- **What a short name spells**, if its tag is a line. -/
theorem commonName_spells (h : p.Sound) (htag : p.reference.tag = some tag) (hline : '\n' ∉ tag.toList) :
    ∃ q : Spelling, q.Sound ∧ p.reference.commonName = some (String.ofList q.chars) ∧
      q.reference.tag = some tag ∧ q.reference.digest = none ∧
      (q.reference.registry = p.reference.registry ∧
        q.reference.repository = p.reference.repository ↔ p.reference.KeepsName) := by
  have hsound := isTag_of_reference h htag
  have hsame : ∀ q : Spelling, q.tag = some tag.toList → q.digest = none →
      q.reference.tag = some tag ∧ q.reference.digest = none := by
    intro q hq hdigest
    rw [reference, hq, hdigest]
    exact ⟨congrArg some String.ofList_toList, rfl⟩
  by_cases hhub : registryAt p.host = dockerHub
  · obtain ⟨first, second, more, hcomponents⟩ := components_hub h hhub
    have hshort : shortened p.components ≠ [] ∧
        ∀ c ∈ shortened p.components, isPathComponent c = true := by
      have hall := components_sound h
      rw [hcomponents] at hall ⊢
      rw [shortened]
      split
      · exact ⟨List.cons_ne_nil _ _, fun c hc => hall c (List.mem_cons_of_mem _ hc)⟩
      · exact ⟨List.cons_ne_nil _ _, hall⟩
    have hq := sound_components hshort.1 hshort.2 hsound hline
    obtain ⟨hqtag, hqdigest⟩ := hsame (ofParts (shortened p.components) (some tag.toList) none) rfl rfl
    refine ⟨_, hq, commonName_hub h hhub htag, hqtag, hqdigest, ?_⟩
    have hback := shortened_readBack first second more
    rw [← hcomponents] at hback
    rw [keepsName_iff h]
    constructor
    · rintro ⟨hregistry, hrepository⟩ _
      have hread := splitAll_repository hq
      rw [hrepository, splitAll_repository h] at hread
      replace hregistry := hregistry.trans hhub
      refine hback.1 ⟨hregistry, Eq.trans ?_ hread.symm⟩
      exact congrArg (componentsAt · (hostAndPath (shortened p.components)).2) hregistry.symm
    · intro hkeeps
      obtain ⟨hregistry, hcomps⟩ := hback.2 (hkeeps hhub)
      refine ⟨hregistry.trans hhub.symm, congrArg (fun cs => String.ofList (joinWith '/' cs)) ?_⟩
      refine Eq.trans ?_ hcomps
      exact congrArg (componentsAt · (hostAndPath (shortened p.components)).2) hregistry
  · obtain ⟨hqtag, hqdigest⟩ := hsame (p.retagged tag.toList) rfl rfl
    refine ⟨_, h.retagged hsound hline, commonName_elsewhere h hhub htag, hqtag, hqdigest, ?_⟩
    rw [keepsName_iff h]
    exact iff_of_true ⟨rfl, rfl⟩ fun hnot => absurd hnot hhub

end Spelling

/-- A text that ends in a line break has a blank at its end. -/
theorem parse_of_last {text : String} (h : text.toList.getLast? = some '\n') :
    parse text = .error (.blank text) := by
  have htrim : trimBlank Char.toNat text.toList ≠ text.toList := by
    intro heq
    exact absurd ((trimBlank_eq_self.1 heq).2 _ h) (by decide)
  unfold parse
  dsimp only
  rw [if_pos (by simp [htrim])]

/-- **What a short name is read as.** The name of a reference that was read ends in its tag. If that ends
in a line break, the name is no reference. Otherwise it is read as a reference with that tag and no
digest, and this is the same image unless the name leaves too much out. -/
theorem parse_commonName {text tag : String} {r : Reference} (h : parse text = .ok r)
    (htag : r.tag = some tag) :
    ∃ name, r.commonName = some name ∧
      ('\n' ∈ tag.toList → parse name = .error (.blank name)) ∧
      ('\n' ∉ tag.toList → ∃ r', parse name = .ok r' ∧ r'.tag = some tag ∧ r'.digest = none ∧
        (r'.registry = r.registry ∧ r'.repository = r.repository ↔ r.KeepsName)) := by
  obtain ⟨p, hp, _, rfl⟩ := parse_eq_ok.1 h
  by_cases hline : '\n' ∈ tag.toList
  · obtain ⟨front, hname⟩ := commonName_ending hp htag
    refine ⟨_, hname, fun _ => parse_of_last ?_, fun hnot => absurd hline hnot⟩
    rcases isTag_cases (isTag_of_reference hp htag) with ⟨_, hall⟩ | ⟨line, htext⟩
    · exact absurd (hall _ hline) (by decide)
    · rw [String.toList_ofList, htext, List.append_cons, ← List.append_assoc, List.getLast?_concat]
  · obtain ⟨q, hq, hname, hqtag, hqdigest, hiff⟩ := commonName_spells hp htag hline
    exact ⟨_, hname, fun hmem => absurd hmem hline, fun _ => ⟨_, hq.parse_chars, hqtag, hqdigest, hiff⟩⟩

end ImageTransfer.Reference
