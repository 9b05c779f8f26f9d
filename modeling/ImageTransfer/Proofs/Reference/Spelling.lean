import ImageTransfer.Proofs.Text.Split
import ImageTransfer.Reference.Parser

/-!
# What is read as a reference

A reference is spelled as a host, the components of a path, a tag and a digest, of which only the path
has to be there. `Spelling` has the parts, and `Spelling.Sound` says which of them go together. A text
is read if it is the text of a sound spelling, and then it is read as what that spells
(`parse_eq_ok`). So whatever is said of references that were read is said of spellings, and whatever
should be read again is spelled.

The check of components and tags looks only at the first line. So both may end in a line break, but for
the end of the whole text.
-/

namespace ImageTransfer.Digest

/-- A list has a last line break that is left out, or none. -/
theorem dropFinalNewline_cases (cs : List Char) :
    cs = dropFinalNewline cs ∨ cs = dropFinalNewline cs ++ ['\n'] := by
  unfold dropFinalNewline
  split
  · rename_i hlast
    obtain ⟨init, rfl⟩ := List.getLast?_eq_some_iff.1 hlast
    exact .inr (by rw [List.dropLast_concat])
  · exact .inl rfl

end ImageTransfer.Digest

namespace ImageTransfer.Reference

/-- The parts of a reference, as they are written. -/
structure Spelling where
  host : Option (List Char)
  path : List (List Char)
  tag : Option (List Char)
  digest : Option (List Char)

/-- The host and the path among the parts of a text between slashes. -/
def hostAndPath : List (List Char) → Option (List Char) × List (List Char)
  | first :: second :: more =>
    if isHost first then (some first, second :: more) else (none, first :: second :: more)
  | path => (none, path)

/-- The registry at a host: hosts of the Docker Hub have one name. -/
def registryAt (host : Option (List Char)) : String :=
  let name := (host.map String.ofList).getD dockerHub
  if dockerHubAliases.contains name then dockerHub else name

/-- The first component of official images of the Docker Hub. -/
def library : List Char := "library".toList

/-- The components of a repository at a registry: an official image of the Docker Hub is in the
library. -/
def componentsAt (registry : String) : List (List Char) → List (List Char)
  | [name] => if registry = dockerHub then [library, name] else [name]
  | path => path

namespace Spelling

/-- The host and the path. -/
def located (p : Spelling) : List Char := Text.joinWith '/' (p.host.toList ++ p.path)

/-- What comes before a digest. -/
def named (p : Spelling) : List Char := p.located ++ (p.tag.map (':' :: ·)).getD []

/-- The whole text. -/
def chars (p : Spelling) : List Char := p.named ++ (p.digest.map ('@' :: ·)).getD []

/-- The components of the repository. -/
def components (p : Spelling) : List (List Char) := componentsAt (registryAt p.host) p.path

/-- What is spelled. -/
def reference (p : Spelling) : Reference where
  registry := registryAt p.host
  repository := String.ofList (Text.joinWith '/' p.components)
  tag := if p.tag.isNone && p.digest.isNone then some defaultTag else p.tag.map String.ofList
  digest := p.digest.map String.ofList

/-- The parts are what they should be, and no other part could be taken for a host. -/
structure Sound (p : Spelling) : Prop where
  host : ∀ host, p.host = some host → isHost host = true ∧ '/' ∉ host ∧ '@' ∉ host
  path : p.path ≠ []
  components : ∀ c ∈ p.path, isPathComponent c = true
  hostless : p.host = none → ∀ first second more, p.path = first :: second :: more →
    isHost first = false
  tag : ∀ tag, p.tag = some tag → isTag tag = true
  digest : ∀ digest, p.digest = some digest → Digest.isAddress (String.ofList digest) = true
  edges : Text.trimBlank Char.toNat p.chars = p.chars

end Spelling

/-! ## The characters of the parts -/

/-- Characters that the checks of components and tags look for. -/
def isNameChar (c : Char) : Bool := isTagChar c || c == '\n'

theorem isTagChar_of_isPathChar {c : Char} (h : isPathChar c = true) : isTagChar c = true := by
  unfold isPathChar at h
  unfold isTagChar isTagStart
  rcases Bool.or_eq_true_iff.1 h with h | h
  · rw [h]; rfl
  · rw [h]; simp

theorem isTagChar_of_next? {s t : PathState} {c : Char} (h : s.next? c = some t) :
    isTagChar c = true := by
  unfold PathState.next? at h
  split at h
  · exact isTagChar_of_isPathChar ‹_›
  · split at h
    · decide
    · decide
    · decide
    · decide
    · decide
    · exact absurd h nofun

theorem isTagChar_of_isComponentFrom {s : PathState} {cs : List Char}
    (h : isComponentFrom s cs = true) : ∀ c ∈ cs, isTagChar c = true := by
  induction cs generalizing s with
  | nil => exact fun c hc => absurd hc List.not_mem_nil
  | cons d cs ih =>
      rw [isComponentFrom] at h
      split at h
      · rename_i t hnext
        intro c hc
        rcases List.mem_cons.1 hc with rfl | hc
        · exact isTagChar_of_next? hnext
        · exact ih h c hc
      · exact absurd h nofun

/-- What holds of a list without its last line break. -/
theorem isNameChar_of_dropFinalNewline {cs : List Char}
    (h : ∀ c ∈ Digest.dropFinalNewline cs, isTagChar c = true) : ∀ c ∈ cs, isNameChar c = true := by
  have hname : ∀ c ∈ Digest.dropFinalNewline cs, isNameChar c = true := by
    intro c hc
    rw [isNameChar, h c hc]
    rfl
  rcases Digest.dropFinalNewline_cases cs with heq | heq
  · rw [heq]
    exact hname
  · intro c hc
    rw [heq] at hc
    rcases List.mem_append.1 hc with hc | hc
    · exact hname c hc
    · rw [List.mem_singleton.1 hc]
      rfl

theorem isNameChar_of_isPathComponent {cs : List Char} (h : isPathComponent cs = true) :
    ∀ c ∈ cs, isNameChar c = true :=
  isNameChar_of_dropFinalNewline (isTagChar_of_isComponentFrom h)

theorem isNameChar_of_isTag {cs : List Char} (h : isTag cs = true) :
    ∀ c ∈ cs, isNameChar c = true := by
  refine isNameChar_of_dropFinalNewline fun c hc => ?_
  unfold isTag at h
  split at h
  · rename_i hnil
    rw [hnil] at hc
    exact absurd hc List.not_mem_nil
  · rename_i first rest hcons
    rw [hcons] at hc
    rw [Bool.and_eq_true, Bool.and_eq_true] at h
    rcases List.mem_cons.1 hc with rfl | hc
    · rw [isTagChar, h.1.1]
      rfl
    · exact List.all_eq_true.1 h.1.2 c hc

/-- A character that is none of those is in no component and in no tag. -/
theorem not_mem_of_isNameChar {cs : List Char} (h : ∀ c ∈ cs, isNameChar c = true) {c : Char}
    (hc : isNameChar c = false) : c ∉ cs := by
  intro hmem
  rw [h c hmem] at hc
  exact absurd hc nofun

/-- A component begins with a letter or digit. -/
theorem head_of_isPathComponent {cs : List Char} (h : isPathComponent cs = true) :
    ∃ c rest, cs = c :: rest ∧ isPathChar c = true := by
  unfold isPathComponent at h
  cases hline : Digest.dropFinalNewline cs with
  | nil =>
      rw [hline] at h
      exact absurd h (by decide)
  | cons c rest =>
      rw [hline, isComponentFrom] at h
      have hc : isPathChar c = true := by
        by_contra hnot
        have hstuck : PathState.expecting.next? c = none := by simp [PathState.next?, hnot]
        rw [hstuck] at h
        exact absurd h nofun
      rcases Digest.dropFinalNewline_cases cs with heq | heq
      · exact ⟨c, rest, by rw [heq, hline], hc⟩
      · exact ⟨c, rest ++ ['\n'], by rw [heq, hline]; rfl, hc⟩

/-! ## Hosts and paths -/

theorem splitHost_eq (cs : List Char) :
    splitHost cs =
      (registryAt (hostAndPath (Text.splitAll '/' cs)).1,
        componentsAt (registryAt (hostAndPath (Text.splitAll '/' cs)).1)
          (hostAndPath (Text.splitAll '/' cs)).2) := by
  have hofficial : ∀ registry path,
      (match path with
        | [name] =>
          if registry = dockerHub then (registry, ["library".toList, name]) else (registry, path)
        | _ => (registry, path)) = (registry, componentsAt registry path) := by
    intro registry path
    unfold componentsAt
    split
    · split <;> rfl
    · rfl
  unfold splitHost
  generalize Text.splitAll '/' cs = parts
  refine (hofficial _ _).trans ?_
  rcases parts with _ | ⟨first, _ | ⟨second, more⟩⟩
  · rfl
  · rfl
  · by_cases hfirst : isHost first = true
    · simp only [hostAndPath, if_pos hfirst]
      rfl
    · simp only [hostAndPath, if_neg hfirst]
      rfl

/-- The parts are the host, if there is one, and the path. -/
theorem hostAndPath_eq (parts : List (List Char)) :
    (hostAndPath parts).1.toList ++ (hostAndPath parts).2 = parts := by
  unfold hostAndPath
  split
  · split <;> rfl
  · rfl

/-- The first of several parts is a host or does not look like one. -/
theorem hostAndPath_cases {parts : List (List Char)} (hne : parts ≠ []) :
    (∃ host path, hostAndPath parts = (some host, path) ∧ isHost host = true ∧ path ≠ []) ∨
      hostAndPath parts = (none, parts) ∧
        ∀ first second more, parts = first :: second :: more → isHost first = false := by
  unfold hostAndPath
  split
  · rename_i first second more
    by_cases hfirst : isHost first = true
    · exact .inl ⟨first, second :: more, if_pos hfirst, hfirst, List.cons_ne_nil _ _⟩
    · refine .inr ⟨if_neg hfirst, ?_⟩
      rintro _ _ _ ⟨⟩
      exact Bool.eq_false_iff.2 hfirst
  · rename_i hfew
    exact .inr ⟨rfl, fun first second more h => absurd h (hfew first second more)⟩

theorem path_of_componentsAt {registry : String} {path : List (List Char)}
    (h : (componentsAt registry path).all isPathComponent = true) :
    ∀ c ∈ path, isPathComponent c = true := by
  unfold componentsAt at h
  split at h
  · split at h
    · rw [List.all_cons, Bool.and_eq_true] at h
      exact List.all_eq_true.1 h.2
    · exact List.all_eq_true.1 h
  · exact List.all_eq_true.1 h

theorem componentsAt_of_path {registry : String} {path : List (List Char)}
    (h : ∀ c ∈ path, isPathComponent c = true) :
    (componentsAt registry path).all isPathComponent = true := by
  unfold componentsAt
  split
  · rename_i name
    split
    · rw [List.all_cons, List.all_cons, List.all_nil, h name List.mem_cons_self]
      decide
    · exact List.all_eq_true.2 h
  · exact List.all_eq_true.2 h

/-! ## What a spelling spells -/

namespace Spelling

variable {p : Spelling}

namespace Sound

/-- No part of a path or a host has a slash. -/
theorem not_mem_slash (h : p.Sound) : ∀ piece ∈ p.host.toList ++ p.path, '/' ∉ piece := by
  intro piece hpiece
  rcases List.mem_append.1 hpiece with hpiece | hpiece
  · exact (h.host piece (Option.mem_toList.1 hpiece)).2.1
  · exact not_mem_of_isNameChar (isNameChar_of_isPathComponent (h.components piece hpiece)) (by decide)

theorem splitAll_located (h : p.Sound) : Text.splitAll '/' p.located = p.host.toList ++ p.path := by
  refine Text.splitAll_joinWith ?_ h.not_mem_slash
  exact fun hnil => h.path (List.append_eq_nil_iff.1 hnil).2

theorem not_mem_at (h : p.Sound) : '@' ∉ p.named := by
  intro hmem
  rcases List.mem_append.1 hmem with hmem | hmem
  · rcases Text.mem_joinWith hmem with hslash | ⟨piece, hpiece, hmem⟩
    · exact absurd hslash (by decide)
    · rcases List.mem_append.1 hpiece with hpiece | hpiece
      · exact (h.host piece (Option.mem_toList.1 hpiece)).2.2 hmem
      · exact not_mem_of_isNameChar (isNameChar_of_isPathComponent (h.components piece hpiece))
          (by decide) hmem
  · cases htag : p.tag with
    | none =>
        rw [htag] at hmem
        exact absurd hmem List.not_mem_nil
    | some tag =>
        rw [htag] at hmem
        rcases List.mem_cons.1 hmem with hcolon | hmem
        · exact absurd hcolon (by decide)
        · exact not_mem_of_isNameChar (isNameChar_of_isTag (h.tag tag htag)) (by decide) hmem

/-- The first `@` comes before the digest. -/
theorem splitFirst_chars (h : p.Sound) : Text.splitFirst '@' p.chars = (p.named, p.digest) := by
  unfold chars
  cases p.digest with
  | none => 
      rw [Option.map_none, Option.getD_none, List.append_nil]
      exact Text.splitFirst_of_not_mem h.not_mem_at
  | some digest => exact Text.splitFirst_append h.not_mem_at digest

/-- A colon of the text before a tag is one of the host. -/
theorem splitLast?_located (h : p.Sound) {before after : List Char}
    (hsplit : Text.splitLast? ':' p.located = some (before, after)) : '/' ∈ after := by
  have hpath : ':' ∉ Text.joinWith '/' p.path := by
    intro hmem
    rcases Text.mem_joinWith hmem with hslash | ⟨piece, hpiece, hmem⟩
    · exact absurd hslash (by decide)
    · exact not_mem_of_isNameChar (isNameChar_of_isPathComponent (h.components piece hpiece))
        (by decide) hmem
  unfold located at hsplit
  cases hhost : p.host with
  | none =>
      rw [hhost, Option.toList_none, List.nil_append, Text.splitLast?_of_not_mem hpath] at hsplit
      exact absurd hsplit nofun
  | some host =>
      rw [hhost, Option.toList_some, List.singleton_append, Text.joinWith_cons h.path] at hsplit
      rcases Text.splitLast?_cases ':' (host ++ '/' :: Text.joinWith '/' p.path) with
        ⟨hnone, _⟩ | ⟨before', after', hsome, heq, _⟩
      · exact absurd (hsplit.symm.trans hnone) nofun
      cases hsplit.symm.trans hsome
      rcases List.append_eq_append_iff.1 heq with ⟨later, _, hlater⟩ | ⟨rest, _, hrest⟩
      · -- the colon would come after the host
        have hmem : ':' ∈ '/' :: Text.joinWith '/' p.path := by
          rw [hlater]
          exact List.mem_append_right _ List.mem_cons_self
        rcases List.mem_cons.1 hmem with hslash | hmem
        · exact absurd hslash (by decide)
        · exact absurd hmem hpath
      · cases rest with
        | nil => exact absurd (List.cons.inj hrest).1 (by decide)
        | cons c rest =>
            rw [(List.cons.inj hrest).2]
            exact List.mem_append_right _ List.mem_cons_self

/-- The last colon comes before the tag, or a slash follows it. -/
theorem splitTag_named (h : p.Sound) : splitTag p.named = (p.located, p.tag) := by
  unfold named splitTag
  cases htag : p.tag with
  | none =>
      rw [Option.map_none, Option.getD_none, List.append_nil]
      cases hsplit : Text.splitLast? ':' p.located with
      | none => rfl
      | some parts =>
          obtain ⟨before, after⟩ := parts
          have hslash : after.contains '/' = true := List.contains_iff_mem.2 (h.splitLast?_located hsplit)
          show (if after.contains '/' = true then _ else _) = _
          rw [if_pos hslash]
  | some tag =>
      have hname := isNameChar_of_isTag (h.tag tag htag)
      have hslash : tag.contains '/' = false := by
        rw [← Bool.not_eq_true, List.contains_iff_mem]
        exact not_mem_of_isNameChar hname (by decide)
      rw [Option.map_some, Option.getD_some,
        Text.splitLast?_append _ (not_mem_of_isNameChar hname (by decide))]
      dsimp only
      rw [hslash, if_neg Bool.false_ne_true]

theorem hostAndPath_parts (h : p.Sound) : hostAndPath (p.host.toList ++ p.path) = (p.host, p.path) := by
  obtain ⟨first, more, hpath⟩ := List.exists_cons_of_ne_nil h.path
  cases hhost : p.host with
  | some host =>
      rw [hpath, Option.toList_some, List.singleton_append, hostAndPath, if_pos (h.host host hhost).1]
  | none =>
      rw [Option.toList_none, List.nil_append]
      cases more with
      | nil => rw [hpath]; rfl
      | cons second more =>
          have hfirst := h.hostless hhost first second more hpath
          rw [hpath, hostAndPath, if_neg (by rw [hfirst]; nofun)]

theorem splitHost_located (h : p.Sound) :
    splitHost p.located = (registryAt p.host, p.components) := by
  rw [splitHost_eq, h.splitAll_located, h.hostAndPath_parts]
  rfl

theorem located_ne_nil (h : p.Sound) : p.located ≠ [] := by
  intro hnil
  have hsplit := h.splitAll_located
  obtain ⟨first, more, hpath⟩ := List.exists_cons_of_ne_nil h.path
  -- nothing is cut into one empty piece, which is no component
  have hfirst : first ∈ Text.splitAll '/' p.located := by
    rw [hsplit, hpath]
    exact List.mem_append_right _ List.mem_cons_self
  have hcomponent := h.components first (by rw [hpath]; exact List.mem_cons_self)
  rw [hnil] at hfirst
  rw [List.mem_singleton.1 hfirst] at hcomponent
  exact absurd hcomponent (by decide)

theorem chars_ne_nil (h : p.Sound) : p.chars ≠ [] := fun hnil =>
  h.located_ne_nil (List.append_eq_nil_iff.1 (List.append_eq_nil_iff.1 hnil).1).1

/-- **A sound spelling is read as what it spells.** -/
theorem parse_chars (h : p.Sound) : parse (String.ofList p.chars) = .ok p.reference := by
  have hblank : ¬ (p.chars.isEmpty || decide (Text.trimBlank Char.toNat p.chars ≠ p.chars)) = true := by
    rw [h.edges]
    simp [h.chars_ne_nil]
  have hdigest : ¬ ((p.digest.map String.ofList).any fun d => !Digest.isAddress d) = true := by
    cases hd : p.digest with
    | none => nofun
    | some d => simp [h.digest d hd]
  have htag : ¬ (p.tag.any fun t => !isTag t) = true := by
    cases ht : p.tag with
    | none => nofun
    | some t => simp [h.tag t ht]
  have hpath : ¬ (!p.components.all isPathComponent) = true := by
    rw [Spelling.components, componentsAt_of_path h.components]
    nofun
  unfold parse
  rw [String.toList_ofList]
  dsimp only
  rw [if_neg hblank, h.splitFirst_chars]
  dsimp only
  rw [if_neg hdigest, h.splitTag_named]
  dsimp only
  rw [if_neg htag, h.splitHost_located]
  dsimp only
  rw [if_neg hpath, Option.isNone_map, Option.isNone_map]
  rfl

end Sound

/-! ## What is spelled is made of sound parts -/

theorem isTag_of_reference {tag : String} (h : p.Sound) (htag : p.reference.tag = some tag) :
    isTag tag.toList = true := by
  change (if p.tag.isNone && p.digest.isNone then some defaultTag else p.tag.map String.ofList) = _
    at htag
  split at htag
  · cases htag
    decide
  · obtain ⟨cs, hcs, rfl⟩ := Option.map_eq_some_iff.1 htag
    rw [String.toList_ofList]
    exact h.tag cs hcs

theorem components_ne_nil (h : p.Sound) : p.components ≠ [] := by
  unfold components componentsAt
  split
  · split <;> exact List.cons_ne_nil _ _
  · exact h.path

theorem components_sound (h : p.Sound) : ∀ c ∈ p.components, isPathComponent c = true :=
  List.all_eq_true.1 (componentsAt_of_path h.components)

theorem toList_repository : p.reference.repository.toList = Text.joinWith '/' p.components :=
  String.toList_ofList

theorem splitAll_repository (h : p.Sound) :
    Text.splitAll '/' p.reference.repository.toList = p.components := by
  rw [toList_repository]
  exact Text.splitAll_joinWith (components_ne_nil h) fun c hc =>
    not_mem_of_isNameChar (isNameChar_of_isPathComponent (components_sound h c hc)) (by decide)

end Spelling

/-! ## What is read is a spelling -/

/-- The spelling of the parts of a text between slashes, under a tag and a digest. -/
def Spelling.ofParts (parts : List (List Char)) (tag digest : Option (List Char)) : Spelling :=
  ⟨(hostAndPath parts).1, (hostAndPath parts).2, tag, digest⟩

theorem located_ofParts (parts : List (List Char)) (tag digest : Option (List Char)) :
    (Spelling.ofParts parts tag digest).located = Text.joinWith '/' parts :=
  congrArg (Text.joinWith '/') (hostAndPath_eq parts)

/-- What has to be checked of parts: the first of them is a host only if it looks like one. -/
theorem sound_ofParts {parts : List (List Char)} {tag digest : Option (List Char)} (hne : parts ≠ [])
    (hslash : ∀ piece ∈ parts, '/' ∉ piece) (hat : ∀ piece ∈ parts, '@' ∉ piece)
    (hcomponents : ∀ c ∈ (hostAndPath parts).2, isPathComponent c = true)
    (htag : ∀ t, tag = some t → isTag t = true)
    (hdigest : ∀ d, digest = some d → Digest.isAddress (String.ofList d) = true)
    (hedges : Text.trimBlank Char.toNat (Spelling.ofParts parts tag digest).chars =
      (Spelling.ofParts parts tag digest).chars) :
    (Spelling.ofParts parts tag digest).Sound := by
  have hparts := hostAndPath_eq parts
  have hcases := hostAndPath_cases hne
  refine ⟨fun host hhost => ?_, ?_, hcomponents, ?_, htag, hdigest, hedges⟩
  · change (hostAndPath parts).1 = some host at hhost
    have hpart : host ∈ parts := by
      rw [← hparts, hhost]
      exact List.mem_append_left _ (Option.mem_toList.2 rfl)
    refine ⟨?_, hslash host hpart, hat host hpart⟩
    rcases hcases with ⟨_, _, heq, hlooks, _⟩ | ⟨heq, _⟩
    · rw [heq] at hhost
      cases hhost
      exact hlooks
    · rw [heq] at hhost
      exact absurd hhost nofun
  · show (hostAndPath parts).2 ≠ []
    rcases hcases with ⟨_, path, heq, _, hpath⟩ | ⟨heq, _⟩
    · rwa [heq]
    · rwa [heq]
  · intro hnone
    change (hostAndPath parts).1 = none at hnone
    show ∀ first second more, (hostAndPath parts).2 = _ → _
    rcases hcases with ⟨_, _, heq, _⟩ | ⟨heq, hfirst⟩
    · rw [heq] at hnone
      exact absurd hnone nofun
    · rwa [heq]

theorem splitTag_eq (cs : List Char) :
    cs = (splitTag cs).1 ++ ((splitTag cs).2.map (':' :: ·)).getD [] := by
  unfold splitTag
  rcases Text.splitLast?_cases ':' cs with ⟨hnone, _⟩ | ⟨before, after, hsome, hcs, _⟩
  · rw [hnone]
    exact (List.append_nil cs).symm
  · rw [hsome]
    dsimp only
    split
    · exact (List.append_nil cs).symm
    · exact hcs

/-- **What is read as a reference**: the text of a sound spelling, as what that spells. -/
theorem parse_eq_ok {text : String} {r : Reference} :
    parse text = .ok r ↔ ∃ p : Spelling, p.Sound ∧ text.toList = p.chars ∧ r = p.reference := by
  constructor
  · intro h
    -- it is enough to find the parts, since they are read as what they spell
    suffices hfound : ∃ p : Spelling, p.Sound ∧ text.toList = p.chars by
      obtain ⟨p, hp, htext⟩ := hfound
      have hread := hp.parse_chars
      rw [← htext, String.ofList_toList, h] at hread
      exact ⟨p, hp, htext, Except.ok.inj hread⟩
    unfold parse at h
    dsimp only at h
    split at h
    · exact absurd h nofun
    rename_i hblank
    split at h
    · exact absurd h nofun
    rename_i hdigest
    split at h
    · exact absurd h nofun
    rename_i htag
    split at h
    · exact absurd h nofun
    rename_i hpath
    clear h
    have htext := Text.splitFirst_eq '@' text.toList
    have hat := Text.not_mem_splitFirst '@' text.toList
    generalize (Text.splitFirst '@' text.toList).1 = named at *
    generalize (Text.splitFirst '@' text.toList).2 = digest at *
    have hnamed := splitTag_eq named
    generalize (splitTag named).1 = located at *
    generalize (splitTag named).2 = tag at *
    rw [splitHost_eq, Bool.not_eq_true', Bool.not_eq_false] at hpath
    have hlocated := Text.joinWith_splitAll '/' located
    have hchars : text.toList = (Spelling.ofParts (Text.splitAll '/' located) tag digest).chars := by
      rw [Spelling.chars, Spelling.named, located_ofParts, hlocated]
      rw [hnamed] at htext
      exact htext
    refine ⟨_, sound_ofParts (Text.splitAll_ne_nil '/' located)
      (fun piece hpiece => Text.not_mem_of_mem_splitAll hpiece) (fun piece hpiece hmem => hat ?_)
      (path_of_componentsAt hpath) ?_ ?_ ?_, hchars⟩
    · rw [hnamed, ← hlocated]
      exact List.mem_append_left _ (Text.mem_joinWith_of_mem hpiece hmem)
    · rintro t rfl
      simpa using htag
    · rintro d rfl
      simpa using hdigest
    · rw [← hchars]
      by_contra htrim
      exact hblank (by simp [htrim])
  · rintro ⟨p, hp, htext, rfl⟩
    have hread := hp.parse_chars
    rwa [← htext, String.ofList_toList] at hread

end ImageTransfer.Reference
