import ImageTransfer.Proofs.Reference.Spelling

/-!
# The grammar of references

A reference is written `[host/]c₁/…/cₙ[:tag][@digest]`. Here each part is described by itself, without
the scanners that check it: a component is a row of runs with separators between them, a tag is a row
of characters that is not too long, and a digest is the name of an algorithm and a hash. What is
accepted then is compared with what is described (`parse_accepts`).

The two differ in one thing. The scanners stop at the end of a line, so a component or a tag may be
followed by a line break, wherever that is not the end of the whole text. `OrLine P` allows for it.
-/

namespace ImageTransfer.Reference

open Text

/-! ## Components -/

def IsRun (cs : List Char) : Prop := cs ≠ [] ∧ ∀ c ∈ cs, isPathChar c = true

/-- What stands between two runs. -/
inductive IsSeparator : List Char → Prop
  | dot : IsSeparator ['.']
  | underscore : IsSeparator ['_']
  | underscores : IsSeparator ['_', '_']
  | dashes (n : Nat) : IsSeparator (List.replicate (n + 1) '-')

/-- Runs of letters and digits, with a separator between neighbours. -/
inductive IsComponent : List Char → Prop
  | run {run : List Char} : IsRun run → IsComponent run
  | runs {run sep rest : List Char} : IsRun run → IsSeparator sep → IsComponent rest →
      IsComponent (run ++ (sep ++ rest))

/-- What may come after a run. -/
inductive EndsRun : List Char → Prop
  | here : EndsRun []
  | separated {sep rest : List Char} : IsSeparator sep → IsComponent rest → EndsRun (sep ++ rest)

theorem IsRun.isComponent {run rest : List Char} (hrun : IsRun run) (hrest : EndsRun rest) :
    IsComponent (run ++ rest) := by
  cases hrest with
  | here =>
      rw [List.append_nil]
      exact .run hrun
  | separated hsep hcomponent => exact .runs hrun hsep hcomponent

/-- What is still to come in each state of the scanner. -/
def Awaits : PathState → List Char → Prop
  | .expecting, cs => IsComponent cs
  | .word, cs => ∃ run rest, cs = run ++ rest ∧ (∀ c ∈ run, isPathChar c = true) ∧ EndsRun rest
  | .underscore, cs => IsComponent cs ∨ ∃ rest, cs = '_' :: rest ∧ IsComponent rest
  | .dash, cs => ∃ n rest, cs = List.replicate n '-' ++ rest ∧ IsComponent rest

/-- A component may come in every state. -/
theorem IsComponent.awaits {cs : List Char} (h : IsComponent cs) (s : PathState) : Awaits s cs := by
  cases s with
  | expecting => exact h
  | underscore => exact .inl h
  | dash => exact ⟨0, cs, rfl, h⟩
  | word =>
      cases h with
      | run hrun => exact ⟨cs, [], (List.append_nil cs).symm, hrun.2, .here⟩
      | runs hrun hsep hrest => exact ⟨_, _, rfl, hrun.2, .separated hsep hrest⟩

/-- A letter or digit begins a component, or goes on with a run. -/
theorem Awaits.cons {s : PathState} {c : Char} {cs : List Char} (hc : isPathChar c = true)
    (h : Awaits .word cs) : Awaits s (c :: cs) := by
  obtain ⟨run, rest, rfl, hrun, hrest⟩ := h
  have hrun' : ∀ d ∈ c :: run, isPathChar d = true := List.forall_mem_cons.2 ⟨hc, hrun⟩
  have hcomponent : IsComponent (c :: run ++ rest) :=
    IsRun.isComponent ⟨List.cons_ne_nil c run, hrun'⟩ hrest
  exact hcomponent.awaits s

/-- What the scanner lets through is what its state awaits. -/
theorem awaits_of_isComponentFrom {s : PathState} {cs : List Char}
    (h : isComponentFrom s cs = true) : Awaits s cs := by
  induction cs generalizing s with
  | nil =>
      have hs : s = .word := by simpa [isComponentFrom] using h
      rw [hs]
      exact ⟨[], [], rfl, List.forall_mem_nil _, .here⟩
  | cons c cs ih =>
      rw [isComponentFrom] at h
      cases hnext : s.next? c with
      | none =>
          rw [hnext] at h
          exact absurd h Bool.false_ne_true
      | some t =>
          rw [hnext] at h
          have hcs : Awaits t cs := ih h
          unfold PathState.next? at hnext
          split at hnext
          · rename_i hc
            cases hnext
            exact hcs.cons hc
          · -- the separators, one by one
            split at hnext
            · cases hnext
              exact ⟨[], '.' :: cs, rfl, List.forall_mem_nil _, .separated .dot hcs⟩
            · cases hnext
              refine ⟨[], '_' :: cs, rfl, List.forall_mem_nil _, ?_⟩
              rcases hcs with hcs | ⟨rest, rfl, hrest⟩
              · exact .separated .underscore hcs
              · exact .separated .underscores hrest
            · cases hnext
              obtain ⟨n, rest, rfl, hrest⟩ := hcs
              refine ⟨[], '-' :: (List.replicate n '-' ++ rest), rfl, List.forall_mem_nil _, ?_⟩
              exact .separated (.dashes n) hrest
            · cases hnext
              exact .inr ⟨cs, rfl, hcs⟩
            · cases hnext
              obtain ⟨n, rest, rfl, hrest⟩ := hcs
              exact ⟨n + 1, rest, rfl, hrest⟩
            · cases hnext

theorem isComponentFrom_run {run : List Char} (h : IsRun run) (s : PathState) (rest : List Char) :
    isComponentFrom s (run ++ rest) = isComponentFrom .word rest := by
  obtain ⟨hne, hrun⟩ := h
  induction run generalizing s with
  | nil => exact absurd rfl hne
  | cons c run ih =>
      obtain ⟨hc, hrun⟩ := List.forall_mem_cons.1 hrun
      have hnext : s.next? c = some .word := if_pos hc
      rw [List.cons_append, isComponentFrom, hnext]
      dsimp only
      cases run with
      | nil => rfl
      | cons d run => exact ih .word (List.cons_ne_nil d run) hrun

theorem isComponentFrom_dashes (n : Nat) (rest : List Char) :
    isComponentFrom .dash (List.replicate n '-' ++ rest) = isComponentFrom .dash rest := by
  induction n with
  | zero => rfl
  | succ n ih =>
      rw [List.replicate_succ, List.cons_append, isComponentFrom]
      exact ih

/-- A component is let through in every state, since its first character is a letter or digit. -/
theorem isComponentFrom_of_isComponent {cs : List Char} (h : IsComponent cs) (s : PathState) :
    isComponentFrom s cs = true := by
  induction h generalizing s with
  | @run run hrun =>
      have hscan := isComponentFrom_run hrun s []
      rw [List.append_nil] at hscan
      rw [hscan]
      rfl
  | runs hrun hsep hrest ih =>
      rw [isComponentFrom_run hrun]
      cases hsep with
      | dot => exact ih .expecting
      | underscore => exact ih .underscore
      | underscores => exact ih .expecting
      | dashes n =>
          rw [List.replicate_succ, List.cons_append, isComponentFrom]
          exact (isComponentFrom_dashes n _).trans (ih .dash)

theorem isComponentFrom_iff {cs : List Char} :
    isComponentFrom .expecting cs = true ↔ IsComponent cs :=
  ⟨awaits_of_isComponentFrom, fun h => isComponentFrom_of_isComponent h .expecting⟩

/-! ## Tags and digests -/

/-- At most 128 characters, of which the first is neither a dot nor a dash. -/
def IsTagText (cs : List Char) : Prop :=
  ∃ first rest, cs = first :: rest ∧ isTagStart first = true ∧ (∀ c ∈ rest, isTagChar c = true) ∧
    rest.length ≤ 127

/-- The algorithms that digests are made with. -/
def digestAlgorithms : List (List Char) :=
  ["sha256".toList, "sha512".toList, "sha1".toList, "md5".toList]

def IsHash (cs : List Char) : Prop := cs ≠ [] ∧ ∀ c ∈ cs, Digest.isHashDigit c = true

/-- The name of an algorithm, a colon and a hash. -/
def IsDigest (cs : List Char) : Prop :=
  ∃ algorithm hash, cs = algorithm ++ ':' :: hash ∧ algorithm ∈ digestAlgorithms ∧ IsHash hash

/-! ## Lines -/

/-- A text of a language, or such a text and a line break. -/
def OrLine (P : List Char → Prop) (cs : List Char) : Prop := P cs ∨ ∃ line, cs = line ++ ['\n'] ∧ P line

/-- The text of a language whose texts hold no line breaks is what comes before one. -/
theorem orLine_iff {P : List Char → Prop} (hline : ∀ cs, P cs → '\n' ∉ cs) (cs : List Char) :
    P (Digest.dropFinalNewline cs) ↔ OrLine P cs := by
  constructor
  · intro h
    rcases Digest.dropFinalNewline_cases cs with heq | heq
    · rw [heq]
      exact .inl h
    · exact .inr ⟨_, heq, h⟩
  · rintro (h | ⟨line, rfl, h⟩)
    · have hlast : cs.getLast? ≠ some '\n' := fun hlast => hline cs h (List.mem_of_getLast? hlast)
      rwa [Digest.dropFinalNewline, if_neg hlast]
    · rwa [Digest.dropFinalNewline, if_pos List.getLast?_concat, List.dropLast_concat]

theorem OrLine.of_not_mem {P : List Char → Prop} {cs : List Char} (h : OrLine P cs)
    (hline : '\n' ∉ cs) : P cs := by
  rcases h with h | ⟨line, rfl, _⟩
  · exact h
  · exact absurd (List.mem_append_right line List.mem_cons_self) hline

theorem not_mem_newline {cs : List Char} (h : ∀ c ∈ cs, isTagChar c = true) : '\n' ∉ cs := by
  intro hmem
  have hnewline := h '\n' hmem
  exact absurd hnewline (by decide)

/-- A character of a component. -/
def IsComponentChar (c : Char) : Prop := isPathChar c = true ∨ c = '.' ∨ c = '_' ∨ c = '-'

theorem IsSeparator.isComponentChar {cs : List Char} (h : IsSeparator cs) :
    ∀ c ∈ cs, IsComponentChar c := by
  intro c hc
  cases h with
  | dot => exact .inr (.inl (List.mem_singleton.1 hc))
  | underscore => exact .inr (.inr (.inl (List.mem_singleton.1 hc)))
  | underscores =>
      have hc' : c = '_' := by simpa using hc
      exact .inr (.inr (.inl hc'))
  | dashes n => exact .inr (.inr (.inr (List.eq_of_mem_replicate hc)))

theorem IsComponent.isComponentChar {cs : List Char} (h : IsComponent cs) :
    ∀ c ∈ cs, IsComponentChar c := by
  induction h with
  | run hrun => exact fun c hc => .inl (hrun.2 c hc)
  | runs hrun hsep _ ih =>
      intro c hc
      rcases List.mem_append.1 hc with hc | hc
      · exact .inl (hrun.2 c hc)
      · rcases List.mem_append.1 hc with hc | hc
        · exact hsep.isComponentChar c hc
        · exact ih c hc

theorem IsComponent.isTagChar {cs : List Char} (h : IsComponent cs) : ∀ c ∈ cs, isTagChar c = true := by
  intro c hc
  rcases h.isComponentChar c hc with hc | rfl | rfl | rfl
  · exact isTagChar_of_isPathChar hc
  · decide
  · decide
  · decide

theorem IsTagText.isTagChar {cs : List Char} (h : IsTagText cs) : ∀ c ∈ cs, isTagChar c = true := by
  obtain ⟨first, rest, rfl, hfirst, hrest, -⟩ := h
  refine List.forall_mem_cons.2 ⟨?_, hrest⟩
  rw [Reference.isTagChar, hfirst]
  rfl

theorem isPathComponent_iff {cs : List Char} : isPathComponent cs = true ↔ OrLine IsComponent cs :=
  isComponentFrom_iff.trans (orLine_iff (fun _ h => not_mem_newline h.isTagChar) cs)

theorem isTag_iff {cs : List Char} : isTag cs = true ↔ OrLine IsTagText cs := by
  rw [← orLine_iff fun _ h => not_mem_newline h.isTagChar, isTag]
  cases Digest.dropFinalNewline cs with
  | nil =>
      refine iff_of_false Bool.false_ne_true ?_
      rintro ⟨first, rest, hnil, -⟩
      exact absurd hnil.symm (List.cons_ne_nil first rest)
  | cons c rest =>
      constructor
      · intro h
        rw [Bool.and_eq_true, Bool.and_eq_true, List.all_eq_true, decide_eq_true_eq] at h
        exact ⟨c, rest, rfl, h.1.1, h.1.2, h.2⟩
      · rintro ⟨first, rest', hcons, hfirst, hrest, hlength⟩
        cases hcons
        rw [Bool.and_eq_true, Bool.and_eq_true, List.all_eq_true, decide_eq_true_eq]
        exact ⟨⟨hfirst, hrest⟩, hlength⟩

theorem IsHash.not_mem_newline {cs : List Char} (h : IsHash cs) : '\n' ∉ cs := by
  intro hmem
  have hnewline := h.2 '\n' hmem
  exact absurd hnewline (by decide)

theorem isHash_iff {cs : List Char} :
    (!(Digest.dropFinalNewline cs).isEmpty && (Digest.dropFinalNewline cs).all Digest.isHashDigit) = true ↔
      OrLine IsHash cs := by
  rw [← orLine_iff fun _ h => h.not_mem_newline, Bool.and_eq_true, List.all_eq_true, Bool.not_eq_true',
    List.isEmpty_eq_false_iff]
  exact Iff.rfl

/-- An address is a digest, or a digest and a line break. -/
theorem isAddress_iff {cs : List Char} :
    Digest.isAddress (String.ofList cs) = true ↔
      ∃ algorithm hash, cs = algorithm ++ ':' :: hash ∧ algorithm ∈ digestAlgorithms ∧ OrLine IsHash hash := by
  have hnames : ∀ algorithm : List Char, (Digest.Algorithm.addressing.any (·.name.toList == algorithm)) = true ↔
      algorithm ∈ digestAlgorithms := by
    intro algorithm
    have hmap : digestAlgorithms = Digest.Algorithm.addressing.map (·.name.toList) := by decide
    rw [hmap, List.any_eq_true, List.mem_map]
    simp
  unfold Digest.isAddress
  rw [String.toList_ofList]
  constructor
  · intro h
    have hcs := splitFirst_eq ':' cs
    split at h
    · rename_i algorithm hash hsplit
      rw [hsplit] at hcs
      rw [Bool.and_assoc, Bool.and_eq_true, hnames, isHash_iff] at h
      exact ⟨algorithm, hash, hcs, h⟩
    · exact absurd h nofun
  · rintro ⟨algorithm, hash, rfl, halgorithm, hhash⟩
    have hcolon : ':' ∉ algorithm := by
      revert algorithm
      decide
    rw [splitFirst_append hcolon]
    dsimp only
    rw [Bool.and_assoc, Bool.and_eq_true, hnames, isHash_iff]
    exact ⟨halgorithm, hhash⟩

/-- A character that is in no name of an algorithm and is no digit, colon or line break is in no
address. -/
theorem not_mem_of_isAddress {digest : String} {c : Char} (h : Digest.isAddress digest = true)
    (hname : ∀ name ∈ digestAlgorithms, c ∉ name) (hdigit : Digest.isHashDigit c = false)
    (hcolon : c ≠ ':') (hline : c ≠ '\n') : c ∉ digest.toList := by
  have hhash {hash : List Char} (h : IsHash hash) : c ∉ hash := fun hmem => by
    rw [h.2 c hmem] at hdigit
    cases hdigit
  rw [← String.ofList_toList (s := digest)] at h
  obtain ⟨algorithm, hash, hchars, halgorithm, horline⟩ := isAddress_iff.1 h
  rw [hchars, List.mem_append, List.mem_cons, not_or, not_or]
  refine ⟨hname algorithm halgorithm, hcolon, ?_⟩
  rcases horline with hash | ⟨line, rfl, hash⟩
  · exact hhash hash
  · rw [List.mem_append, not_or]
    exact ⟨hhash hash, mt List.mem_singleton.1 hline⟩

/-! ## References -/

/-- A text that looks like a host. -/
def IsHostText (cs : List Char) : Prop :=
  ('.' ∈ cs ∨ ':' ∈ cs ∨ cs = "localhost".toList) ∧ '/' ∉ cs ∧ '@' ∉ cs

theorem isHost_iff {cs : List Char} :
    isHost cs = true ↔ '.' ∈ cs ∨ ':' ∈ cs ∨ cs = "localhost".toList := by
  unfold isHost
  rw [Bool.or_eq_true, Bool.or_eq_true, List.contains_iff_mem, List.contains_iff_mem, beq_iff_eq,
    or_assoc]

/-- The parts are what they should be, and there is no blank around the whole text. What components
and tags should be is left open. -/
structure Spelling.Obeys (p : Spelling) (component tag : List Char → Prop) : Prop where
  host : ∀ host, p.host = some host → IsHostText host
  path : p.path ≠ []
  components : ∀ c ∈ p.path, component c
  tag : ∀ t, p.tag = some t → tag t
  digest : ∀ d, p.digest = some d → IsDigest d
  first : ∀ c, p.chars.head? = some c → isBlank c.toNat = false
  last : ∀ c, p.chars.getLast? = some c → isBlank c.toNat = false

/-- A text of the form `[host/]c₁/…/cₙ[:tag][@digest]`. -/
def IsReference (component tag : List Char → Prop) (text : String) : Prop :=
  ∃ p : Spelling, p.Obeys component tag ∧ text.toList = p.chars

namespace Spelling

variable {p : Spelling} {component tag : List Char → Prop}

theorem Sound.obeys (h : p.Sound) : p.Obeys (OrLine IsComponent) (OrLine IsTagText) := by
  obtain ⟨hfirst, hlast⟩ := trimBlank_eq_self.1 h.edges
  refine ⟨fun host hhost => ?_, h.path, fun c hc => isPathComponent_iff.1 (h.components c hc),
    fun t ht => isTag_iff.1 (h.tag t ht), fun d hd => ?_, hfirst, hlast⟩
  · obtain ⟨hlooks, hslash, hat⟩ := h.host host hhost
    exact ⟨isHost_iff.1 hlooks, hslash, hat⟩
  · obtain ⟨algorithm, hash, rfl, halgorithm, hhash | ⟨line, rfl, _⟩⟩ := isAddress_iff.1 (h.digest d hd)
    · exact ⟨algorithm, hash, rfl, halgorithm, hhash⟩
    · -- the digest comes last, so its line break would be a blank at the end
      have hchars : p.chars = (p.named ++ '@' :: (algorithm ++ ':' :: line)) ++ ['\n'] := by
        rw [chars, hd]
        simp
      have hblank := hlast '\n' (by rw [hchars, List.getLast?_concat])
      exact absurd hblank (by decide)

/-- A first component that looks like a host is read as one. What is left of the path is as it was. -/
theorem Obeys.exists_sound (h : p.Obeys component tag)
    (hcomponent : ∀ cs, component cs → OrLine IsComponent cs)
    (htag : ∀ cs, tag cs → OrLine IsTagText cs) :
    ∃ q : Spelling, q.Sound ∧ q.chars = p.chars ∧ (∀ c ∈ q.path, component c) ∧ q.tag = p.tag := by
  have hchars : (ofParts (p.host.toList ++ p.path) p.tag p.digest).chars = p.chars := by
    rw [chars, named, located_ofParts]
    rfl
  have hrest : ∀ c ∈ (hostAndPath (p.host.toList ++ p.path)).2, c ∈ p.path := by
    intro c hc
    obtain ⟨first, more, hpath⟩ := List.exists_cons_of_ne_nil h.path
    cases hhost : p.host with
    | none =>
        rw [hhost, Option.toList_none, List.nil_append] at hc
        rw [← hostAndPath_eq p.path]
        exact List.mem_append_right _ hc
    | some host =>
        have hlooks : isHost host = true := isHost_iff.2 (h.host host hhost).1
        rw [hhost, hpath, Option.toList_some, List.singleton_append, hostAndPath, if_pos hlooks] at hc
        rw [hpath]
        exact hc
  have hname : ∀ c ∈ p.path, ∀ x, isNameChar x = false → x ∉ c := by
    intro c hc x hx
    have hscan : isPathComponent c = true := isPathComponent_iff.2 (hcomponent c (h.components c hc))
    exact not_mem_of_isNameChar (isNameChar_of_isPathComponent hscan) hx
  have hpiece : ∀ x, isNameChar x = false → (∀ host, p.host = some host → x ∉ host) →
      ∀ piece ∈ p.host.toList ++ p.path, x ∉ piece := by
    intro x hx hhost piece hpiece
    rcases List.mem_append.1 hpiece with hpiece | hpiece
    · exact hhost piece (Option.mem_toList.1 hpiece)
    · exact hname piece hpiece x hx
  refine ⟨ofParts (p.host.toList ++ p.path) p.tag p.digest, sound_ofParts ?_ ?_ ?_ ?_ ?_ ?_ ?_, hchars,
    fun c hc => h.components c (hrest c hc), rfl⟩
  · exact List.append_ne_nil_of_right_ne_nil _ h.path
  · exact hpiece '/' (by decide) fun host hhost => (h.host host hhost).2.1
  · exact hpiece '@' (by decide) fun host hhost => (h.host host hhost).2.2
  · exact fun c hc => isPathComponent_iff.2 (hcomponent c (h.components c (hrest c hc)))
  · exact fun t ht => isTag_iff.2 (htag t (h.tag t ht))
  · intro d hd
    obtain ⟨algorithm, hash, hsplit, halgorithm, hhash⟩ := h.digest d hd
    exact isAddress_iff.2 ⟨algorithm, hash, hsplit, halgorithm, .inl hhash⟩
  · rw [hchars]
    exact trimBlank_eq_self.2 ⟨h.first, h.last⟩

/-- The components of a repository are those of the path, and the library. -/
theorem mem_components {c : List Char} (hc : c ∈ p.components) : c = library ∨ c ∈ p.path := by
  unfold components componentsAt at hc
  split at hc
  · rename_i name hpath
    split at hc
    · rcases List.mem_cons.1 hc with hc | hc
      · exact .inl hc
      · exact .inr (hpath ▸ hc)
    · exact .inr (hpath ▸ hc)
  · exact .inr hc

theorem mem_components_of_mem {c : List Char} (hc : c ∈ p.path) : c ∈ p.components := by
  unfold components componentsAt
  split
  · rename_i name hpath
    rw [hpath] at hc
    split
    · exact List.mem_cons_of_mem _ hc
    · exact hc
  · exact hc

/-- A repository has no line break if no component of its path has one. -/
theorem newline_not_mem_repository :
    '\n' ∉ p.reference.repository.toList ↔ ∀ c ∈ p.path, '\n' ∉ c := by
  rw [toList_repository]
  constructor
  · intro h c hc hmem
    exact h (mem_joinWith_of_mem (mem_components_of_mem hc) hmem)
  · intro h hmem
    rcases mem_joinWith hmem with hslash | ⟨c, hc, hmem⟩
    · exact absurd hslash (by decide)
    · rcases mem_components hc with rfl | hc
      · exact absurd hmem (by decide)
      · exact h c hc hmem

/-- A tag that is not spelled out is `latest`, which has no line break. -/
theorem newline_not_mem_tag :
    (∀ t, p.reference.tag = some t → '\n' ∉ t.toList) ↔ ∀ t, p.tag = some t → '\n' ∉ t := by
  cases htag : p.tag with
  | none =>
      refine iff_of_true (fun t ht => ?_) nofun
      rw [reference, htag] at ht
      cases hdigest : p.digest with
      | none =>
          rw [hdigest] at ht
          cases ht
          decide
      | some d =>
          rw [hdigest] at ht
          cases ht
  | some t =>
      have hwritten : p.reference.tag = some (String.ofList t) := by
        rw [reference, htag]
        rfl
      rw [hwritten]
      constructor
      · rintro h _ ⟨⟩
        have hmem := h _ rfl
        rwa [String.toList_ofList] at hmem
      · rintro h _ ⟨⟩
        rw [String.toList_ofList]
        exact h t rfl

end Spelling

/-- The text is read as a reference without a line break in its repository or tag. -/
def ReadsOnOneLine (text : String) : Prop :=
  ∃ r, parse text = .ok r ∧ '\n' ∉ r.repository.toList ∧ ∀ t, r.tag = some t → '\n' ∉ t.toList

theorem isReference_orLine_iff {text : String} :
    IsReference (OrLine IsComponent) (OrLine IsTagText) text ↔ ∃ r, parse text = .ok r := by
  constructor
  · rintro ⟨p, hp, htext⟩
    obtain ⟨q, hq, hchars, -, -⟩ := hp.exists_sound (fun _ => id) fun _ => id
    exact ⟨q.reference, parse_eq_ok.2 ⟨q, hq, htext.trans hchars.symm, rfl⟩⟩
  · rintro ⟨r, hr⟩
    obtain ⟨p, hp, htext, -⟩ := parse_eq_ok.1 hr
    exact ⟨p, hp.obeys, htext⟩

theorem isReference_iff {text : String} :
    IsReference IsComponent IsTagText text ↔ ReadsOnOneLine text := by
  constructor
  · rintro ⟨p, hp, htext⟩
    obtain ⟨q, hq, hchars, hpath, htag⟩ := hp.exists_sound (fun _ => .inl) fun _ => .inl
    refine ⟨q.reference, parse_eq_ok.2 ⟨q, hq, htext.trans hchars.symm, rfl⟩, ?_, ?_⟩
    · exact Spelling.newline_not_mem_repository.2 fun c hc => not_mem_newline (hpath c hc).isTagChar
    · refine Spelling.newline_not_mem_tag.2 fun t ht => not_mem_newline ?_
      exact (hp.tag t (htag.symm.trans ht)).isTagChar
  · rintro ⟨r, hr, hrepository, hline⟩
    obtain ⟨p, hp, htext, rfl⟩ := parse_eq_ok.1 hr
    have hobeys := hp.obeys
    refine ⟨p, { hobeys with components := fun c hc => ?_, tag := fun t ht => ?_ }, htext⟩
    · have hnewline := Spelling.newline_not_mem_repository.1 hrepository c hc
      exact (hobeys.components c hc).of_not_mem hnewline
    · exact (hobeys.tag t ht).of_not_mem (Spelling.newline_not_mem_tag.1 hline t ht)

/-- **Which texts are references**: those of the form `[host/]c₁/…/cₙ[:tag][@digest]`, with a line
break after components and tags or without. They are written without one exactly if they are read
without one, and then nothing but the characters of components, tags and digests is read. -/
theorem parse_accepts (text : String) :
    ((∃ r, parse text = .ok r) ↔ IsReference (OrLine IsComponent) (OrLine IsTagText) text) ∧
      (ReadsOnOneLine text ↔ IsReference IsComponent IsTagText text) ∧
      ∀ r, parse text = .ok r →
        (∀ c ∈ r.repository.toList, IsComponentChar c ∨ c = '/' ∨ c = '\n') ∧
        (∀ t, r.tag = some t → OrLine IsTagText t.toList) ∧
        ∀ d, r.digest = some d → IsDigest d.toList := by
  refine ⟨isReference_orLine_iff.symm, isReference_iff.symm, fun r hr => ?_⟩
  obtain ⟨p, hp, -, rfl⟩ := parse_eq_ok.1 hr
  refine ⟨fun x hx => ?_, fun t ht => ?_, fun d hd => ?_⟩
  · rw [Spelling.toList_repository] at hx
    rcases mem_joinWith hx with rfl | ⟨c, hc, hx⟩
    · exact .inr (.inl rfl)
    · have hcomponent : OrLine IsComponent c := by
        rcases Spelling.mem_components hc with rfl | hc
        · exact isPathComponent_iff.1 (by decide)
        · exact hp.obeys.components c hc
      rcases hcomponent with hcomponent | ⟨line, rfl, hcomponent⟩
      · exact .inl (hcomponent.isComponentChar x hx)
      · rcases List.mem_append.1 hx with hx | hx
        · exact .inl (hcomponent.isComponentChar x hx)
        · exact .inr (.inr (List.mem_singleton.1 hx))
  · exact isTag_iff.1 (Spelling.isTag_of_reference hp ht)
  · obtain ⟨cs, hcs, rfl⟩ := Option.map_eq_some_iff.1 hd
    rw [String.toList_ofList]
    exact hp.obeys.digest cs hcs

/-- A line break may come in the middle of a text. -/
theorem parse_lineBreak : ∃ r, parse "registry.io/app\n:v1" = .ok r ∧ '\n' ∈ r.repository.toList ∧
    ¬ IsReference IsComponent IsTagText "registry.io/app\n:v1" := by
  have hread : parse "registry.io/app\n:v1" = .ok ⟨"registry.io", "app\n", some "v1", none⟩ := by
    decide +kernel
  have hline : '\n' ∈ "app\n".toList := by decide
  refine ⟨_, hread, hline, fun h => ?_⟩
  obtain ⟨r, hr, hrepository, -⟩ := isReference_iff.1 h
  cases hread.symm.trans hr
  exact hrepository hline

end ImageTransfer.Reference
