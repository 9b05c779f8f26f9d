import ImageTransfer.Proofs.Text.Split
import ImageTransfer.Registry.Url

/-!
# References to resources

A `Uri` is a reference to a resource in its generic syntax, taken apart: what is absent is told apart
from what is empty. It is the specification of what `Url.split` does to a text (`split_text`), and
`Uri.resolve` is that of what a reference stands for beside a base.

References are resolved here that have no dot segments (`IsPlain`), for which to remove these is nothing
to do. Whether a host is acceptable (`Url.checkHost`) is left to the code: a refused host is no URL.
-/

namespace ImageTransfer

/-- A reference to a resource: a whole URL, or one that is relative to another. -/
structure Uri where
  scheme? : Option (List Char)
  host? : Option (List Char)
  path : List Char
  query? : Option (List Char)
  fragment? : Option (List Char)

namespace Uri

/-! ## Syntax -/

/-- A character that comes after the controls and the blank. -/
def isVisible (c : Char) : Bool := 0x20 < c.toNat

/-- A scheme is a letter and characters of schemes. -/
def isScheme : List Char → Bool
  | [] => false
  | c :: rest => Url.isLetter c && rest.all Url.isSchemeChar

def isHostChar (c : Char) : Bool := isVisible c && !Url.isDelimiter c

def isPathChar (c : Char) : Bool := isVisible c && c != '?' && c != '#'

def isQueryChar (c : Char) : Bool := isVisible c && c != '#'

/-- A part with its mark in front. -/
def marked (mark : List Char) (part? : Option (List Char)) : List Char :=
  (part?.map (mark ++ ·)).getD []

/-- What follows the host. -/
def tail (u : Uri) : List Char := u.path ++ (marked ['?'] u.query? ++ marked ['#'] u.fragment?)

/-- The text of a reference. -/
def text (u : Uri) : List Char :=
  (u.scheme?.map (· ++ [':'])).getD [] ++ (marked ['/', '/'] u.host? ++ u.tail)

/-- The parts of a reference have the characters that they may have, and none is taken for another. -/
structure IsSound (u : Uri) : Prop where
  scheme : ∀ scheme, u.scheme? = some scheme → isScheme scheme = true
  host : ∀ host, u.host? = some host → host.all isHostChar = true
  path : u.path.all isPathChar = true
  query : ∀ query, u.query? = some query → query.all isQueryChar = true
  fragment : ∀ fragment, u.fragment? = some fragment → fragment.all isVisible = true
  /-- A path after a host begins with a slash, if there is one. -/
  pathAfterHost : u.host? ≠ none → u.path = [] ∨ u.path.head? = some '/'
  /-- A path without a host is not taken for one. -/
  pathAlone : u.host? = none → ∀ rest, u.path ≠ '/' :: '/' :: rest
  /-- What is in front of a colon would be taken for a scheme. -/
  firstSegment : u.scheme? = none → u.host? = none → ':' ∉ (Text.splitFirst '/' u.path).1

/-- A text is read as a reference. -/
def Reads (u : Uri) (text : String) : Prop := u.IsSound ∧ text.toList = u.text

/-! ## Resolution -/

/-- A relative path in place of what comes after the last slash of a base. -/
def merge (base : Uri) (path : List Char) : List Char :=
  if base.host? ≠ none ∧ base.path = [] then '/' :: path
  else match Text.splitLast? '/' base.path with
    | some (before, _) => before ++ '/' :: path
    | none => path

/-- A reference resolved against a base, in the generic syntax. There are no dot segments to remove. -/
def resolve (base u : Uri) : Uri :=
  match u.scheme?, u.host? with
  | some _, _ => u
  | none, some _ => { u with scheme? := base.scheme? }
  | none, none =>
    if u.path = [] then { base with query? := u.query?.or base.query?, fragment? := u.fragment? }
    else { base with
      path := if u.path.head? = some '/' then u.path else merge base u.path
      query? := u.query?
      fragment? := u.fragment? }

/-- Two references are the same but for the size of letters in the scheme, and for what is empty and
what is absent. -/
structure Same (u v : Uri) : Prop where
  scheme : u.scheme?.map (·.map Url.lowerAscii) = v.scheme?.map (·.map Url.lowerAscii)
  host : u.host? = v.host?
  path : u.path = v.path
  query : u.query?.getD [] = v.query?.getD []
  fragment : u.fragment?.getD [] = v.fragment?.getD []

/-- None of the segments stands for a directory above or for the one at hand. -/
def IsDotless (segments : List (List Char)) : Prop :=
  ∀ segment ∈ segments, segment ≠ ['.'] ∧ segment ≠ ['.', '.']

/-- A reference without a fragment, without dot segments and without parameters in its path. A host is
not empty and does not lack behind a scheme, and a relative path has no empty segments but the last. -/
structure IsPlain (u : Uri) : Prop where
  fragment : u.fragment? = none
  host : u.host? ≠ some []
  scheme : u.scheme? ≠ none → u.host? ≠ none
  params : ';' ∉ u.path
  dotless : IsDotless (Text.splitAll '/' u.path)
  relative : u.path.head? ≠ some '/' →
    ∀ segment ∈ (Text.splitAll '/' u.path).dropLast, segment ≠ []

/-- The root of a host. -/
def root (scheme host : List Char) : Uri := ⟨some scheme, some host, ['/'], none, none⟩

variable {u v : Uri} {scheme host : List Char}

theorem Same.refl (u : Uri) : u.Same u := ⟨rfl, rfl, rfl, rfl, rfl⟩

/-- A reference that names a host, or has a path from the root, is resolved alike against all that have
the same scheme and host. -/
theorem resolve_congr {base : Uri} (hscheme : base.scheme? = v.scheme?) (hhost : base.host? = v.host?)
    (hu : u.host? ≠ none ∨ u.path.head? = some '/') : base.resolve u = v.resolve u := by
  unfold resolve
  split
  · rfl
  · rw [hscheme]
  · rename_i hnone
    obtain hrooted : u.path.head? = some '/' := hu.resolve_left fun h => h hnone
    have hne : u.path ≠ [] := fun h => by rw [h] at hrooted; exact absurd hrooted nofun
    simp only [if_neg hne, if_pos hrooted, hscheme, hhost]

/-- A whole URL stands for itself. -/
theorem resolve_of_scheme (base : Uri) (h : u.scheme? ≠ none) : base.resolve u = u := by
  obtain ⟨scheme, hscheme⟩ := Option.ne_none_iff_exists'.1 h
  unfold resolve
  rw [hscheme]

/-! ## Texts are read -/

theorem isScheme_cons {cs : List Char} (h : isScheme cs = true) :
    ∃ c rest, cs = c :: rest ∧ Url.isLetter c = true ∧ rest.all Url.isSchemeChar = true := by
  cases cs with
  | nil => exact absurd h nofun
  | cons c rest => exact ⟨c, rest, rfl, (Bool.and_eq_true_iff.1 h).1, (Bool.and_eq_true_iff.1 h).2⟩

theorem isSchemeChar_of_mem {cs : List Char} (h : isScheme cs = true) {c : Char} (hc : c ∈ cs) :
    Url.isSchemeChar c = true := by
  obtain ⟨first, rest, rfl, hfirst, hrest⟩ := isScheme_cons h
  rcases List.mem_cons.1 hc with rfl | hc
  · simp [Url.isSchemeChar, hfirst]
  · exact List.all_eq_true.1 hrest c hc

/-- A character of a scheme is no blank, no control and no delimiter. -/
theorem isHostChar_of_isSchemeChar {c : Char} (h : Url.isSchemeChar c = true) :
    isHostChar c = true := by
  rw [isHostChar, Bool.and_eq_true, Bool.not_eq_true']
  constructor
  · -- the blank and the controls are no characters of schemes, one by one
    have hlow : ∀ n : Fin 0x21, Url.isSchemeChar (Char.ofNat n.val) = false := by decide
    rw [isVisible, decide_eq_true_eq]
    by_contra hle
    have hc := hlow ⟨c.toNat, by omega⟩
    rw [Char.ofNat_toNat] at hc
    exact absurd (h.symm.trans hc) nofun
  · refine Bool.eq_false_iff.2 fun hdelimiter => ?_
    simp only [Url.isDelimiter, Bool.or_eq_true, beq_iff_eq] at hdelimiter
    rcases hdelimiter with (rfl | rfl) | rfl <;> exact absurd h (by decide)

theorem colon_not_mem_of_isScheme {cs : List Char} (h : isScheme cs = true) : ':' ∉ cs :=
  fun hmem => absurd (isSchemeChar_of_mem h hmem) (by decide)

/-- What can be in a part behind its mark. -/
theorem mem_marked {mark : List Char} {part? : Option (List Char)} {c : Char}
    (h : c ∈ marked mark part?) : c ∈ mark ∨ ∃ part, part? = some part ∧ c ∈ part := by
  cases part? with
  | none => exact absurd h List.not_mem_nil
  | some part => exact (List.mem_append.1 h).imp_right fun hc => ⟨part, rfl, hc⟩

namespace IsSound

theorem visible_path (h : u.IsSound) {c : Char} (hc : c ∈ u.path) : isVisible c = true := by
  have hchar := List.all_eq_true.1 h.path c hc
  simp only [isPathChar, Bool.and_eq_true] at hchar
  exact hchar.1.1

theorem query_not_mem (h : u.IsSound) : '?' ∉ u.path :=
  fun hmem => absurd (List.all_eq_true.1 h.path _ hmem) (by decide)

theorem fragment_not_mem (h : u.IsSound) : '#' ∉ u.path ++ marked ['?'] u.query? := by
  intro hmem
  rcases List.mem_append.1 hmem with hmem | hmem
  · exact absurd (List.all_eq_true.1 h.path _ hmem) (by decide)
  · rcases mem_marked hmem with hmem | ⟨query, hquery, hmem⟩
    · exact absurd hmem (by decide)
    · exact absurd (List.all_eq_true.1 (h.query query hquery) _ hmem) (by decide)

/-- All of a reference can be seen. -/
theorem visible (h : u.IsSound) {c : Char} (hc : c ∈ u.text) : isVisible c = true := by
  rw [text, tail] at hc
  simp only [List.mem_append] at hc
  rcases hc with hc | hc | hc | hc | hc
  · cases hscheme : u.scheme? with
    | none =>
        rw [hscheme] at hc
        exact absurd hc List.not_mem_nil
    | some scheme =>
        rw [hscheme] at hc
        rcases List.mem_append.1 hc with hc | hc
        · have hchar := isHostChar_of_isSchemeChar (isSchemeChar_of_mem (h.scheme scheme hscheme) hc)
          exact (Bool.and_eq_true_iff.1 hchar).1
        · rw [List.mem_singleton.1 hc]
          rfl
  · rcases mem_marked hc with hc | ⟨host, hhost, hc⟩
    · simp only [List.mem_cons, List.not_mem_nil, or_false, or_self] at hc
      rw [hc]
      rfl
    · have hchar := List.all_eq_true.1 (h.host host hhost) c hc
      exact (Bool.and_eq_true_iff.1 hchar).1
  · exact h.visible_path hc
  · rcases mem_marked hc with hc | ⟨query, hquery, hc⟩
    · rw [List.mem_singleton.1 hc]
      rfl
    · have hchar := List.all_eq_true.1 (h.query query hquery) c hc
      exact (Bool.and_eq_true_iff.1 hchar).1
  · rcases mem_marked hc with hc | ⟨fragment, hfragment, hc⟩
    · rw [List.mem_singleton.1 hc]
      rfl
    · exact List.all_eq_true.1 (h.fragment fragment hfragment) c hc

end IsSound

theorem splitFirst_marked {sep : Char} {before : List Char} (h : sep ∉ before)
    (part? : Option (List Char)) :
    Text.splitFirst sep (before ++ marked [sep] part?) = (before, part?) := by
  cases part? with
  | none =>
      rw [show marked [sep] none = [] from rfl, List.append_nil]
      exact Text.splitFirst_of_not_mem h
  | some part => exact Text.splitFirst_append h part

/-- After the path comes nothing, or a query or a fragment behind its mark. -/
theorem head_afterPath {query? fragment? : Option (List Char)} {c : Char}
    (h : (marked ['?'] query? ++ marked ['#'] fragment?).head? = some c) : c = '?' ∨ c = '#' := by
  cases query? with
  | some query => exact .inl (Option.some.inj h).symm
  | none =>
      cases fragment? with
      | some fragment => exact .inr (Option.some.inj h).symm
      | none => exact absurd h nofun

/-- What is in front of a colon is in the first segment, if there is no delimiter in it. -/
theorem colon_mem_firstSegment {path after before rest : List Char}
    (hbefore : ∀ c ∈ before, isHostChar c = true)
    (hafter : ∀ c, after.head? = some c → Url.isDelimiter c = true)
    (h : path ++ after = before ++ ':' :: rest) : ':' ∈ (Text.splitFirst '/' path).1 := by
  induction path generalizing before with
  | nil =>
      -- what comes after the path begins with a delimiter
      exfalso
      rw [List.nil_append] at h
      cases before with
      | nil => exact absurd (hafter ':' (by rw [h]; rfl)) (by decide)
      | cons c before =>
          have hdelimiter := hafter c (by rw [h]; rfl)
          have hc := hbefore c List.mem_cons_self
          rw [isHostChar, hdelimiter, Bool.not_true, Bool.and_false] at hc
          exact absurd hc nofun
  | cons x path ih =>
      cases before with
      | nil =>
          obtain ⟨rfl, _⟩ := List.cons_eq_cons.1 h
          rw [Text.splitFirst, if_neg (by decide)]
          exact List.mem_cons_self
      | cons c before =>
          obtain ⟨rfl, hrest⟩ := List.cons_eq_cons.1 h
          have hc : x ≠ '/' := by
            rintro rfl
            exact absurd (hbefore '/' List.mem_cons_self) (by decide)
          rw [Text.splitFirst, if_neg hc]
          exact List.mem_cons_of_mem _ (ih (fun y hy => hbefore y (List.mem_cons_of_mem _ hy)) hrest)

namespace IsSound

theorem splitScheme_text (h : u.IsSound) : Url.splitScheme u.text =
    u.scheme?.map fun scheme => (scheme.map Url.lowerAscii, marked ['/', '/'] u.host? ++ u.tail) := by
  cases hscheme : u.scheme? with
  | some scheme =>
      have hscheme' := h.scheme scheme hscheme
      have htext : u.text = scheme ++ ':' :: (marked ['/', '/'] u.host? ++ u.tail) := by
        rw [text, hscheme, Option.map_some, Option.getD_some, List.append_assoc]
        rfl
      rw [htext, Url.splitScheme, Text.splitFirst_append (colon_not_mem_of_isScheme hscheme')]
      obtain ⟨c, rest, rfl, hc, hrest⟩ := isScheme_cons hscheme'
      exact if_pos (Bool.and_eq_true_iff.2 ⟨hc, hrest⟩)
  | none =>
      have htext : u.text = marked ['/', '/'] u.host? ++ u.tail := by
        rw [text, hscheme]
        rfl
      rw [htext, Url.splitScheme]
      split
      case h_2 => rfl
      rename_i first more rest hsplit
      refine if_neg fun hletters => ?_
      have heq := Text.splitFirst_eq ':' (marked ['/', '/'] u.host? ++ u.tail)
      rw [hsplit] at heq
      have hscheme' : isScheme (first :: more) = true := hletters
      have hbefore : ∀ c ∈ first :: more, isHostChar c = true := fun c hc =>
        isHostChar_of_isSchemeChar (isSchemeChar_of_mem hscheme' hc)
      cases hhost : u.host? with
      | some host =>
          -- the text begins with a slash, which is no character of a scheme
          rw [hhost] at heq
          obtain ⟨rfl, _⟩ := List.cons_eq_cons.1 heq
          exact absurd (hbefore '/' List.mem_cons_self) (by decide)
      | none =>
          rw [hhost] at heq
          refine h.firstSegment hscheme hhost (colon_mem_firstSegment hbefore (fun c hc => ?_) heq)
          rcases head_afterPath hc with rfl | rfl <;> rfl

/-- Nothing that is no host is taken for one. -/
theorem tail_ne (h : u.IsSound) (hhost : u.host? = none) (rest : List Char) :
    u.tail ≠ '/' :: '/' :: rest := by
  intro htail
  rw [tail] at htail
  have hafter {rest : List Char} (h : marked ['?'] u.query? ++ marked ['#'] u.fragment? = '/' :: rest) :
      False := by
    rcases head_afterPath (congrArg List.head? h) with hc | hc <;> exact absurd hc (by decide)
  match hpath : u.path with
  | [] =>
      rw [hpath] at htail
      exact hafter htail
  | [c] =>
      rw [hpath] at htail
      exact hafter (List.cons_eq_cons.1 htail).2
  | c :: c' :: path =>
      rw [hpath] at htail
      obtain ⟨hc, hrest⟩ := List.cons_eq_cons.1 htail
      obtain ⟨hc', _⟩ := List.cons_eq_cons.1 hrest
      exact h.pathAlone hhost path (by rw [hpath, hc, hc'])

theorem splitHost_text (h : u.IsSound) :
    Url.splitHost (marked ['/', '/'] u.host? ++ u.tail) = (u.host?.getD [], u.tail) := by
  cases hhost : u.host? with
  | some host =>
      have hchars : ∀ c ∈ host, (!Url.isDelimiter c) = true := fun c hc =>
        (Bool.and_eq_true_iff.1 (List.all_eq_true.1 (h.host host hhost) c hc)).2
      -- the host ends where the rest begins, if there is any
      have hends : u.tail.takeWhile (!Url.isDelimiter ·) = [] ∧
          u.tail.dropWhile (!Url.isDelimiter ·) = u.tail := by
        have hhead : ∀ c, u.tail.head? = some c → Url.isDelimiter c = true := by
          intro c hc
          rw [tail] at hc
          rcases h.pathAfterHost (by rw [hhost]; exact nofun) with hpath | hpath
          · rw [hpath, List.nil_append] at hc
            rcases head_afterPath hc with rfl | rfl <;> rfl
          · rw [List.head?_append, hpath] at hc
            cases hc
            rfl
        cases htail : u.tail with
        | nil => exact ⟨rfl, rfl⟩
        | cons c rest =>
            have hc := hhead c (by rw [htail]; rfl)
            constructor
            · rw [List.takeWhile_cons_of_neg (by rw [hc]; decide)]
            · rw [List.dropWhile_cons_of_neg (by rw [hc]; decide)]
      show ((host ++ u.tail).takeWhile (!Url.isDelimiter ·),
        (host ++ u.tail).dropWhile (!Url.isDelimiter ·)) = (host, u.tail)
      rw [List.takeWhile_append_of_pos hchars, List.dropWhile_append_of_pos hchars, hends.1, hends.2,
        List.append_nil]
  | none =>
      have hnone : marked ['/', '/'] none ++ u.tail = u.tail := rfl
      rw [hnone, Url.splitHost]
      exacts [rfl, h.tail_ne hhost]

end IsSound

/-- The scheme of a reference in small letters; one that names none has the given one. -/
def schemeOr (defaultScheme : List Char) (u : Uri) : List Char :=
  (u.scheme?.map (·.map Url.lowerAscii)).getD defaultScheme

/-- The parts of a reference. -/
def parts (defaultScheme : List Char) (u : Uri) : Url.Parts where
  scheme := u.schemeOr defaultScheme
  host := u.host?.getD []
  path := (Url.splitParams u.path).1
  params := (Url.splitParams u.path).2
  query := u.query?.getD []
  fragment := u.fragment?.getD []

/-- **The text of a reference is split into its parts**, if its host is accepted. -/
theorem split_text (h : u.IsSound) (defaultScheme : List Char) :
    Url.split defaultScheme (String.ofList u.text) = do
      Url.checkHost (u.host?.getD [])
      return u.parts defaultScheme := by
  have hdrop : u.text.dropWhile (·.toNat ≤ 0x20) = u.text := by
    refine Text.dropWhile_eq_self.2 fun c hc => ?_
    have hvisible := h.visible (List.mem_of_mem_head? hc)
    rw [isVisible, decide_eq_true_eq] at hvisible
    exact decide_eq_false (by omega)
  have hfilter : (u.text.filter fun c => c ≠ '\t' && c ≠ '\r' && c ≠ '\n') = u.text := by
    refine List.filter_eq_self.2 fun c hc => ?_
    have hvisible := h.visible hc
    simp only [Bool.and_eq_true, decide_eq_true_eq]
    refine ⟨⟨?_, ?_⟩, ?_⟩ <;> rintro rfl <;> exact absurd hvisible (by decide)
  have hscheme : (Url.splitScheme u.text).getD (defaultScheme, u.text) =
      ((u.parts defaultScheme).scheme, marked ['/', '/'] u.host? ++ u.tail) := by
    rw [h.splitScheme_text]
    cases hscheme : u.scheme? <;> simp [parts, schemeOr, text, hscheme]
  unfold Url.split
  simp only [String.toList_ofList, hdrop, hfilter, hscheme, h.splitHost_text]
  rw [tail, ← List.append_assoc, splitFirst_marked h.fragment_not_mem]
  simp only [splitFirst_marked h.query_not_mem]
  rfl

end Uri

end ImageTransfer
