import ImageTransfer.Proofs.Registry.Uri

/-!
# What a reference at a registry comes to

A reference is resolved against the root of a host. What comes out is the text of what it is `settled`
to (`resolve_text`), and that is the reference resolved as the generic syntax says, up to the size of
letters in the scheme and to a query that is empty (`same_settled`). It has no fragment, so that what is
written behind it is one more parameter of its query (`reads_withParam`).
-/

namespace ImageTransfer.Uri

variable {u : Uri} {scheme host : List Char}

/-! ## Parts are resolved -/

/-- A part that is absent if it is empty. -/
def nonempty (part : List Char) : Option (List Char) := if part.isEmpty then none else some part

theorem getD_nonempty (part : List Char) : (nonempty part).getD [] = part := by
  cases part <;> rfl

theorem nonempty_eq_some {part part' : List Char} (h : nonempty part = some part') : part' = part := by
  cases part with
  | nil => exact absurd h nofun
  | cons c part => exact (Option.some.inj h).symm

/-- What a reference is settled to: with the scheme as the base has it and without an empty query, but
one with another scheme stands for itself. -/
def settled (base u : Uri) : Uri :=
  if u.schemeOr (base.scheme?.getD []) = base.scheme?.getD [] then
    { base.resolve u with
      scheme? := base.scheme?
      query? := nonempty ((base.resolve u).query?.getD []) }
  else u

theorem splitParams_of_not_mem {path : List Char} (h : ';' ∉ path) :
    Url.splitParams path = (path, []) := by
  rw [Url.splitParams]
  rcases Text.splitLast?_cases '/' path with ⟨hnone, _⟩ | ⟨before, last, hsome, rfl, _⟩
  · simp only [hnone, Text.splitFirst_of_not_mem h, List.nil_append, Option.getD_none]
  · have hlast : ';' ∉ last := fun hmem =>
      h (List.mem_append_right _ (List.mem_cons_of_mem _ hmem))
    simp only [hsome, Text.splitFirst_of_not_mem hlast, List.append_assoc, List.singleton_append,
      Option.getD_none]

/-- The text of parts is that of a reference. -/
theorem text_parts {p : Url.Parts} (hparams : p.params = [])
    (hpath : p.path = [] ∨ p.path.head? = some '/') : p.text = String.ofList
      (text ⟨some p.scheme, some p.host, p.path, nonempty p.query, nonempty p.fragment⟩) := by
  obtain ⟨scheme, host, path, params, query, fragment⟩ := p
  obtain rfl : params = [] := hparams
  rw [Url.Parts.text]
  rcases hpath with hpath | hpath
  · obtain rfl : path = [] := hpath
    cases query <;> cases fragment <;> simp [text, tail, marked, nonempty]
  · obtain ⟨rest, rfl⟩ : ∃ rest, path = '/' :: rest := List.head?_eq_some_iff.1 hpath
    cases query <;> cases fragment <;> simp [text, tail, marked, nonempty]

/-- Without dot segments nothing is taken away. -/
theorem withoutDots_eq_self {segments : List (List Char)} (h : IsDotless segments) :
    Url.withoutDots segments = segments := by
  have hkept : ∀ rest kept : List (List Char), IsDotless rest →
      rest.foldl (fun kept s =>
        if s = ['.', '.'] then kept.dropLast else if s = ['.'] then kept else kept ++ [s]) kept =
      kept ++ rest := by
    intro rest
    induction rest with
    | nil => exact fun kept _ => (List.append_nil kept).symm
    | cons segment rest ih =>
        intro kept hrest
        obtain ⟨hdot, hdots⟩ := hrest segment List.mem_cons_self
        rw [List.foldl_cons, if_neg hdots, if_neg hdot,
          ih _ fun s hs => hrest s (List.mem_cons_of_mem _ hs), List.append_assoc]
        rfl
  rw [Url.withoutDots]
  simp only [hkept segments [] h, List.nil_append]
  cases hlast : segments.getLast? with
  | none => rfl
  | some last =>
      obtain ⟨hdot, hdots⟩ := h last (List.mem_of_getLast? hlast)
      exact if_neg (not_or.2 ⟨hdot, hdots⟩)

/-- A path from the root stands for itself. -/
theorem resolvePath_rooted (base : List Char) {path : List Char} (h : path.head? = some '/')
    (hdotless : IsDotless (Text.splitAll '/' path)) : Url.resolvePath base path = path := by
  obtain ⟨rest, rfl⟩ := List.head?_eq_some_iff.1 h
  rw [Url.resolvePath]
  simp only [withoutDots_eq_self hdotless, Text.joinWith_splitAll]

/-- A relative path is put behind the root. -/
theorem resolvePath_relative {path : List Char} (h : path.head? ≠ some '/')
    (hdotless : IsDotless (Text.splitAll '/' path))
    (hempty : ∀ segment ∈ (Text.splitAll '/' path).dropLast, segment ≠ []) :
    Url.resolvePath ['/'] path = '/' :: path := by
  obtain ⟨init, last, hsplit⟩ : ∃ init last, Text.splitAll '/' path = init ++ [last] := by
    rcases List.eq_nil_or_concat (Text.splitAll '/' path) with hnil | ⟨init, last, hconcat⟩
    · exact absurd hnil (Text.splitAll_ne_nil '/' path)
    · exact ⟨init, last, by rw [hconcat, List.concat_eq_append]⟩
  rw [hsplit, List.dropLast_concat] at hempty
  have hinit : init.filter (!·.isEmpty) = init :=
    List.filter_eq_self.2 fun segment hs => by simpa using hempty segment hs
  have hsegments : Url.relativeSegments ['/'] path = [] :: Text.splitAll '/' path := by
    have hbase : Text.splitAll '/' ['/'] = [[], []] := by decide
    rw [Url.relativeSegments, hbase, hsplit]
    show [] :: ((([] :: (init ++ [last])).dropLast.filter (!·.isEmpty)) ++
      [([] :: (init ++ [last])).getLast?.getD []]) = _
    have hcons : [] :: (init ++ [last]) = ([] :: init) ++ [last] := rfl
    rw [hcons, List.dropLast_concat, List.getLast?_concat, List.filter_cons_of_neg (by simp), hinit]
    rfl
  have hdotless' : IsDotless ([] :: Text.splitAll '/' path) := by
    intro segment hs
    rcases List.mem_cons.1 hs with rfl | hs
    · exact ⟨nofun, nofun⟩
    · exact hdotless segment hs
  have hjoin : Text.joinWith '/' ([] :: Text.splitAll '/' path) = '/' :: path := by
    rw [Text.joinWith_cons (Text.splitAll_ne_nil '/' path), Text.joinWith_splitAll]
    rfl
  unfold Url.resolvePath
  split
  · exact absurd rfl h
  · simp only [hsegments, withoutDots_eq_self hdotless', hjoin]

theorem isSound_root (hscheme : isScheme scheme = true) (hhost : host.all isHostChar = true) :
    (root scheme host).IsSound where
  scheme := fun _ h => Option.some.inj h ▸ hscheme
  host := fun _ h => Option.some.inj h ▸ hhost
  path := rfl
  query := fun _ h => absurd h nofun
  fragment := fun _ h => absurd h nofun
  pathAfterHost := fun _ => .inr rfl
  pathAlone := fun h => absurd h nofun
  firstSegment := fun h => absurd h nofun

/-- A URL with a host is plain, and so is a path from the root, if there is nothing in it that would
have to be taken apart or away. -/
theorem isPlain_of_absolute (hu : u.IsSound) (habsolute : (∃ c name, u.host? = some (c :: name)) ∨
      u.scheme? = none ∧ u.host? = none ∧ u.path.head? = some '/')
    (hfragment : u.fragment? = none) (hparams : ';' ∉ u.path)
    (hdotless : IsDotless (Text.splitAll '/' u.path)) : u.IsPlain where
  fragment := hfragment
  params := hparams
  dotless := hdotless
  host := by
    rcases habsolute with ⟨c, name, h⟩ | ⟨_, h, _⟩ <;> rw [h] <;> exact nofun
  scheme := by
    intro hscheme
    rcases habsolute with ⟨c, name, h⟩ | ⟨h, _, _⟩
    · rw [h]
      exact nofun
    · exact absurd h hscheme
  relative := by
    intro hrooted
    rcases habsolute with ⟨c, name, h⟩ | ⟨_, _, h⟩
    · have hnil := (hu.pathAfterHost (by rw [h]; exact nofun)).resolve_right hrooted
      rw [hnil]
      exact fun segment hs => absurd hs List.not_mem_nil
    · exact absurd h hrooted

theorem parts_root (hscheme : scheme.map Url.lowerAscii = scheme) (host : List Char) :
    (root scheme host).parts [] = ⟨scheme, host, ['/'], [], [], []⟩ := by
  show (⟨scheme.map Url.lowerAscii, host, ['/'], [], [], []⟩ : Url.Parts) = _
  rw [hscheme]

/-- The path of a reference behind the root of a host. -/
def pathAtRoot (u : Uri) : List Char :=
  if u.host? ≠ none ∨ u.path.head? = some '/' then u.path else '/' :: u.path

theorem pathAtRoot_cases (hu : u.IsSound) :
    u.pathAtRoot = [] ∨ u.pathAtRoot.head? = some '/' := by
  rw [pathAtRoot]
  split
  · rename_i h
    rcases h with h | h
    · exact hu.pathAfterHost h
    · exact .inr h
  · exact .inr rfl

/-- A reference with another scheme stands for itself. -/
theorem settled_of_ne (hother : u.schemeOr scheme ≠ scheme) : (root scheme host).settled u = u :=
  if_neg hother

/-- The parts of what a reference is settled to, if its scheme is that of the root. -/
theorem settled_eq (hplain : u.IsPlain) (hsame : u.schemeOr scheme = scheme) :
    (root scheme host).settled u =
      ⟨some scheme, some (u.host?.getD host), u.pathAtRoot, nonempty (u.query?.getD []), none⟩ := by
  rw [settled]
  refine (if_pos hsame).trans ?_
  obtain ⟨scheme?, host?, path, query?, fragment?⟩ := u
  obtain rfl : fragment? = none := hplain.fragment
  cases scheme? with
  | some name =>
      cases host? with
      | some name' => rfl
      | none => exact absurd rfl (hplain.scheme nofun)
  | none =>
      cases host? with
      | some name' => rfl
      | none =>
          cases path with
          | nil => cases query? <;> rfl
          | cons c path =>
              by_cases hrooted : c = '/'
              · rw [hrooted]
                rfl
              · have hrelative : (c :: path).head? ≠ some '/' := fun h => hrooted (Option.some.inj h)
                simp only [resolve, pathAtRoot, if_neg hrelative, reduceCtorEq, if_false, ne_eq,
                  not_true_eq_false, false_or]
                rfl

theorem parts_eq (hplain : u.IsPlain) (defaultScheme : List Char) : u.parts defaultScheme =
    ⟨u.schemeOr defaultScheme, u.host?.getD [], u.path, [], u.query?.getD [], []⟩ := by
  rw [parts, splitParams_of_not_mem hplain.params, hplain.fragment]
  rfl

/-- The parts are resolved to those of what the reference is settled to. -/
theorem resolve_parts (hplain : u.IsPlain) (hsame : u.schemeOr scheme = scheme) :
    Url.Parts.resolve ⟨scheme, host, ['/'], [], [], []⟩ (u.parts scheme) =
      ⟨scheme, u.host?.getD host, u.pathAtRoot, [], u.query?.getD [], []⟩ := by
  rw [parts_eq hplain, hsame, Url.Parts.resolve]
  cases hhost : u.host? with
  | some name =>
      -- what names a host is not resolved at all
      have hname : (!name.isEmpty) = true := by
        cases name with
        | nil => exact absurd hhost hplain.host
        | cons c name => rfl
      have hpath : u.pathAtRoot = u.path := if_pos (.inl (by rw [hhost]; exact nofun))
      rw [hpath]
      exact if_pos hname
  | none =>
      by_cases hrooted : u.path.head? = some '/'
      · have hpath : u.pathAtRoot = u.path := if_pos (.inr hrooted)
        have hne : u.path.isEmpty = false := by
          obtain ⟨rest, hrest⟩ := List.head?_eq_some_iff.1 hrooted
          rw [hrest]
          rfl
        simp [hpath, hne, resolvePath_rooted _ hrooted hplain.dotless]
      · have hpath : u.pathAtRoot = '/' :: u.path := if_neg (by simp [hhost, hrooted])
        simp only [hpath, resolvePath_relative hrooted hplain.dotless (hplain.relative hrooted)]
        cases hempty : u.path with
        | nil => cases u.query?.getD [] <;> rfl
        | cons c path => rfl

/-- **A reference is resolved against the root of a host as it should be**, if both hosts are accepted. -/
theorem resolve_text (hscheme : scheme.map Url.lowerAscii = scheme) (hroot : (root scheme host).IsSound)
    (hu : u.IsSound) (hplain : u.IsPlain) (hne : u.text ≠ []) :
    Url.resolve (String.ofList (root scheme host).text) (String.ofList u.text) = do
      Url.checkHost host
      Url.checkHost (u.host?.getD [])
      return String.ofList ((root scheme host).settled u).text := by
  have hempty : String.ofList u.text ≠ "" := fun h => hne (by
    rw [← String.toList_ofList (l := u.text), h]
    rfl)
  have hsettled : (if (u.parts scheme).scheme = scheme then
      (Url.Parts.resolve ⟨scheme, host, ['/'], [], [], []⟩ (u.parts scheme)).text
      else String.ofList u.text) = String.ofList ((root scheme host).settled u).text := by
    by_cases hsame : u.schemeOr scheme = scheme
    · rw [resolve_parts hplain hsame, text_parts rfl (pathAtRoot_cases hu), settled_eq hplain hsame]
      exact if_pos hsame
    · rw [settled_of_ne hsame]
      exact if_neg hsame
  simp only [Url.resolve, if_neg hempty, split_text hroot, split_text hu, parts_root hscheme, bind_assoc,
    pure_bind, hsettled]
  rfl

/-- A reference that is no text at all is the root itself. -/
theorem settled_of_text_eq_nil (h : u.text = []) : (root scheme host).settled u = root scheme host := by
  obtain ⟨scheme?, host?, path, query?, fragment?⟩ := u
  simp only [text, tail, List.append_eq_nil_iff] at h
  obtain ⟨hscheme, hhost, rfl, hquery, hfragment⟩ := h
  obtain rfl : scheme? = none := by
    cases scheme? with
    | none => rfl
    | some name => exact absurd hscheme (List.append_ne_nil_of_right_ne_nil _ (List.cons_ne_nil _ _))
  have hnone {part? : Option (List Char)} {c : Char} {mark : List Char}
      (h : marked (c :: mark) part? = []) : part? = none := by
    cases part? with
    | none => rfl
    | some part => exact absurd h (List.cons_ne_nil _ _)
  obtain rfl := hnone hhost
  obtain rfl := hnone hquery
  obtain rfl := hnone hfragment
  exact if_pos rfl

/-- What comes out is the text of what the reference is settled to. -/
theorem resolve_eq_ok {place : String} (hscheme : scheme.map Url.lowerAscii = scheme)
    (hroot : (root scheme host).IsSound) (hu : u.IsSound) (hplain : u.IsPlain)
    (h : Url.resolve (String.ofList (root scheme host).text) (String.ofList u.text) = .ok place) :
    place = String.ofList ((root scheme host).settled u).text := by
  by_cases hne : u.text = []
  · rw [hne] at h
    rw [settled_of_text_eq_nil hne]
    exact (Except.ok.inj h).symm
  · rw [resolve_text hscheme hroot hu hplain hne] at h
    revert h
    cases Url.checkHost host with
    | error e => exact nofun
    | ok _ =>
        cases Url.checkHost (u.host?.getD []) with
        | error e => exact nofun
        | ok _ => exact fun h => (Except.ok.inj h).symm

/-- Something comes out if the hosts are accepted. -/
theorem resolve_isOk (hscheme : scheme.map Url.lowerAscii = scheme) (hroot : (root scheme host).IsSound)
    (hu : u.IsSound) (hplain : u.IsPlain) (hhost : Url.checkHost host = .ok ())
    (hname : Url.checkHost (u.host?.getD []) = .ok ()) :
    ∃ place, Url.resolve (String.ofList (root scheme host).text) (String.ofList u.text) = .ok place := by
  by_cases hne : u.text = []
  · rw [hne]
    exact ⟨_, rfl⟩
  · rw [resolve_text hscheme hroot hu hplain hne, hhost, hname]
    exact ⟨_, rfl⟩

theorem fragment_settled (hplain : u.IsPlain) : ((root scheme host).settled u).fragment? = none := by
  by_cases hsame : u.schemeOr scheme = scheme
  · rw [settled_eq hplain hsame]
  · rw [settled_of_ne hsame]
    exact hplain.fragment

theorem isSound_settled (hroot : (root scheme host).IsSound) (hu : u.IsSound) (hplain : u.IsPlain) :
    ((root scheme host).settled u).IsSound := by
  by_cases hsame : u.schemeOr scheme = scheme
  case neg =>
    rw [settled_of_ne hsame]
    exact hu
  rw [settled_eq hplain hsame]
  exact {
    scheme := hroot.scheme
    host := by
      intro name hname
      cases hhost : u.host? with
      | none =>
          rw [hhost] at hname
          exact hroot.host name hname
      | some name' =>
          rw [hhost] at hname
          exact hu.host name (hhost.trans hname)
    path := by
      show u.pathAtRoot.all isPathChar = true
      rw [pathAtRoot]
      split
      · exact hu.path
      · exact Bool.and_eq_true_iff.2 ⟨rfl, hu.path⟩
    query := by
      intro query hquery
      obtain rfl := nonempty_eq_some hquery
      cases hgiven : u.query? with
      | none => rfl
      | some given => exact hu.query given hgiven
    fragment := fun _ h => absurd h nofun
    pathAfterHost := fun _ => pathAtRoot_cases hu
    pathAlone := fun h => absurd h nofun
    firstSegment := fun h => absurd h nofun }

/-- **What a reference is settled to is what it is resolved to.** -/
theorem same_settled (hscheme : scheme.map Url.lowerAscii = scheme) :
    ((root scheme host).settled u).Same ((root scheme host).resolve u) := by
  by_cases hsame : u.schemeOr scheme = scheme
  · have hsettled : (root scheme host).settled u = { (root scheme host).resolve u with
        scheme? := some scheme
        query? := nonempty (((root scheme host).resolve u).query?.getD []) } := if_pos hsame
    rw [hsettled]
    refine ⟨?_, rfl, rfl, getD_nonempty _, rfl⟩
    rw [Option.map_some, hscheme]
    cases hname : u.scheme? with
    | some name =>
        rw [schemeOr, hname] at hsame
        rw [resolve_of_scheme _ (by rw [hname]; exact Option.some_ne_none name), hname, Option.map_some]
        exact congrArg some hsame.symm
    | none =>
        have hroot : ((root scheme host).resolve u).scheme? = some scheme := by
          unfold resolve
          rw [hname]
          cases u.host? with
          | some host' => rfl
          | none => show (if u.path = [] then _ else _ : Uri).scheme? = _; split <;> rfl
        rw [hroot, Option.map_some, hscheme]
  · have hname : u.scheme? ≠ none := fun h => hsame (by rw [schemeOr, h]; rfl)
    rw [settled_of_ne hsame, resolve_of_scheme _ hname]
    exact .refl u

/-! ## Parameters of a query -/

/-- The parameters of a query that are not empty. -/
def queryParams (u : Uri) : List (List Char) :=
  (Text.splitAll '&' (u.query?.getD [])).filter (!·.isEmpty)

/-- A reference with one more parameter in its query. -/
def withParam (u : Uri) (param : List Char) : Uri :=
  { u with query? := some ((u.query?.map (· ++ ['&'])).getD [] ++ param) }

theorem queryParams_settled (hplain : u.IsPlain) :
    ((root scheme host).settled u).queryParams = u.queryParams := by
  by_cases hsame : u.schemeOr scheme = scheme
  · rw [settled_eq hplain hsame, queryParams, getD_nonempty]
    rfl
  · rw [settled_of_ne hsame]

/-- **A parameter is added behind the others**, which stay as they are. -/
theorem queryParams_withParam (u : Uri) {param : List Char} (hne : param ≠ []) (hparam : '&' ∉ param) :
    (u.withParam param).queryParams = u.queryParams ++ [param] := by
  have hlast : [param].filter (!·.isEmpty) = [param] :=
    List.filter_cons_of_pos (by simpa using hne)
  rw [queryParams, queryParams, withParam]
  cases u.query? with
  | none =>
      show (Text.splitAll '&' ([] ++ param)).filter _ = _
      rw [List.nil_append, Text.splitAll_of_not_mem hparam, hlast]
      rfl
  | some query =>
      show (Text.splitAll '&' (query ++ ['&'] ++ param)).filter _ = _
      rw [List.append_assoc, List.singleton_append, Text.splitAll_append_sep,
        Text.splitAll_of_not_mem hparam, List.filter_append, hlast]
      rfl

/-- There is a question mark in a reference without a fragment if it has a query, and only then. -/
theorem IsSound.questionMark_mem (h : u.IsSound) (hfragment : u.fragment? = none) :
    '?' ∈ u.text ↔ u.query? ≠ none := by
  constructor
  · intro hmem hquery
    rw [text, tail, hquery, hfragment] at hmem
    simp only [List.mem_append] at hmem
    rcases hmem with hmem | hmem | hmem | hmem | hmem
    · cases hscheme : u.scheme? with
      | none =>
          rw [hscheme] at hmem
          exact absurd hmem List.not_mem_nil
      | some scheme =>
          rw [hscheme] at hmem
          rcases List.mem_append.1 hmem with hmem | hmem
          · exact absurd (isSchemeChar_of_mem (h.scheme scheme hscheme) hmem) (by decide)
          · exact absurd hmem (by decide)
    · rcases mem_marked hmem with hmem | ⟨host, hhost, hmem⟩
      · exact absurd hmem (by decide)
      · exact absurd (List.all_eq_true.1 (h.host host hhost) _ hmem) (by decide)
    · exact h.query_not_mem hmem
    · exact absurd hmem List.not_mem_nil
    · exact absurd hmem List.not_mem_nil
  · intro hquery
    obtain ⟨query, hsome⟩ := Option.ne_none_iff_exists'.1 hquery
    rw [text, tail, hsome]
    simp [marked]

/-- **A parameter that is written behind a reference is one more parameter of it.** -/
theorem reads_withParam {place : String} {param : List Char} (h : u.Reads place)
    (hfragment : u.fragment? = none) (hparam : param.all isQueryChar = true) :
    (u.withParam param).Reads
      (place ++ (if place.toList.contains '?' then "&" else "?") ++ String.ofList param) := by
  obtain ⟨hu, hplace⟩ := h
  constructor
  · refine ⟨hu.scheme, hu.host, hu.path, fun query hquery => ?_, hu.fragment, hu.pathAfterHost,
      hu.pathAlone, hu.firstSegment⟩
    obtain rfl := Option.some.inj hquery
    rw [List.all_append, hparam, Bool.and_true]
    cases hgiven : u.query? with
    | none => rfl
    | some given =>
        show (given ++ ['&']).all isQueryChar = true
        rw [List.all_append, hu.query given hgiven]
        rfl
  · have hmark : place.toList.contains '?' = u.query?.isSome := by
      rw [hplace, Bool.eq_iff_iff, List.contains_iff_mem, hu.questionMark_mem hfragment,
        Option.isSome_iff_ne_none]
    rw [hmark, String.toList_append, String.toList_append, hplace, String.toList_ofList]
    obtain ⟨scheme?, host?, path, query?, fragment?⟩ := u
    obtain rfl : fragment? = none := hfragment
    cases query? <;> simp [withParam, text, tail, marked]

end ImageTransfer.Uri
