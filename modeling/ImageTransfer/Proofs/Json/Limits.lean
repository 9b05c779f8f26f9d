import ImageTransfer.Proofs.Json.ReadBack

/-!
# The limits of the reader

Two errors of the reader say nothing about the form of a text: that containers are nested too
deeply, and that a whole number has too many digits. Both are about what is in the text. There are
more opening brackets than containers may be nested, and there are that many digits in a row
(`ReadError.Explained`).

A turn that goes on leaves an ending of the text, and a container that it enters is a bracket that it
has read. So the containers that the reader is in and the brackets that are left never get more
(`turn_accounted`), and that carries an error of a later turn back to the whole text.
-/

namespace ImageTransfer.Json

/-- How many brackets and braces open in a text. -/
def brackets (t : Text) : Nat := t.countP fun c => c.val == 0x5B || c.val == 0x7B

/-- Somewhere in a text so many digits stand in a row. -/
def HasDigits (n : Nat) (t : Text) : Prop :=
  ∃ digits, digits <:+: t ∧ digits.length = n ∧ ∀ c ∈ digits, isDigit c = true

/-- What an error says about a text that is read inside so many containers. -/
def ReadError.Explained (depth : Nat) (t : Text) : ReadError → Prop
  | .malformed _ _ => True
  | .tooManyDigits n => Decimal.digitLimit < n ∧ HasDigits n t
  | .tooDeep => nestingLimit < depth + brackets t

/-- The containers at a place that are not in the stack: an object comes to it by a member. -/
def Place.inside : Place → Nat
  | .firstMember | .member _ => 1
  | _ => 0

variable {t left : Text}

theorem brackets_le_of_suffix (h : left <:+ t) : brackets left ≤ brackets t := h.sublist.countP_le

theorem HasDigits.of_suffix {n : Nat} (h : HasDigits n left) (hs : left <:+ t) : HasDigits n t := by
  obtain ⟨digits, hin, hlength, hdigits⟩ := h
  exact ⟨digits, hin.trans hs.isInfix, hlength, hdigits⟩

theorem ReadError.Explained.earlier {e : ReadError} {depth depth' : Nat}
    (h : e.Explained depth' left) (hs : left <:+ t)
    (hdepth : depth' + brackets left ≤ depth + brackets t) : e.Explained depth t := by
  cases e with
  | malformed problem position => trivial
  | tooManyDigits n => exact ⟨h.1, h.2.of_suffix hs⟩
  | tooDeep => exact Nat.lt_of_lt_of_le h hdepth

/-! ## What is left of a text -/

theorem skipSpace_suffix (t : Text) : skipSpace t <:+ t := List.dropWhile_suffix _

theorem suffix_of_skipSpace {c : CodePoint} {rest : Text} (h : skipSpace t = c :: rest) :
    rest <:+ t := by
  have hs := skipSpace_suffix t
  rw [h] at hs
  exact (List.suffix_cons c rest).trans hs

/-- A character that is read is one of the text. -/
theorem brackets_of_skipSpace {c : CodePoint} {rest : Text} (h : skipSpace t = c :: rest) :
    brackets (c :: rest) ≤ brackets t := by
  rw [← h]
  exact brackets_le_of_suffix (skipSpace_suffix t)

/-- Four digits are read, or a pair of escapes of which each has four. -/
theorem readUnit_suffix {u : CodePoint} (h : readUnit t = .ok (u, left)) : left <:+ t := by
  unfold readUnit at h
  dsimp only at h
  repeat' split at h
  all_goals simp only [Except.ok.injEq, Prod.mk.injEq, reduceCtorEq] at h
  all_goals obtain ⟨_, rfl⟩ := h
  all_goals first
    | exact ⟨[_, _, _, _], rfl⟩
    | exact ⟨[_, _, _, _, _, _, _, _, _, _], rfl⟩

theorem readText_suffix {opening s : Text} {done : Array CodePoint}
    (h : readText opening done t = .ok (s, left)) : left <:+ t := by
  fun_induction readText opening done t with
  | case2 done c rest =>
      obtain ⟨-, rfl⟩ := Prod.mk.inj (Except.ok.inj h)
      exact List.suffix_cons c rest
  | case4 done c _ _ e after _ u more hunit ih =>
      exact (ih h).trans ((readUnit_suffix hunit).trans ⟨[c, e], rfl⟩)
  | case6 done c _ _ e after _ u _ ih => exact (ih h).trans ⟨[c, e], rfl⟩
  | case9 done c rest _ _ _ ih => exact (ih h).trans (List.suffix_cons c rest)
  | case1 | case3 | case5 | case7 | case8 => cases h

/-- Only the form of a string can be wrong. -/
theorem readText_error {opening : Text} {done : Array CodePoint} {e : ReadError}
    (h : readText opening done t = .error e) :
    ∃ problem position, e = .malformed problem position := by
  fun_induction readText opening done t with
  | case2 => cases h
  | case4 done c _ _ e after _ u more hunit ih => exact ih h
  | case6 done c _ _ e after _ u _ ih => exact ih h
  | case9 done c rest _ _ _ ih => exact ih h
  | case5 done c _ _ e after _ error hunit =>
      cases h
      unfold readUnit at hunit
      dsimp only at hunit
      repeat' split at hunit
      all_goals simp only [Except.error.injEq, reduceCtorEq] at hunit
      all_goals exact ⟨_, _, hunit.symm⟩
  | case1 | case3 | case7 | case8 => exact ⟨_, _, (Except.error.inj h).symm⟩

theorem readFraction_suffix (t : Text) : (readFraction t).2 <:+ t := by
  unfold readFraction
  split
  · rename_i point rest
    split
    · exact (List.dropWhile_suffix _).trans (List.suffix_cons point rest)
    · exact List.suffix_refl _
  · exact List.suffix_refl _

theorem readSign_suffix (plus : Bool) (t : Text) : (readSign plus t).2 <:+ t := by
  unfold readSign
  split
  · rename_i c rest
    split
    · exact List.suffix_cons c rest
    · split
      · exact List.suffix_cons c rest
      · exact List.suffix_refl _
  · exact List.suffix_refl _

theorem readExponent_suffix (t : Text) : (readExponent t).2 <:+ t := by
  unfold readExponent
  split
  · rename_i e rest
    dsimp only
    split
    · have hsign := (readSign_suffix true rest).trans (List.suffix_cons e rest)
      exact (List.dropWhile_suffix _).trans hsign
    · exact List.suffix_refl _
  · exact List.suffix_refl _

/-- Whole digits are in the text, and what follows them is its ending. -/
theorem readWhole?_digits {ds : List Nat} (h : readWhole? t = some (ds, left)) :
    left <:+ t ∧ HasDigits ds.length t := by
  unfold readWhole? at h
  split at h
  · rename_i c rest
    split at h
    · rename_i hzero
      cases h
      refine ⟨List.suffix_cons c left, [c], (List.prefix_append [c] left).isInfix, rfl, ?_⟩
      intro d hd
      rw [List.mem_singleton.1 hd, isDigit, hzero]
      rfl
    · split at h
      · cases h
        refine ⟨List.dropWhile_suffix _, (c :: rest).takeWhile isDigit,
          (List.takeWhile_prefix _).isInfix, ?_, List.all_eq_true.1 List.all_takeWhile⟩
        rw [takeDigits, List.length_map]
      · exact absurd h nofun
  · exact absurd h nofun

theorem readNumeral?_digits {n : Numeral} (h : readNumeral? t = some (n, left)) :
    left <:+ t ∧ HasDigits n.whole.length t := by
  obtain ⟨⟨whole, rest⟩, hwhole, hn⟩ := Option.map_eq_some_iff.1 h
  cases hn
  obtain ⟨hrest, hdigits⟩ := readWhole?_digits hwhole
  have hsign := readSign_suffix false t
  refine ⟨?_, hdigits.of_suffix hsign⟩
  exact (readExponent_suffix _).trans ((readFraction_suffix rest).trans (hrest.trans hsign))

theorem readAtom_suffix {v : Value} (h : readAtom t = .ok (v, left)) : left <:+ t := by
  unfold readAtom at h
  split at h
  · rename_i hconstant
    cases h
    obtain ⟨_, _, hatom⟩ := Option.map_eq_some_iff.1 hconstant
    cases hatom
    exact List.drop_suffix _ _
  · split at h
    · rename_i hn
      split at h
      · cases h
        exact (readNumeral?_digits hn).1
      · exact absurd h nofun
    · exact absurd h nofun

theorem readAtom_explained {e : ReadError} (depth : Nat) (h : readAtom t = .error e) :
    e.Explained depth t := by
  unfold readAtom at h
  split at h
  · exact absurd h nofun
  · split at h
    · rename_i n rest hn
      split at h
      · exact absurd h nofun
      · rename_i hvalue
        cases h
        unfold Numeral.value at hvalue
        split at hvalue
        · split at hvalue
          · rename_i hmany
            cases hvalue
            exact ⟨hmany, (readNumeral?_digits hn).2⟩
          · exact absurd hvalue nofun
        · exact absurd hvalue nofun
    · cases h
      trivial

/-! ## The turns of the reader -/

variable {stack stack' : List Frame} {place place' : Place}

/-- A turn that goes on leaves an ending of the text, and has entered no more containers than it has
read brackets. -/
def Leaves (depth : Nat) (t : Text) : Turn → Prop
  | .done _ => True
  | .goOn stack place left =>
    left <:+ t ∧ stack.length + place.inside + brackets left ≤ depth + brackets t

/-- What has come of a turn. -/
def Accounted (depth : Nat) (t : Text) : Except ReadError Turn → Prop
  | .ok next => Leaves depth t next
  | .error e => e.Explained depth t

theorem leaves_of_suffix {depth : Nat} (hs : left <:+ t)
    (hdepth : stack.length + place.inside ≤ depth) : Leaves depth t (.goOn stack place left) := by
  have hle := brackets_le_of_suffix hs
  exact ⟨hs, by omega⟩

theorem readValue_accounted (stack : List Frame) (t : Text) :
    Accounted stack.length t (readValue stack t) := by
  unfold readValue
  split
  · trivial
  · rename_i c rest hspace
    have hrest := suffix_of_skipSpace hspace
    have hcount := brackets_of_skipSpace hspace
    split
    · split
      · rename_i s more htext
        exact leaves_of_suffix ((readText_suffix htext).trans hrest) (Nat.le_refl _)
      · rename_i e htext
        obtain ⟨_, _, rfl⟩ := readText_error htext
        trivial
    · split
      · rename_i hopening
        -- the bracket that is read makes up for the container that it opens
        have hbracket : brackets (c :: rest) = brackets rest + 1 := by
          refine List.countP_cons_of_pos ?_
          rcases hopening with h | h <;> rw [h] <;> rfl
        split
        · rename_i hdeep
          show nestingLimit < stack.length + brackets t
          omega
        · split
          · refine ⟨hrest, ?_⟩
            show stack.length + 1 + 0 + brackets rest ≤ _
            omega
          · refine ⟨hrest, ?_⟩
            show stack.length + 1 + brackets rest ≤ _
            omega
      · split
        · rename_i v more hatom
          have hmore := readAtom_suffix hatom
          rw [← hspace] at hmore
          exact leaves_of_suffix (hmore.trans (skipSpace_suffix t)) (Nat.le_refl _)
        · rename_i e hatom
          have he := readAtom_explained stack.length hatom
          rw [← hspace] at he
          refine he.earlier (skipSpace_suffix t) ?_
          rw [hspace]
          omega

theorem readMember_accounted (stack : List Frame) (done : Members) (t : Text) :
    Accounted (stack.length + 1) t (readMember stack done t) := by
  unfold readMember
  split
  · trivial
  · rename_i c rest hspace
    have hrest := suffix_of_skipSpace hspace
    split
    · split
      · rename_i e htext
        obtain ⟨_, _, rfl⟩ := readText_error htext
        trivial
      · rename_i name more htext
        have hmore := (readText_suffix htext).trans hrest
        split
        · trivial
        · rename_i colon last hcolon
          split
          · exact leaves_of_suffix ((suffix_of_skipSpace hcolon).trans hmore) (Nat.le_refl _)
          · trivial
    · trivial

theorem readAfter_accounted (v : Value) (stack : List Frame) (t : Text) :
    Accounted stack.length t (readAfter v stack t) := by
  unfold readAfter
  split
  · split
    · trivial
    · trivial
  -- a container that is left, or that goes on, has been in the stack
  all_goals
    split
    · trivial
    · rename_i c rest hspace
      have hrest := suffix_of_skipSpace hspace
      split
      · exact leaves_of_suffix hrest (Nat.le_refl _)
      · split
        · exact leaves_of_suffix hrest (Nat.le_succ _)
        · trivial

/-- **A turn enters no container for which it has not read a bracket**, and an error that it ends with
says what it should. -/
theorem turn_accounted (stack : List Frame) (place : Place) (t : Text) :
    Accounted (stack.length + place.inside) t (turn stack place t) := by
  cases place with
  | value => exact readValue_accounted stack t
  | member done => exact readMember_accounted stack done t
  | after v => exact readAfter_accounted v stack t
  | firstItem =>
      dsimp only [turn]
      split
      · rename_i c rest frame outer hspace
        split
        · exact leaves_of_suffix (suffix_of_skipSpace hspace) (Nat.le_succ _)
        · exact leaves_of_suffix (List.suffix_refl t) (Nat.le_refl _)
      · exact leaves_of_suffix (List.suffix_refl t) (Nat.le_refl _)
  | firstMember =>
      dsimp only [turn]
      split
      · rename_i c rest hspace
        split
        · exact leaves_of_suffix (suffix_of_skipSpace hspace) (Nat.le_succ _)
        · exact leaves_of_suffix (List.suffix_refl t) (Nat.le_refl _)
      · exact leaves_of_suffix (List.suffix_refl t) (Nat.le_refl _)

theorem readFrom_explained {e : ReadError} (h : readFrom stack place t = .error e) :
    e.Explained (stack.length + place.inside) t := by
  -- by the turns of the reader: one fails, is the last, or is followed by others
  induction stack, place, t using readFrom.induct with
  | case1 stack place t error hturn =>
      have hturns := turn_accounted stack place t
      rw [readFrom_eq, hturn] at h
      rw [hturn] at hturns
      cases h
      exact hturns
  | case2 stack place t v hturn =>
      rw [readFrom_eq, hturn] at h
      exact absurd h nofun
  | case3 stack place t stack' place' left hturn ih =>
      have hturns := turn_accounted stack place t
      rw [readFrom_eq, hturn] at h
      rw [hturn] at hturns
      exact (ih h).earlier hturns.1 hturns.2

/-- **What an error says of the text**: that a limit is exceeded is said of no text that keeps to
it. -/
theorem read_explained {e : ReadError} (h : read t = .error e) : e.Explained 0 t :=
  readFrom_explained h

/-- What is said of a document of which a limit is exceeded. -/
theorem readDocument_explained {bytes : List UInt8} {e : DocumentError}
    (h : readDocument bytes = .error e) :
    (e = .tooDeep → ∃ t, decodeDocument bytes = .ok t ∧ nestingLimit < brackets t) ∧
      ∀ n, e = .tooManyDigits n →
        ∃ t, decodeDocument bytes = .ok t ∧ Decimal.digitLimit < n ∧ HasDigits n t := by
  unfold readDocument at h
  split at h
  · cases h
    exact ⟨nofun, nofun⟩
  · rename_i t hdecode
    split at h
    · exact absurd h nofun
    · cases h
      exact ⟨nofun, nofun⟩
    · rename_i n hread
      cases h
      refine ⟨nofun, ?_⟩
      rintro _ ⟨⟩
      exact ⟨t, hdecode, read_explained hread⟩
    · rename_i hread
      cases h
      have hdeep : nestingLimit < 0 + brackets t := read_explained hread
      rw [Nat.zero_add] at hdeep
      exact ⟨fun _ => ⟨t, hdecode, hdeep⟩, nofun⟩

end ImageTransfer.Json
