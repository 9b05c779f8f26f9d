import ImageTransfer.Proofs.Json.Documents
import ImageTransfer.Proofs.Json.Limits

/-!
# The grammar of JSON

What a document may be, as productions that go from a text to what is left of it (`Derives`). The
names that the reader takes for what is no number are not in the grammar. Which numbers are admitted is
left open, so that it describes documents as well of which all numbers are in a range.

A reader takes each text of the grammar to its end, unless a limit stops it (`Derives.reads`), by
induction on the derivation. If the numbers are such that they have a finite value, no other number
comes out of it.
-/

namespace ImageTransfer.Json

open Decimal

/-! ## Productions -/

/-- White space between tokens. -/
def IsSpaces (s : Text) : Prop := ∀ c ∈ s, c.val ∈ [0x20, 0x09, 0x0A, 0x0D]

/-- The digits and letters of which four make an escape. -/
def IsHex (c : CodePoint) : Prop :=
  (0x30 ≤ c.val ∧ c.val ≤ 0x39) ∨ (0x41 ≤ c.val ∧ c.val ≤ 0x46) ∨ (0x61 ≤ c.val ∧ c.val ≤ 0x66)

instance (c : CodePoint) : Decidable (IsHex c) := inferInstanceAs (Decidable (_ ∨ _))

/-- The inside of a string and its closing quote. -/
inductive StringBody : Text → Text → Prop
  | close {rest : Text} : StringBody (chars "\"" ++ rest) rest
  | unescaped {c : CodePoint} {t rest : Text} : 0x20 ≤ c.val → c.val ≠ 0x22 → c.val ≠ 0x5C →
      StringBody t rest → StringBody (c :: t) rest
  | short {e : CodePoint} {t rest : Text} : e ∈ chars "\"\\/bfnrt" → StringBody t rest →
      StringBody (CodePoint.ofChar '\\' :: e :: t) rest
  | unit {a b c d : CodePoint} {t rest : Text} : IsHex a → IsHex b → IsHex c → IsHex d →
      StringBody t rest →
      StringBody (CodePoint.ofChar '\\' :: CodePoint.ofChar 'u' :: a :: b :: c :: d :: t) rest

/-- The exponent of a number, and what it says. -/
inductive IsExponent : List Char → Option Int → Prop
  | none : IsExponent [] none
  | some {letter : Char} {sign digits : List Char} : letter ∈ ['e', 'E'] →
      sign ∈ [[], ['+'], ['-']] → digits ≠ [] → (∀ c ∈ digits, c.isDigit) →
      IsExponent (letter :: (sign ++ digits))
        (some (Spelling.exponentValue (decide (sign = ['-'])) digits))

/-- A number, and the numeral that it is. -/
inductive IsNumber : List Char → Numeral → Prop
  | intro {n : Spelling} {cs : List Char} {exponent : Option Int} : n.Sound → n.exponent = none →
      IsExponent cs exponent → IsNumber (n.chars ++ cs) { n.numeral with exponent := exponent }

/-- The parts of a document. -/
inductive Symbol
  | value
  /-- A value with white space around it. -/
  | element
  | elements
  | member
  | members

/-- How parts are made of others, for the numbers that fit. A part is at the beginning of the first
text, and the second is left. -/
inductive Derives (fits : Numeral → Prop) : Symbol → Text → Text → Prop
  | constant {name : String} {rest : Text} : name ∈ ["null", "true", "false"] →
      Derives fits .value (chars name ++ rest) rest
  | number {cs : List Char} {n : Numeral} {rest : Text} : IsNumber cs n → fits n →
      Derives fits .value (cs.map CodePoint.ofChar ++ rest) rest
  | string {t rest : Text} : StringBody t rest → Derives fits .value (chars "\"" ++ t) rest
  | emptyArray {s rest : Text} : IsSpaces s →
      Derives fits .value (chars "[" ++ (s ++ (chars "]" ++ rest))) rest
  | array {t rest : Text} : Derives fits .elements t (chars "]" ++ rest) →
      Derives fits .value (chars "[" ++ t) rest
  | emptyObject {s rest : Text} : IsSpaces s →
      Derives fits .value (chars "\x7b" ++ (s ++ (chars "\x7d" ++ rest))) rest
  | object {t rest : Text} : Derives fits .members t (chars "\x7d" ++ rest) →
      Derives fits .value (chars "\x7b" ++ t) rest
  | spaced {s t s' rest : Text} : IsSpaces s → Derives fits .value t (s' ++ rest) → IsSpaces s' →
      Derives fits .element (s ++ t) rest
  | lastElement {t rest : Text} : Derives fits .element t rest → Derives fits .elements t rest
  | nextElement {t more rest : Text} : Derives fits .element t (chars "," ++ more) →
      Derives fits .elements more rest → Derives fits .elements t rest
  | named {s t s' more rest : Text} : IsSpaces s → StringBody t (s' ++ (chars ":" ++ more)) →
      IsSpaces s' → Derives fits .element more rest →
      Derives fits .member (s ++ (chars "\"" ++ t)) rest
  | lastMember {t rest : Text} : Derives fits .member t rest → Derives fits .members t rest
  | nextMember {t more rest : Text} : Derives fits .member t (chars "," ++ more) →
      Derives fits .members more rest → Derives fits .members t rest

/-- The grammar has no bounds for numbers. -/
abbrev anyNumeral : Numeral → Prop := fun _ => True

/-- A document of the grammar: an element in UTF-8. -/
def IsDocument (fits : Numeral → Prop) (bytes : List UInt8) : Prop :=
  ∃ t, Text.encodeUtf8 t = .ok bytes ∧ Derives fits .element t []

/-! ## Strings are read -/

theorem hexValue?_of_isHex {c : CodePoint} (h : IsHex c) : ∃ n, hexValue? c = some n := by
  unfold hexValue?
  dsimp only
  rcases h with h | h | h
  · exact ⟨_, if_pos h⟩
  · exact ⟨_, (if_neg (by omega)).trans (if_pos h)⟩
  · exact ⟨_, (if_neg (by omega)).trans ((if_neg (by omega)).trans (if_pos h))⟩

theorem hexUnit?_of_isHex {a b c d : CodePoint} (ha : IsHex a) (hb : IsHex b) (hc : IsHex c)
    (hd : IsHex d) : ∃ n, hexUnit? a b c d = some n := by
  obtain ⟨i, hi⟩ := hexValue?_of_isHex ha
  obtain ⟨j, hj⟩ := hexValue?_of_isHex hb
  obtain ⟨k, hk⟩ := hexValue?_of_isHex hc
  obtain ⟨l, hl⟩ := hexValue?_of_isHex hd
  rw [hexUnit?, hi, hj, hk, hl]
  exact ⟨_, rfl⟩

theorem shortEscape?_of_mem {e : CodePoint} (h : e ∈ chars "\"\\/bfnrt") :
    e.val ≠ 0x75 ∧ ∃ u, shortEscape? e = some u := by
  have hall : ∀ e ∈ chars "\"\\/bfnrt", e.val ≠ 0x75 ∧ (shortEscape? e).isSome = true :=
    Text.forall_mem_of_all (by decide)
  obtain ⟨hu, hsome⟩ := hall e h
  exact ⟨hu, Option.isSome_iff_exists.1 hsome⟩

theorem StringBody.ne_nil {t rest : Text} (h : StringBody t rest) : t ≠ [] := by
  cases h <;> exact List.cons_ne_nil _ _

/-- What is read inside of a string comes to its end. A second escape may be read together with the
one before it, and then the reader goes on behind both. -/
structure ReadsOn (t rest : Text) : Prop where
  here : ∀ opening done, ∃ s, readText opening done t = .ok (s, rest)
  behind : ∀ e f g h more, t = CodePoint.ofChar '\\' :: CodePoint.ofChar 'u' :: e :: f :: g :: h :: more →
    (∃ n, hexUnit? e f g h = some n) ∧ more ≠ [] ∧
      ∀ opening done, ∃ s, readText opening done more = .ok (s, rest)

/-- **An escape by number is read**, alone or as the first half of a pair. -/
theorem readUnit_of_isHex {a b c d : CodePoint} (ha : IsHex a) (hb : IsHex b) (hc : IsHex c)
    (hd : IsHex d) {t : Text} (hne : t ≠ [])
    (hnext : ∀ e f g h more,
      t = CodePoint.ofChar '\\' :: CodePoint.ofChar 'u' :: e :: f :: g :: h :: more →
        ∃ n, hexUnit? e f g h = some n) :
    ∃ u left, readUnit (a :: b :: c :: d :: t) = .ok (u, left) ∧ (left = t ∨ ∃ e f g h,
      t = CodePoint.ofChar '\\' :: CodePoint.ofChar 'u' :: e :: f :: g :: h :: left) := by
  obtain ⟨next, rest, rfl⟩ := List.exists_cons_of_ne_nil hne
  obtain ⟨high, hhigh⟩ := hexUnit?_of_isHex ha hb hc hd
  rw [readUnit, hhigh]
  dsimp only
  split
  · rename_i hpair
    split
    · rename_i u e f g h more
      split
      · rename_i hsecond
        have hbackslash : next = CodePoint.ofChar '\\' := Fin.ext hpair.2.2
        have hu : u = CodePoint.ofChar 'u' := Fin.ext hsecond.1
        subst hbackslash hu
        obtain ⟨low, hlow⟩ := hnext e f g h more rfl
        rw [hlow]
        dsimp only
        split
        · exact ⟨_, _, rfl, .inr ⟨e, f, g, h, rfl⟩⟩
        · exact ⟨_, _, rfl, .inl rfl⟩
      · exact ⟨_, _, rfl, .inl rfl⟩
    · exact ⟨_, _, rfl, .inl rfl⟩
  · exact ⟨_, _, rfl, .inl rfl⟩

theorem readText_unit {opening left : Text} {done : Array CodePoint} {u : CodePoint} {t : Text}
    (h : readUnit t = .ok (u, left)) :
    readText opening done (CodePoint.ofChar '\\' :: CodePoint.ofChar 'u' :: t) =
      readText opening (done.push u) left := by
  rw [readText, if_neg (by decide), if_pos (by decide), if_pos (by decide)]
  split
  · rename_i u' left' hread
    cases hread.symm.trans h
    rfl
  · rename_i e hread
    cases hread.symm.trans h

/-- **A string of the grammar is read.** -/
theorem StringBody.readsOn {t rest : Text} (h : StringBody t rest) : ReadsOn t rest := by
  induction h with
  | close =>
      refine ⟨fun opening done => ⟨done.toList, ?_⟩, nofun⟩
      show readText opening done (CodePoint.ofChar '"' :: _) = _
      rw [readText.eq_def]
      dsimp only
      rw [if_pos (by decide)]
      rfl
  | unescaped hcontrol hquote hescape _ ih =>
      refine ⟨fun opening done => ?_, fun _ _ _ _ _ heq => ?_⟩
      · rw [readText_plain hquote hescape (by omega)]
        exact ih.here opening _
      · cases heq
        exact absurd rfl hescape
  | short he _ ih =>
      obtain ⟨hu, u, hshort⟩ := shortEscape?_of_mem he
      refine ⟨fun opening done => ?_, fun _ _ _ _ _ heq => ?_⟩
      · rw [readText_shortEscape (by decide) hu hshort]
        exact ih.here opening _
      · cases heq
        exact absurd rfl hu
  | unit ha hb hc hd hbody ih =>
      refine ⟨fun opening done => ?_, fun e f g h more heq => ?_⟩
      · obtain ⟨u, left, hread, hleft⟩ := readUnit_of_isHex ha hb hc hd hbody.ne_nil
          fun e f g h more heq => (ih.behind e f g h more heq).1
        rw [readText_unit hread]
        rcases hleft with rfl | ⟨e, f, g, h, heq⟩
        · exact ih.here opening _
        · exact (ih.behind e f g h left heq).2.2 opening _
      · cases heq
        exact ⟨hexUnit?_of_isHex ha hb hc hd, hbody.ne_nil, ih.here⟩

/-! ## Numbers are read -/

theorem endsNumber_cons {c : CodePoint} (h : c.val ∈ [0x20, 0x09, 0x0A, 0x0D, 0x2C, 0x5D, 0x7D])
    (rest : Text) : EndsNumber (c :: rest) := by
  intro c' rest' heq
  cases heq
  simp only [List.mem_cons, List.not_mem_nil, or_false] at h
  have hdigit : ¬ (0x30 ≤ c.val ∧ c.val ≤ 0x39) := by omega
  refine ⟨?_, by omega, by omega, by omega⟩
  rw [isDigit, Bool.and_eq_false_iff, decide_eq_false_iff_not, decide_eq_false_iff_not]
  omega

theorem IsSpaces.endsNumber {s rest : Text} (hs : IsSpaces s) (hrest : EndsNumber rest) :
    EndsNumber (s ++ rest) := by
  cases s with
  | nil => exact hrest
  | cons c s =>
      refine endsNumber_cons ?_ _
      have hc := hs c List.mem_cons_self
      simp only [List.mem_cons, List.not_mem_nil, or_false] at hc ⊢
      omega

theorem readExponent_of_isExponent {cs : List Char} {exponent : Option Int} {rest : Text}
    (h : IsExponent cs exponent) (hrest : EndsNumber rest) :
    readExponent (cs.map CodePoint.ofChar ++ rest) = (exponent, rest) := by
  cases h with
  | none => exact @readExponent_chars rest none nofun hrest
  | @some letter sign digits hletter hsign hne hdigits =>
      have hends : EndsDigits rest := fun c more hc => (hrest c more hc).1
      have htake := takeDigits_append hdigits hends
      have hdrop := (takeWhile_digits hdigits hends).2
      have hread : readSign true ((sign ++ digits).map CodePoint.ofChar ++ rest) =
          (decide (sign = ['-']), digits.map CodePoint.ofChar ++ rest) := by
        obtain ⟨d, ds, rfl⟩ := List.exists_cons_of_ne_nil hne
        have hd := hdigits d List.mem_cons_self
        simp only [List.mem_cons, List.not_mem_nil, or_false] at hsign
        rcases hsign with rfl | rfl | rfl
        · have hminus : (CodePoint.ofChar d).val ≠ 0x2D :=
            val_ofChar_ne (d := '-') fun heq => absurd (heq ▸ hd) (by decide)
          have hplus : (CodePoint.ofChar d).val ≠ 0x2B :=
            val_ofChar_ne (d := '+') fun heq => absurd (heq ▸ hd) (by decide)
          show readSign true (CodePoint.ofChar d :: _) = _
          rw [readSign, if_neg hminus]
          exact if_neg (by rw [decide_eq_false hplus]; decide)
        · rfl
        · rfl
      have hexp : (CodePoint.ofChar letter).val = 0x65 ∨ (CodePoint.ofChar letter).val = 0x45 := by
        simp only [List.mem_cons, List.not_mem_nil, or_false] at hletter
        rcases hletter with rfl | rfl
        · exact .inl rfl
        · exact .inr rfl
      rw [List.map_cons, List.cons_append, readExponent, hread]
      dsimp only
      rw [htake, hdrop, if_pos ⟨hexp, by simpa [digitValues] using hne⟩]
      rfl

/-- What an exponent leaves of a fraction and of digits before it. -/
theorem IsExponent.ends {cs : List Char} {exponent : Option Int} {rest : Text}
    (h : IsExponent cs exponent) (hrest : EndsNumber rest) :
    EndsDigits (cs.map CodePoint.ofChar ++ rest) ∧
      ∀ c more, cs.map CodePoint.ofChar ++ rest = c :: more → c.val ≠ 0x2E := by
  cases h with
  | none => exact ⟨fun c more hc => (hrest c more hc).1, fun c more hc => (hrest c more hc).2.1⟩
  | some hletter _ _ _ =>
      simp only [List.mem_cons, List.not_mem_nil, or_false] at hletter
      refine ⟨fun c more hc => ?_, fun c more hc => ?_⟩
      all_goals
        cases hc
        rcases hletter with rfl | rfl <;> decide

/-- **A number of the grammar is read as its numeral.** -/
theorem IsNumber.reads {cs : List Char} {n : Numeral} {rest : Text} (h : IsNumber cs n)
    (hrest : EndsNumber rest) :
    readConstant? (cs.map CodePoint.ofChar ++ rest) = none ∧
      readNumeral? (cs.map CodePoint.ofChar ++ rest) = some (n, rest) := by
  cases h with
  | @intro n es exponent hn hnone hes =>
      have hchars : n.chars = Spelling.sign n.negative ++ (n.whole ++
          Spelling.fractionChars n.fraction) := by
        rw [Spelling.chars, hnone, Spelling.exponentChars, List.append_nil]
      rw [List.map_append, List.append_assoc]
      refine ⟨readConstant?_chars hn _, ?_⟩
      rw [hchars]
      exact readNumeral?_parts hn (readExponent_of_isExponent hes hrest) (hes.ends hrest).1
        (hes.ends hrest).2

theorem IsNumber.opens {cs : List Char} {n : Numeral} (h : IsNumber cs n) :
    ∃ c t, cs.map CodePoint.ofChar = c :: t ∧ (c = CodePoint.ofChar '-' ∨ isDigit c = true) := by
  cases h with
  | @intro n es exponent hn _ _ =>
      obtain ⟨c, t, hopen, hc⟩ := hn.opens
      refine ⟨c, t ++ es.map CodePoint.ofChar, ?_, hc⟩
      rw [List.map_append, hopen, List.cons_append]

/-! ## Values of finite numbers -/

/-- All numbers in a value are finite. -/
def Value.IsFinite (v : Value) : Prop :=
  ∀ x : Binary64, Within (.real x) v → ∃ negative m e, x = .finite negative m e

theorem Value.isFinite_array {vs : List Value} (h : ∀ v ∈ vs, v.IsFinite) :
    (Value.array vs).IsFinite := by
  intro x hx
  cases hx with
  | item hv hx => exact h _ hv x hx

theorem Value.isFinite_object {ms : Members} (h : ∀ m ∈ ms, m.2.IsFinite) :
    (Value.object ms).IsFinite := by
  intro x hx
  cases hx with
  | member hm hx => exact h _ hm x hx

theorem Members.isFinite_put {ms : Members} (h : ∀ m ∈ ms, m.2.IsFinite) (name : Text) {v : Value}
    (hv : v.IsFinite) : ∀ m ∈ put ms name v, m.2.IsFinite := by
  intro m hm
  rcases mem_put hm with rfl | hold
  · exact hv
  · exact h m hold

/-- A limit of the reader, which says nothing about the grammar. -/
def ReadError.IsLimit : ReadError → Prop
  | .malformed _ _ => False
  | _ => True

/-- A reader comes out behind a value whose numbers are finite, or to a limit. -/
def Arrives (result : Except ReadError Value) (stack : List Frame) (rest : Text) : Prop :=
  (∃ v : Value, v.IsFinite ∧ result = readFrom stack (.after v) rest) ∨
    ∃ e : ReadError, e.IsLimit ∧ result = .error e

/-- The numbers that fit have finite values, if they have one. -/
def FitsFinite (fits : Numeral → Prop) : Prop :=
  ∀ n, fits n → (∃ v : Value, v.IsFinite ∧ n.value = .ok v) ∨ ∃ e : ReadError, e.IsLimit ∧ n.value = .error e

/-! ## White space -/

theorem IsSpaces.skip {s : Text} (hs : IsSpaces s) (t : Text) : skipSpace (s ++ t) = skipSpace t := by
  refine List.dropWhile_append_of_pos fun c hc => ?_
  have hval := hs c hc
  simp only [List.mem_cons, List.not_mem_nil, or_false] at hval
  simp only [isSpace, Bool.or_eq_true, beq_iff_eq]
  omega

section

variable {stack : List Frame} {s t rest : Text}

theorem readFrom_congr {place : Place} {t' : Text} (h : turn stack place t = turn stack place t') :
    readFrom stack place t = readFrom stack place t' := by
  rw [readFrom_eq, readFrom_eq, h]

/-- White space before a value is passed over. -/
theorem readFrom_spaces (hs : IsSpaces s) (t : Text) :
    readFrom stack .value (s ++ t) = readFrom stack .value t := by
  refine readFrom_congr ?_
  rw [turn, turn, readValue, readValue, hs.skip]

/-- And so it is behind a value. -/
theorem readFrom_after_spaces (hs : IsSpaces s) (v : Value) (t : Text) :
    readFrom stack (.after v) (s ++ t) = readFrom stack (.after v) t := by
  refine readFrom_congr ?_
  rw [turn, turn]
  unfold readAfter
  rw [hs.skip]

theorem Arrives.spaces {result : Except ReadError Value} (hs : IsSpaces s)
    (h : Arrives result stack (s ++ rest)) : Arrives result stack rest := by
  refine h.imp (fun ⟨v, hv, hresult⟩ => ⟨v, hv, ?_⟩) id
  rw [hresult, readFrom_after_spaces hs]

/-! ## The reader on the grammar -/

variable {fits : Numeral → Prop}

/-- What a part may begin with: printable ASCII, but no bracket or brace that closes. -/
abbrev OpensPart (c : CodePoint) : Prop :=
  isSpace c = false ∧ IsPlain c ∧ c.val ≠ 0x5D ∧ c.val ≠ 0x7D

/-- A part begins with such a code point behind white space. -/
theorem Derives.opens {symbol : Symbol} (h : Derives fits symbol t rest) :
    ∃ c more, skipSpace t = c :: more ∧ OpensPart c := by
  have hmark : ∀ c : Char, OpensPart (CodePoint.ofChar c) → ∀ t : Text,
      ∃ c' more, skipSpace (CodePoint.ofChar c :: t) = c' :: more ∧ OpensPart c' :=
    fun c hc t => ⟨_, _, skipSpace_cons hc.1, hc⟩
  induction h with
  | constant hname =>
      simp only [List.mem_cons, List.not_mem_nil, or_false] at hname
      rcases hname with rfl | rfl | rfl
      · exact hmark 'n' (by decide) _
      · exact hmark 't' (by decide) _
      · exact hmark 'f' (by decide) _
  | number hn _ =>
      obtain ⟨c, more, hopen, hc⟩ := hn.opens
      obtain ⟨hspace, -, -, hbracket, -⟩ := opensAtom_of_number hc
      rw [hopen, List.cons_append, skipSpace_cons hspace]
      rcases hc with rfl | hdigit
      · exact ⟨_, _, rfl, by decide⟩
      · rw [isDigit, Bool.and_eq_true, decide_eq_true_eq, decide_eq_true_eq] at hdigit
        exact ⟨c, _, rfl, hspace, ⟨by omega, by omega⟩, hbracket, by omega⟩
  | string _ => exact hmark '"' (by decide) _
  | emptyArray _ | array _ _ => exact hmark '[' (by decide) _
  | emptyObject _ | object _ _ => exact hmark '\x7b' (by decide) _
  | spaced hs _ _ ih =>
      rw [hs.skip]
      exact ih
  | lastElement _ ih | lastMember _ ih | nextElement _ _ ih _ | nextMember _ _ ih _ => exact ih
  | named hs _ _ _ _ =>
      rw [hs.skip]
      exact hmark '"' (by decide) _

/-- A value without parts takes one turn. -/
theorem readFrom_atom {c : CodePoint} (hc : OpensAtom c) : readFrom stack .value (c :: t) =
    match readAtom (c :: t) with
    | .ok (v, left) => readFrom stack (.after v) left
    | .error e => .error e := by
  obtain ⟨hspace, hquote, hbracket, -, hbrace⟩ := hc
  have hturn : turn stack .value (c :: t) = match readAtom (c :: t) with
      | .ok (v, left) => .ok (.goOn stack (.after v) left)
      | .error e => .error e := by
    rw [turn, readValue, skipSpace_cons hspace]
    dsimp only
    rw [if_neg hquote]
    refine (if_neg (not_or.2 ⟨hbracket, hbrace⟩)).trans ?_
    cases readAtom (c :: t) <;> rfl
  cases hatom : readAtom (c :: t) with
  | ok atom => exact readFrom_of_turn (hturn.trans (by rw [hatom]))
  | error e =>
      rw [hatom] at hturn
      rw [readFrom_eq, hturn]

theorem arrives_constant {name : String} (h : name ∈ ["null", "true", "false"]) (rest : Text) :
    Arrives (readFrom stack .value (chars name ++ rest)) stack rest := by
  obtain ⟨v, hmem, hv⟩ : ∃ v, (name, v) ∈ constants ∧ v.IsFinite := by
    simp only [List.mem_cons, List.not_mem_nil, or_false] at h
    rcases h with rfl | rfl | rfl
    · exact ⟨.null, by simp [constants], fun _ hx => by cases hx⟩
    · exact ⟨.bool true, by simp [constants], fun _ hx => by cases hx⟩
    · exact ⟨.bool false, by simp [constants], fun _ hx => by cases hx⟩
  obtain ⟨c, more, hopen, hc⟩ : ∃ c more, chars name ++ rest = c :: more ∧ OpensAtom c := by
    simp only [List.mem_cons, List.not_mem_nil, or_false] at h
    rcases h with rfl | rfl | rfl <;> exact ⟨_, _, rfl, by decide⟩
  have hread := readAtom_constant hmem rest
  rw [hopen] at hread
  refine .inl ⟨v, hv, ?_⟩
  rw [hopen, readFrom_atom hc, hread]

theorem arrives_number {cs : List Char} {n : Numeral} (hfits : FitsFinite fits) (h : IsNumber cs n)
    (hn : fits n) (hrest : EndsNumber rest) :
    Arrives (readFrom stack .value (cs.map CodePoint.ofChar ++ rest)) stack rest := by
  obtain ⟨hconstant, hnumeral⟩ := h.reads hrest
  obtain ⟨c, more, hopen, hc⟩ := h.opens
  rw [hopen, List.cons_append] at hconstant hnumeral ⊢
  rw [readFrom_atom (opensAtom_of_number hc), readAtom, hconstant]
  dsimp only
  rw [hnumeral]
  dsimp only
  rcases hfits n hn with ⟨v, hv, hvalue⟩ | ⟨e, he, hvalue⟩
  · rw [hvalue]
    exact .inl ⟨v, hv, rfl⟩
  · rw [hvalue]
    exact .inr ⟨e, he, rfl⟩

theorem arrives_string (h : StringBody t rest) :
    Arrives (readFrom stack .value (chars "\"" ++ t)) stack rest := by
  obtain ⟨s, hs⟩ := h.readsOn.here (CodePoint.ofChar '"' :: t) #[]
  refine .inl ⟨.text s, nofun, readFrom_of_turn ?_⟩
  show readValue stack (CodePoint.ofChar '"' :: t) = _
  rw [readValue, skipSpace_cons (by decide)]
  dsimp only
  rw [if_pos (by decide), hs]

/-- A container is opened, unless too many are open. -/
theorem arrives_container {c : CodePoint} (hc : c.val = 0x5B ∨ c.val = 0x7B)
    (hopen : stack.length < nestingLimit →
      Arrives (readFrom stack .value (c :: t)) stack rest) :
    Arrives (readFrom stack .value (c :: t)) stack rest := by
  by_cases hroom : stack.length < nestingLimit
  · exact hopen hroom
  · have hspace : isSpace c = false := by
      simp only [isSpace, Bool.or_eq_false_iff, beq_eq_false_iff_ne]
      omega
    have hturn : turn stack .value (c :: t) = .error .tooDeep := by
      rw [turn, readValue, skipSpace_cons hspace]
      dsimp only
      rw [if_neg (by omega), if_pos hc, if_pos (Nat.not_lt.1 hroom)]
    refine .inr ⟨.tooDeep, trivial, ?_⟩
    rw [readFrom_eq, hturn]

/-- The end of a container that is empty but for white space. -/
theorem readFrom_firstItem_end {done : Array Value} (hs : IsSpaces s) (rest : Text) :
    readFrom (.array done :: stack) .firstItem (s ++ (chars "]" ++ rest)) =
      readFrom stack (.after (.array [])) rest := by
  refine readFrom_of_turn ?_
  have hskip : skipSpace (s ++ (chars "]" ++ rest)) = CodePoint.ofChar ']' :: rest :=
    (hs.skip _).trans (skipSpace_cons (by decide))
  unfold turn
  dsimp only
  rw [hskip]
  rfl

theorem readFrom_firstMember_end (hs : IsSpaces s) (rest : Text) :
    readFrom stack .firstMember (s ++ (chars "\x7d" ++ rest)) =
      readFrom stack (.after (.object [])) rest := by
  refine readFrom_of_turn ?_
  have hskip : skipSpace (s ++ (chars "\x7d" ++ rest)) = CodePoint.ofChar '\x7d' :: rest :=
    (hs.skip _).trans (skipSpace_cons (by decide))
  rw [turn, hskip]
  rfl

/-- A container that does not end at once has a part. -/
theorem readFrom_firstItem_part {done : Array Value}
    (h : ∃ c more, skipSpace t = c :: more ∧ OpensPart c) :
    readFrom (.array done :: stack) .firstItem t = readFrom (.array done :: stack) .value t := by
  obtain ⟨c, more, hskip, -, -, hc, -⟩ := h
  refine readFrom_of_turn ?_
  unfold turn
  dsimp only
  rw [hskip]
  exact if_neg hc

theorem readFrom_firstMember_part
    (h : ∃ c more, skipSpace t = c :: more ∧ OpensPart c) :
    readFrom stack .firstMember t = readFrom stack (.member []) t := by
  obtain ⟨c, more, hskip, -, -, -, hc⟩ := h
  refine readFrom_of_turn ?_
  rw [turn, hskip]
  exact if_neg hc

/-- A member's name and its colon. -/
theorem readFrom_named {s' more : Text} (hs : IsSpaces s)
    (h : StringBody t (s' ++ (chars ":" ++ more))) (hs' : IsSpaces s') (done : Members) :
    ∃ name, readFrom stack (.member done) (s ++ (chars "\"" ++ t)) =
      readFrom (.object done name :: stack) .value more := by
  obtain ⟨name, hname⟩ := h.readsOn.here (CodePoint.ofChar '"' :: t) #[]
  have hquote : skipSpace (s ++ (chars "\"" ++ t)) = CodePoint.ofChar '"' :: t :=
    (hs.skip _).trans (skipSpace_cons (by decide))
  have hcolon : skipSpace (s' ++ (chars ":" ++ more)) = CodePoint.ofChar ':' :: more :=
    (hs'.skip _).trans (skipSpace_cons (by decide))
  refine ⟨name, readFrom_of_turn ?_⟩
  rw [turn, readMember, hquote]
  dsimp only
  rw [if_pos (by decide), hname]
  dsimp only
  rw [hcolon]
  rfl

/-- Where a reader comes to that stands before a part. -/
def Symbol.Reads (t rest : Text) : Symbol → Prop
  | .value | .element => EndsNumber rest → ∀ stack, Arrives (readFrom stack .value t) stack rest
  | .elements => ∀ more outer (done : Array Value), rest = chars "]" ++ more →
      (∀ v ∈ done.toList, v.IsFinite) →
      Arrives (readFrom (.array done :: outer) .value t) outer more
  | .member => EndsNumber rest → ∀ outer (done : Members), ∃ name,
      Arrives (readFrom outer (.member done) t) (.object done name :: outer) rest
  | .members => ∀ more outer (done : Members), rest = chars "\x7d" ++ more →
      (∀ m ∈ done, m.2.IsFinite) → Arrives (readFrom outer (.member done) t) outer more

/-- **The grammar is read**, one production after the other. -/
theorem Derives.reads {symbol : Symbol} (hfits : FitsFinite fits)
    (h : Derives fits symbol t rest) : symbol.Reads t rest := by
  have hcomma : ∀ t : Text, EndsNumber (chars "," ++ t) := endsNumber_cons (by decide)
  have hbracket : ∀ t : Text, EndsNumber (chars "]" ++ t) := endsNumber_cons (by decide)
  have hbrace : ∀ t : Text, EndsNumber (chars "\x7d" ++ t) := endsNumber_cons (by decide)
  induction h with
  | constant hname => exact fun _ _ => arrives_constant hname _
  | number hnumber hn => exact fun hrest _ => arrives_number hfits hnumber hn hrest
  | string hbody => exact fun _ _ => arrives_string hbody
  | emptyArray hs =>
      refine fun _ stack => arrives_container (.inl (by decide)) fun hroom => .inl ⟨.array [], ?_, ?_⟩
      · exact Value.isFinite_array nofun
      · exact (readFrom_openArray hroom _).trans (readFrom_firstItem_end hs _)
  | array helements ih =>
      refine fun _ stack => arrives_container (.inl (by decide)) fun hroom => ?_
      have hopen := (readFrom_openArray hroom _).trans (readFrom_firstItem_part helements.opens)
      have harrives := ih _ stack #[] rfl nofun
      rw [← hopen] at harrives
      exact harrives
  | emptyObject hs =>
      refine fun _ stack => arrives_container (.inr (by decide)) fun hroom => .inl ⟨.object [], ?_, ?_⟩
      · exact Value.isFinite_object nofun
      · exact (readFrom_openObject hroom _).trans (readFrom_firstMember_end hs _)
  | object hmembers ih =>
      refine fun _ stack => arrives_container (.inr (by decide)) fun hroom => ?_
      have hopen := (readFrom_openObject hroom _).trans (readFrom_firstMember_part hmembers.opens)
      have harrives := ih _ stack [] rfl nofun
      rw [← hopen] at harrives
      exact harrives
  | spaced hs _ hs' ih =>
      intro hrest stack
      rw [readFrom_spaces hs]
      exact (ih (hs'.endsNumber hrest) stack).spaces hs'
  | lastElement _ ih =>
      intro more outer done hend hdone
      subst hend
      rcases ih (hbracket more) (.array done :: outer) with ⟨v, hv, hread⟩ | hlimit
      · refine .inl ⟨.array (done.push v).toList, Value.isFinite_array fun u hu => ?_, ?_⟩
        · rw [Array.toList_push, List.mem_append, List.mem_singleton] at hu
          exact hu.elim (hdone u) fun heq => heq ▸ hv
        · rw [hread, readFrom_afterLastItem]
      · exact .inr hlimit
  | nextElement _ _ ih ih' =>
      intro more outer done hend hdone
      rcases ih (hcomma _) (.array done :: outer) with ⟨v, hv, hread⟩ | hlimit
      · rw [hread, readFrom_afterItem]
        refine ih' more outer (done.push v) hend fun u hu => ?_
        rw [Array.toList_push, List.mem_append, List.mem_singleton] at hu
        exact hu.elim (hdone u) fun heq => heq ▸ hv
      · exact .inr hlimit
  | named hs hbody hs' _ ih =>
      intro hrest outer done
      obtain ⟨name, hname⟩ := readFrom_named hs hbody hs' done
      refine ⟨name, ?_⟩
      rw [hname]
      exact ih hrest _
  | lastMember _ ih =>
      intro more outer done hend hdone
      subst hend
      obtain ⟨name, ⟨v, hv, hread⟩ | hlimit⟩ := ih (hbrace more) outer done
      · refine .inl ⟨.object (Members.put done name v), ?_, ?_⟩
        · exact Value.isFinite_object (Members.isFinite_put hdone name hv)
        · rw [hread, readFrom_afterLastMember]
      · exact .inr hlimit
  | nextMember _ _ ih ih' =>
      intro more outer done hend hdone
      obtain ⟨name, ⟨v, hv, hread⟩ | hlimit⟩ := ih (hcomma _) outer done
      · rw [hread, readFrom_afterMember]
        exact ih' more outer _ hend (Members.isFinite_put hdone name hv)
      · exact .inr hlimit

end

end ImageTransfer.Json
