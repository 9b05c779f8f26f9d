import ImageTransfer.Proofs.Json.Grammar

/-!
# Which documents are those of the grammar

Every document of the grammar is read, unless a limit stops the reader, and if its numbers are in the
range of the floating-point format, so are those of the value (`IsDocument.reads`). In turn the
compact document of a value is one of the grammar exactly if all its numbers are finite
(`Legible.isDocument_iff`): what is finite has a derivation, by induction on the value, and what is not
is written as a name. That no part of the grammar has such a name outside of its strings is seen by a
scan for quotes (`unquoted`).
-/

namespace ImageTransfer.Json

open Decimal

variable {fits : Numeral → Prop} {s t rest : Text}

/-! ## Outside of strings -/

/-- Where a scan for quotes is. -/
inductive Quoting
  | outside
  | inside
  /-- Inside of a string, behind a backslash. -/
  | escaped

/-- What of a text is outside of strings. -/
def unquoted : Quoting → Text → Text
  | _, [] => []
  | .outside, c :: t => if c.val = 0x22 then unquoted .inside t else c :: unquoted .outside t
  | .inside, c :: t =>
    if c.val = 0x22 then unquoted .outside t
    else if c.val = 0x5C then unquoted .escaped t
    else unquoted .inside t
  | .escaped, _ :: t => unquoted .inside t

/-- What tokens other than strings consist of, and the space between them. Neither `NaN` nor
`Infinity` does. -/
def IsUsual (c : CodePoint) : Prop := c.val ∉ [0, 0x22, 0x49, 0x4E]

instance (c : CodePoint) : Decidable (IsUsual c) := inferInstanceAs (Decidable (_ ∉ _))

theorem IsUsual.val_ne {c : CodePoint} (h : IsUsual c) : c.val ≠ 0 ∧ c.val ≠ 0x22 := by
  simp only [IsUsual, List.mem_cons, List.not_mem_nil, or_false] at h
  omega

theorem unquoted_outside_append {p : Text} (hp : ∀ c ∈ p, c.val ≠ 0x22) (t : Text) :
    unquoted .outside (p ++ t) = p ++ unquoted .outside t := by
  induction p with
  | nil => rfl
  | cons c p ih =>
      have hc := hp c List.mem_cons_self
      rw [List.cons_append, unquoted, if_neg hc, ih fun d hd => hp d (List.mem_cons_of_mem _ hd)]
      rfl

theorem unquoted_inside_cons {c : CodePoint} (hquote : c.val ≠ 0x22) (hescape : c.val ≠ 0x5C)
    (t : Text) : unquoted .inside (c :: t) = unquoted .inside t := by
  rw [unquoted, if_neg hquote, if_neg hescape]

theorem IsHex.val_ne {c : CodePoint} (h : IsHex c) :
    c.val ≠ 0 ∧ c.val ≠ 0x22 ∧ c.val ≠ 0x5C := by
  rcases h with h | h | h <;> omega

/-- **A string is passed over as a whole.** -/
theorem StringBody.unquoted (h : StringBody t rest) :
    unquoted .inside t = unquoted .outside rest := by
  induction h with
  | close => rfl
  | unescaped _ hquote hescape _ ih => rw [unquoted_inside_cons hquote hescape, ih]
  | short _ _ ih => exact ih
  | @unit a b c d t rest ha hb hc hd _ ih =>
      have hescape : Json.unquoted .inside (CodePoint.ofChar '\\' :: CodePoint.ofChar 'u' :: a :: b ::
          c :: d :: t) = Json.unquoted .inside (a :: b :: c :: d :: t) := rfl
      rw [hescape, unquoted_inside_cons ha.val_ne.2.1 ha.val_ne.2.2,
        unquoted_inside_cons hb.val_ne.2.1 hb.val_ne.2.2,
        unquoted_inside_cons hc.val_ne.2.1 hc.val_ne.2.2,
        unquoted_inside_cons hd.val_ne.2.1 hd.val_ne.2.2, ih]

/-! ## What a part consists of -/

/-- All that has been taken of a text has a property. -/
def Takes (P : CodePoint → Prop) (t rest : Text) : Prop :=
  ∃ taken, t = taken ++ rest ∧ ∀ c ∈ taken, P c

theorem Takes.refl {P : CodePoint → Prop} (t : Text) : Takes P t t := ⟨[], rfl, nofun⟩

theorem Takes.append {P : CodePoint → Prop} {p : Text} (hp : ∀ c ∈ p, P c) (h : Takes P t rest) :
    Takes P (p ++ t) rest := by
  obtain ⟨taken, rfl, htaken⟩ := h
  refine ⟨p ++ taken, (List.append_assoc _ _ _).symm, fun c hc => ?_⟩
  exact (List.mem_append.1 hc).elim (hp c) (htaken c)

theorem Takes.cons {P : CodePoint → Prop} {c : CodePoint} (hc : P c) (h : Takes P t rest) :
    Takes P (c :: t) rest :=
  h.append (p := [c]) fun _ hd => List.mem_singleton.1 hd ▸ hc

theorem Takes.trans {P : CodePoint → Prop} {middle : Text} (h : Takes P t middle)
    (h' : Takes P middle rest) : Takes P t rest := by
  obtain ⟨taken, rfl, htaken⟩ := h
  exact h'.append htaken

/-- What is read of a text has no zero in it, and outside of its strings it is usual. -/
structure Consumes (t rest : Text) : Prop where
  nonzero : Takes (·.val ≠ 0) t rest
  usual : Takes IsUsual (unquoted .outside t) (unquoted .outside rest)

theorem Consumes.refl (t : Text) : Consumes t t := ⟨.refl _, .refl _⟩

theorem Consumes.trans {middle : Text} (h : Consumes t middle) (h' : Consumes middle rest) :
    Consumes t rest := ⟨h.nonzero.trans h'.nonzero, h.usual.trans h'.usual⟩

theorem Consumes.append {p : Text} (hp : ∀ c ∈ p, IsUsual c) (h : Consumes t rest) :
    Consumes (p ++ t) rest := by
  refine ⟨h.nonzero.append fun c hc => (hp c hc).val_ne.1, ?_⟩
  rw [unquoted_outside_append fun c hc => (hp c hc).val_ne.2]
  exact h.usual.append hp

theorem Consumes.mark {c : Char} (hc : IsUsual (CodePoint.ofChar c)) (h : Consumes t rest) :
    Consumes (CodePoint.ofChar c :: t) rest :=
  h.append (p := [CodePoint.ofChar c]) fun _ hd => List.mem_singleton.1 hd ▸ hc

theorem Consumes.spaces (hs : IsSpaces s) (h : Consumes t rest) : Consumes (s ++ t) rest := by
  refine h.append fun c hc => ?_
  have hval := hs c hc
  simp only [IsUsual, List.mem_cons, List.not_mem_nil, or_false] at hval ⊢
  omega

theorem IsNumber.isUsual {cs : List Char} {n : Numeral} (h : IsNumber cs n) :
    ∀ c ∈ cs.map CodePoint.ofChar, IsUsual c := by
  have hdigit : ∀ d : Char, d.isDigit = true → IsUsual (CodePoint.ofChar d) := by
    intro d hd
    have hplain := isDigit_ofChar d
    rw [hd, isDigit, Bool.and_eq_true, decide_eq_true_eq, decide_eq_true_eq] at hplain
    simp only [IsUsual, List.mem_cons, List.not_mem_nil, or_false]
    omega
  have hsymbol : ∀ d ∈ ['-', '+', '.', 'e', 'E'], IsUsual (CodePoint.ofChar d) :=
    Text.forall_mem_of_all (by decide)
  intro c hc
  obtain ⟨d, hd, rfl⟩ := List.mem_map.1 hc
  cases h with
  | intro hn _ hes =>
      rcases List.mem_append.1 hd with hd | hd
      · exact (hn.mem_chars hd).elim (hdigit d) (hsymbol d)
      cases hes with
      | none => exact absurd hd List.not_mem_nil
      | some hletter hsign _ hdigits =>
          have hletters : ∀ letter ∈ ['e', 'E'], letter ∈ ['-', '+', '.', 'e', 'E'] :=
            Text.forall_mem_of_all (by decide)
          have hsigns : ∀ sign ∈ [[], ['+'], ['-']], sign ⊆ ['-', '+', '.', 'e', 'E'] :=
            Text.forall_mem_of_all (by decide)
          rcases List.mem_cons.1 hd with rfl | hd
          · exact hsymbol _ (hletters _ hletter)
          · exact (List.mem_append.1 hd).elim (fun hd => hsymbol d (hsigns _ hsign hd))
              fun hd => hdigit d (hdigits d hd)

theorem StringBody.nonzero (h : StringBody t rest) : Takes (·.val ≠ 0) t rest := by
  induction h with
  | close => exact (Takes.refl _).cons (by decide)
  | unescaped hlow _ _ _ ih => exact ih.cons (by omega)
  | short he _ ih =>
      have hescapes : ∀ c ∈ chars "\"\\/bfnrt", c.val ≠ 0 := Text.forall_mem_of_all (by decide)
      exact (ih.cons (hescapes _ he)).cons (by decide)
  | unit ha hb hc hd _ ih =>
      exact (((((ih.cons hd.val_ne.1).cons hc.val_ne.1).cons hb.val_ne.1).cons ha.val_ne.1).cons
        (by decide)).cons (by decide)

theorem StringBody.consumes (h : StringBody t rest) : Consumes (chars "\"" ++ t) rest := by
  refine ⟨h.nonzero.cons (by decide), ?_⟩
  show Takes IsUsual (Json.unquoted .inside t) _
  rw [h.unquoted]
  exact .refl _

/-- **What a part of the grammar consists of**, outside of its strings. -/
theorem Derives.consumes {symbol : Symbol} (h : Derives fits symbol t rest) : Consumes t rest := by
  induction h with
  | constant hname =>
      simp only [List.mem_cons, List.not_mem_nil, or_false] at hname
      rcases hname with rfl | rfl | rfl <;>
        exact (Consumes.refl _).append (Text.forall_mem_of_all (by decide))
  | number hn _ => exact (Consumes.refl _).append hn.isUsual
  | string hbody => exact hbody.consumes
  | emptyArray hs | emptyObject hs =>
      exact (((Consumes.refl _).mark (by decide)).spaces hs).mark (by decide)
  | array _ ih | object _ ih => exact (ih.trans ((Consumes.refl _).mark (by decide))).mark (by decide)
  | spaced hs _ hs' ih => exact (ih.trans ((Consumes.refl _).spaces hs')).spaces hs
  | lastElement _ ih | lastMember _ ih => exact ih
  | nextElement _ _ ih ih' | nextMember _ _ ih ih' => exact ih.trans (ih'.mark (by decide))
  | named hs hbody hs' _ ih =>
      exact (hbody.consumes.trans ((ih.mark (by decide)).spaces hs')).spaces hs

/-! ## Documents are read -/

/-- A document is told to be UTF-8, and its text is what is decoded. -/
theorem decodeDocument_derives {bytes : List UInt8} (hbytes : Text.encodeUtf8 t = .ok bytes)
    (h : Derives fits .element t []) : decodeDocument bytes = .ok t := by
  obtain ⟨taken, htaken, hnonzero⟩ := h.consumes.nonzero
  rw [List.append_nil] at htaken
  subst htaken
  obtain ⟨c, more, hskip, -, hplain, -⟩ := h.opens
  have hdetect : Encoding.detect (t.flatMap Text.utf8Bytes) = .utf8 0 := by
    cases t with
    | nil => cases hskip
    | cons d t =>
        refine detect_text ?_ hnonzero
        by_cases hspace : isSpace d = true
        · simp only [isSpace, Bool.or_eq_true, beq_iff_eq] at hspace
          omega
        · rw [skipSpace_cons (Bool.not_eq_true _ ▸ hspace)] at hskip
          cases hskip
          exact hplain.2.trans (by decide)
  rw [Text.encodeUtf8_ok hbytes, decodeDocument, hdetect]
  exact Text.decodeUtf8_flatMap t

/-- **Every document of the grammar is read**, unless it exceeds a limit. Its numbers are finite if
those that fit are. -/
theorem IsDocument.reads {bytes : List UInt8} (hfits : FitsFinite fits)
    (h : IsDocument fits bytes) :
    (∃ v : Value, v.IsFinite ∧ readDocument bytes = .ok v) ∨
      ∃ e : DocumentError, e.reason? = none ∧ readDocument bytes = .error e := by
  obtain ⟨t, hbytes, hderives⟩ := h
  rw [readDocument, decodeDocument_derives hbytes hderives]
  dsimp only
  rcases hderives.reads hfits (fun _ _ hend => by cases hend) [] with ⟨v, hv, hread⟩ | ⟨e, he, hread⟩
  · refine .inl ⟨v, hv, ?_⟩
    rw [read, hread, readFrom]
    rfl
  · rw [read, hread]
    cases e with
    | malformed _ _ => exact absurd he id
    | tooManyDigits n => exact .inr ⟨_, rfl, rfl⟩
    | tooDeep => exact .inr ⟨_, rfl, rfl⟩

/-- A number that a floating-point number is near to; whole numbers are not rounded. -/
def Numeral.InRange (n : Numeral) : Prop :=
  (n.fraction = [] ∧ n.exponent = none) ∨ n.magnitude < Binary64.rangeBound

/-- **Numbers in the range are finite.** -/
theorem fitsFinite_inRange : FitsFinite Numeral.InRange := by
  intro n hn
  by_cases hwhole : n.fraction = [] ∧ n.exponent = none
  · rw [Numeral.value, if_pos hwhole]
    split
    · exact .inr ⟨.tooManyDigits n.whole.length, trivial, rfl⟩
    · exact .inl ⟨.integer _, fun _ hx => (by cases hx), rfl⟩
  · obtain ⟨m, e, hfinite⟩ := Binary64.ofDecimal_finite n.negative (hn.resolve_left hwhole)
    rw [Numeral.value, if_neg hwhole, hfinite]
    refine .inl ⟨_, fun x hx => ?_, rfl⟩
    cases hx
    exact ⟨_, _, _, rfl⟩

/-! ## What is finite is written in the grammar -/

theorem stringBody_writeCodePoint (c : CodePoint) (h : StringBody t rest) :
    StringBody (writeCodePoint false c ++ t) rest := by
  have hhex : ∀ n : Nat, IsHex (CodePoint.ofChar (Text.hexDigit (n % 16))) := by
    have hdigit : ∀ d : Fin 16, IsHex (CodePoint.ofChar (Text.hexDigit d)) := by decide
    exact fun n => hdigit ⟨n % 16, Nat.mod_lt _ (by decide)⟩
  unfold writeCodePoint
  split
  iterate 7
    · exact .short (by decide) h
  · rename_i hescape hquote _ _ _ _ _
    split
    · exact .unit (hhex _) (hhex _) (hhex _) (hhex _) h
    · rename_i hcontrol
      rw [Bool.false_and, if_neg (by decide)]
      exact .unescaped (Nat.le_of_not_lt hcontrol) (by omega) (by omega) h

/-- **A written string is one of the grammar.** -/
theorem stringBody_writeText (s rest : Text) :
    StringBody (s.flatMap (writeCodePoint false) ++ (chars "\"" ++ rest)) rest := by
  induction s with
  | nil => exact .close
  | cons c s ih =>
      rw [List.flatMap_cons, List.append_assoc]
      exact stringBody_writeCodePoint c ih

/-- **A spelling is a number of the grammar.** -/
theorem Spelling.Sound.isNumber {n : Spelling} (h : n.Sound) : IsNumber n.chars n.numeral := by
  obtain ⟨negative, whole, fraction, exponent⟩ := n
  have hbase : (⟨negative, whole, fraction, none⟩ : Spelling).Sound :=
    ⟨h.whole, h.begins, h.fraction, fun _ _ hsome => by cases hsome⟩
  have hexponent : IsExponent (Spelling.exponentChars exponent)
      (exponent.map fun e => Spelling.exponentValue e.1 e.2) := by
    rcases exponent with _ | ⟨minus, digits⟩
    · exact .none
    · obtain ⟨hne, hdigits⟩ := h.exponent minus digits rfl
      cases minus
      · exact @IsExponent.some 'e' ['+'] digits (by decide) (by decide) hne hdigits
      · exact @IsExponent.some 'e' ['-'] digits (by decide) (by decide) hne hdigits
  have hchars : Spelling.chars ⟨negative, whole, fraction, exponent⟩ =
      Spelling.chars ⟨negative, whole, fraction, none⟩ ++ Spelling.exponentChars exponent := by
    simp only [Spelling.chars, Spelling.exponentChars, List.append_nil, List.append_assoc]
  rw [hchars]
  exact .intro hbase rfl hexponent

theorem compact_integer (n : Int) :
    compact (.integer n) = (integerSpelling n).chars.map CodePoint.ofChar := writeInteger_eq n

theorem exists_spelling_compact (negative : Bool) {m : Nat} {e : Int} (h : Binary64.Fitting m e) :
    ∃ n : Spelling, n.Sound ∧
      compact (.real (.finite negative m e)) = n.chars.map CodePoint.ofChar := by
  obtain ⟨n, hn, hchars, -⟩ := exists_spelling_write {} negative h
  exact ⟨n, hn, congrArg (List.map CodePoint.ofChar) hchars⟩

theorem derives_spelling {n : Spelling} (h : n.Sound) (rest : Text) :
    Derives anyNumeral .value (n.chars.map CodePoint.ofChar ++ rest) rest :=
  .number h.isNumber trivial

theorem Derives.element (h : Derives fits .value t rest) : Derives fits .element t rest :=
  @Derives.spaced _ [] t [] rest nofun h nofun

/-- Items are written with commas between them. -/
theorem derives_elements {vs : List Value} (hne : vs ≠ [])
    (h : ∀ v ∈ vs, ∀ rest, Derives fits .value (compact v ++ rest) rest) (rest : Text) :
    Derives fits .elements (Text.joinWith comma (vs.map compact) ++ rest) rest := by
  induction vs with
  | nil => exact absurd rfl hne
  | cons v vs ih =>
      have hv := h v List.mem_cons_self
      by_cases hlast : vs = []
      · subst hlast
        exact .lastElement (hv rest).element
      · rw [List.map_cons, Text.joinWith_cons (by simpa using hlast), List.append_assoc]
        refine .nextElement (hv _).element (ih hlast fun u hu => h u (List.mem_cons_of_mem _ hu))

theorem derives_member {m : Text × Value}
    (h : ∀ rest, Derives fits .value (compact m.2 ++ rest) rest) (rest : Text) :
    Derives fits .member (compactMember m ++ rest) rest := by
  have hwrite : compactMember m ++ rest = [] ++ (chars "\"" ++
      (m.1.flatMap (writeCodePoint false) ++ (chars "\"" ++ ([] ++ (chars ":" ++
        (compact m.2 ++ rest)))))) := by
    rw [compactMember, List.append_assoc, writeText_append, List.append_assoc]
    rfl
  rw [hwrite]
  exact .named (List.forall_mem_nil _) (stringBody_writeText _ _) (List.forall_mem_nil _)
    (h rest).element

theorem derives_members {ms : Members} (hne : ms ≠ [])
    (h : ∀ m ∈ ms, ∀ rest, Derives fits .value (compact m.2 ++ rest) rest) (rest : Text) :
    Derives fits .members (Text.joinWith comma (ms.map compactMember) ++ rest) rest := by
  induction ms with
  | nil => exact absurd rfl hne
  | cons m ms ih =>
      have hm := derives_member (h m List.mem_cons_self)
      by_cases hlast : ms = []
      · subst hlast
        exact .lastMember (hm rest)
      · rw [List.map_cons, Text.joinWith_cons (by simpa using hlast), List.append_assoc]
        exact .nextMember (hm _) (ih hlast fun n hn => h n (List.mem_cons_of_mem _ hn))

/-- **What is finite is written in the grammar.** -/
theorem Legible.derives {room : Nat} {v : Value} (h : Legible room v) (hv : v.IsFinite)
    (rest : Text) : Derives anyNumeral .value (compact v ++ rest) rest := by
  induction h generalizing rest with
  | null => exact @Derives.constant _ "null" rest (by decide)
  | bool b =>
      cases b with
      | true => exact @Derives.constant _ "true" rest (by decide)
      | false => exact @Derives.constant _ "false" rest (by decide)
  | integer _ =>
      rw [compact_integer]
      exact derives_spelling (integerSpelling_sound _) rest
  | @real _ x hx =>
      obtain ⟨negative, m, e, rfl⟩ := hv x .self
      obtain ⟨n, hn, hwrite⟩ := exists_spelling_compact negative hx
      rw [hwrite]
      exact derives_spelling hn rest
  | text t =>
      have hwrite : compact (.text t) ++ rest = chars "\"" ++
          (t.flatMap (writeCodePoint false) ++ (chars "\"" ++ rest)) := writeText_append t rest
      rw [hwrite]
      exact .string (stringBody_writeText t rest)
  | @array _ vs _ ih =>
      rw [compact_array, List.append_assoc, List.append_assoc]
      by_cases hnone : vs = []
      · subst hnone
        exact .emptyArray (s := []) nofun
      · exact .array (derives_elements hnone
          (fun u hu rest => ih u hu (fun x hx => hv x (.item hu hx)) rest) _)
  | @object _ ms _ _ ih =>
      rw [compact_object, List.append_assoc, List.append_assoc]
      by_cases hnone : ms = []
      · subst hnone
        exact .emptyObject (s := []) nofun
      · exact .object (derives_members hnone
          (fun m hm rest => ih m hm (fun x hx => hv x (.member hm hx)) rest) _)

/-! ## What is not finite is written as a name -/

/-- In a text that is closed no string is left open. -/
def Closed (p : Text) : Prop :=
  ∀ t, unquoted .outside (p ++ t) = unquoted .outside p ++ unquoted .outside t

theorem closed_nil : Closed [] := fun _ => rfl

theorem Closed.append {p q : Text} (hp : Closed p) (hq : Closed q) : Closed (p ++ q) := by
  intro t
  rw [List.append_assoc, hp, hq, hp, List.append_assoc]

theorem closed_of_unquoted {p : Text} (hp : ∀ c ∈ p, c.val ≠ 0x22) : Closed p := by
  have hself := unquoted_outside_append hp []
  rw [List.append_nil] at hself
  intro t
  rw [unquoted_outside_append hp, hself]
  simp [unquoted]

theorem closed_writeText (s : Text) : Closed (writeText false s) := by
  have hpass : ∀ t, unquoted .outside (writeText false s ++ t) = unquoted .outside t := fun t =>
    (congrArg (unquoted .outside) (writeText_append s t)).trans (stringBody_writeText s t).unquoted
  have hself := hpass []
  rw [List.append_nil] at hself
  intro t
  rw [hpass, hself]
  rfl

theorem closed_joinWith {α : Type} {f : α → Text} {xs : List α} (h : ∀ x ∈ xs, Closed (f x)) :
    Closed (Text.joinWith comma (xs.map f)) := by
  induction xs with
  | nil => exact closed_nil
  | cons x xs ih =>
      have hx := h x List.mem_cons_self
      by_cases hlast : xs = []
      · subst hlast
        exact hx
      · rw [List.map_cons, Text.joinWith_cons (by simpa using hlast)]
        have hcomma : Closed [comma] := closed_of_unquoted fun c hc =>
          List.mem_singleton.1 hc ▸ (by decide : comma.val ≠ 0x22)
        exact hx.append (hcomma.append (ih fun y hy => h y (List.mem_cons_of_mem _ hy)))

theorem IsUsual.closed {p : Text} (hp : ∀ c ∈ p, IsUsual c) : Closed p :=
  closed_of_unquoted fun c hc => (hp c hc).val_ne.2

theorem closed_compactMember {m : Text × Value} (h : Closed (compact m.2)) :
    Closed (compactMember m) :=
  (closed_writeText m.1).append ((IsUsual.closed (Text.forall_mem_of_all (by decide))).append h)

/-- **A value is closed when it is written.** -/
theorem Legible.closed_compact {room : Nat} {v : Value} (h : Legible room v) : Closed (compact v) := by
  have hmark : ∀ {p : Text}, (p.all fun c => decide (c.val ≠ 0x22)) = true → Closed p := fun hp =>
    closed_of_unquoted (Text.forall_mem_of_all hp)
  induction h with
  | null => exact hmark (p := chars "null") (by decide)
  | bool b => exact hmark (by cases b <;> decide)
  | integer _ =>
      rw [compact_integer]
      exact IsUsual.closed (integerSpelling_sound _).isNumber.isUsual
  | @real _ x hx =>
      cases x with
      | nan => exact hmark (p := chars "NaN") (by decide)
      | infinite negative => exact hmark (by cases negative <;> decide)
      | finite negative m e =>
          obtain ⟨n, hn, hwrite⟩ := exists_spelling_compact negative hx
          rw [hwrite]
          exact IsUsual.closed hn.isNumber.isUsual
  | text t => exact closed_writeText t
  | array _ ih =>
      rw [compact_array]
      exact (hmark (by decide)).append ((closed_joinWith ih).append (hmark (by decide)))
  | object _ _ ih =>
      rw [compact_object]
      exact (hmark (by decide)).append
        ((closed_joinWith fun m hm => closed_compactMember (ih m hm)).append (hmark (by decide)))

theorem Closed.mem_append_right {p : Text} {c : CodePoint} (hp : Closed p)
    (hc : c ∈ unquoted .outside t) : c ∈ unquoted .outside (p ++ t) := by
  rw [hp]
  exact List.mem_append_right _ hc

theorem Closed.mem_append_left {p : Text} {c : CodePoint} (hp : Closed p)
    (hc : c ∈ unquoted .outside p) : c ∈ unquoted .outside (p ++ t) := by
  rw [hp]
  exact List.mem_append_left _ hc

/-- What is outside of strings in a piece is so in the whole. -/
theorem mem_unquoted_joinWith {α : Type} {f : α → Text} {xs : List α} {x : α} {c : CodePoint}
    (h : ∀ x ∈ xs, Closed (f x)) (hx : x ∈ xs) (hc : c ∈ unquoted .outside (f x)) :
    c ∈ unquoted .outside (Text.joinWith comma (xs.map f)) := by
  induction xs with
  | nil => exact absurd hx List.not_mem_nil
  | cons first xs ih =>
      by_cases hlast : xs = []
      · subst hlast
        rw [List.mem_singleton] at hx
        exact hx ▸ hc
      · rw [List.map_cons, Text.joinWith_cons (by simpa using hlast)]
        rcases List.mem_cons.1 hx with rfl | hx
        · exact (h x List.mem_cons_self).mem_append_left hc
        · exact (h first List.mem_cons_self).mem_append_right (List.mem_cons_of_mem _
            (ih (fun y hy => h y (List.mem_cons_of_mem _ hy)) hx))

/-- **A number that is not finite is written with an unusual letter**, wherever in a value it is. -/
theorem Value.Within.exists_unusual {x : Binary64} {v : Value} {room : Nat}
    (h : Within (.real x) v) (hx : ¬ ∃ negative m e, x = .finite negative m e)
    (hv : Legible room v) : ∃ c ∈ unquoted .outside (compact v), ¬ IsUsual c := by
  have hopen : ∀ {p : Text}, (p.all fun c => decide (IsUsual c)) = true → Closed p := fun hp =>
    IsUsual.closed (Text.forall_mem_of_all hp)
  induction h generalizing room with
  | self =>
      cases x with
      | nan => exact ⟨CodePoint.ofChar 'N', List.mem_cons_self, by decide⟩
      | infinite negative =>
          cases negative with
          | true => exact ⟨CodePoint.ofChar 'I', List.mem_cons_of_mem _ List.mem_cons_self, by decide⟩
          | false => exact ⟨CodePoint.ofChar 'I', List.mem_cons_self, by decide⟩
      | finite negative m e => exact absurd ⟨negative, m, e, rfl⟩ hx
  | @item u vs hu _ ih =>
      cases hv with
      | array hvs =>
          obtain ⟨c, hc, hunusual⟩ := ih (hvs u hu)
          have hitems : ∀ w ∈ vs, Closed (compact w) := fun w hw => (hvs w hw).closed_compact
          refine ⟨c, ?_, hunusual⟩
          rw [compact_array]
          exact (hopen (by decide)).mem_append_right ((closed_joinWith hitems).mem_append_left
            (mem_unquoted_joinWith hitems hu hc))
  | @member m ms hm _ ih =>
      cases hv with
      | object _ hms =>
          obtain ⟨c, hc, hunusual⟩ := ih (hms m hm)
          have hmembers : ∀ n ∈ ms, Closed (compactMember n) := fun n hn =>
            closed_compactMember (hms n hn).closed_compact
          have hmember : c ∈ unquoted .outside (compactMember m) :=
            (closed_writeText m.1).mem_append_right ((hopen (by decide)).mem_append_right hc)
          refine ⟨c, ?_, hunusual⟩
          rw [compact_object]
          exact (hopen (by decide)).mem_append_right ((closed_joinWith hmembers).mem_append_left
            (mem_unquoted_joinWith hmembers hm hmember))

/-- **A written document is one of the grammar exactly if all its numbers are finite.** -/
theorem Legible.isDocument_iff {room : Nat} {v : Value} {bytes : List UInt8} (h : Legible room v)
    (hbytes : document v = .ok bytes) : IsDocument anyNumeral bytes ↔ v.IsFinite := by
  constructor
  · rintro ⟨t, ht, hderives⟩ x hx
    by_contra hinfinite
    have hsame : t = compact v := by
      have hdecoded := Text.decodeUtf8_flatMap t
      rw [← Text.encodeUtf8_ok ht, Text.encodeUtf8_ok hbytes, Text.decodeUtf8_flatMap] at hdecoded
      exact (Except.ok.inj hdecoded).symm
    obtain ⟨c, hc, hunusual⟩ := hx.exists_unusual hinfinite h
    obtain ⟨taken, htaken, husual⟩ := hderives.consumes.usual
    rw [← hsame, htaken] at hc
    rcases List.mem_append.1 hc with hc | hc
    · exact hunusual (husual c hc)
    · exact absurd hc List.not_mem_nil
  · intro hfinite
    have hderives := (h.derives hfinite []).element
    rw [List.append_nil] at hderives
    exact ⟨compact v, hbytes, hderives⟩

end ImageTransfer.Json
