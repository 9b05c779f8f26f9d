import ImageTransfer.Proofs.Json.Legible
import ImageTransfer.Proofs.Text.Split

/-!
# Documents hold what was read

A document is the compact JSON of a value, in UTF-8. There are as many values that a reader gives as
there are legible ones, and each has a document that is read as the value again, unless there is a
surrogate in one of its texts or names (`document_readBack`).

A value that is part of another one is written inside of it (`Within.infix_compact`). Beside what texts
and names mention, nothing but printable ASCII is written (`Legible.mem_compact`). This is why a
document begins like UTF-8, and why surrogates in it are those of the value.
-/

namespace ImageTransfer.Json

/-! ## How compact JSON is put together -/

mutual

/-- In the compact style the depth makes no difference. -/
theorem write_depth (d d' : Nat) :
    (v : Value) → Style.compact.write d v = Style.compact.write d' v
  | .null | .bool _ | .integer _ | .real _ | .text _ | .array [] | .object [] => by
      simp only [Style.write]
  | .array (v :: vs) => by
      rw [Style.write, Style.write, write_depth (d + 1) (d' + 1) v,
        writeItems_depth (d + 1) (d' + 1) vs]
      rfl
  | .object ((name, v) :: ms) => by
      rw [Style.write, Style.write, write_depth (d + 1) (d' + 1) v,
        writeMembers_depth (d + 1) (d' + 1) ms]
      rfl

theorem writeItems_depth (d d' : Nat) :
    (vs : List Value) → Style.compact.writeItems d vs = Style.compact.writeItems d' vs
  | [] => by simp only [Style.writeItems]
  | v :: vs => by
      rw [Style.writeItems, Style.writeItems, write_depth d d' v, writeItems_depth d d' vs]
      rfl

theorem writeMembers_depth (d d' : Nat) :
    (ms : Members) → Style.compact.writeMembers d ms = Style.compact.writeMembers d' ms
  | [] => by simp only [Style.writeMembers]
  | (name, v) :: ms => by
      rw [Style.writeMembers, Style.writeMembers, write_depth d d' v, writeMembers_depth d d' ms]
      rfl

end

/-- What stands between items and between members. -/
def comma : CodePoint := CodePoint.ofChar ','

/-- A member as it is written. -/
def compactMember (m : Text × Value) : Text := writeText false m.1 ++ (chars ":" ++ compact m.2)

theorem compact_append_writeItems (d : Nat) (v : Value) (vs : List Value) :
    compact v ++ Style.compact.writeItems d vs =
      Text.joinWith comma (compact v :: vs.map compact) := by
  induction vs generalizing v with
  | nil =>
      rw [Style.writeItems, List.append_nil]
      rfl
  | cons u vs ih =>
      rw [List.map_cons, Text.joinWith_cons (List.cons_ne_nil _ _), ← ih u, Style.writeItems,
        write_depth d 0 u]
      rfl

/-- **An array is written as its items**, with commas between them. -/
theorem compact_array (vs : List Value) :
    compact (.array vs) = chars "[" ++ (Text.joinWith comma (vs.map compact) ++ chars "]") := by
  cases vs with
  | nil =>
      rw [compact, Style.write]
      rfl
  | cons v vs =>
      rw [List.map_cons, ← compact_append_writeItems 1 v vs, compact, compact, Style.write,
        write_depth 1 0 v, List.append_assoc]
      rfl

theorem compactMember_append_writeMembers (d : Nat) (m : Text × Value) (ms : Members) :
    compactMember m ++ Style.compact.writeMembers d ms =
      Text.joinWith comma (compactMember m :: ms.map compactMember) := by
  induction ms generalizing m with
  | nil =>
      rw [Style.writeMembers, List.append_nil]
      rfl
  | cons n ms ih =>
      obtain ⟨name, u⟩ := n
      rw [List.map_cons, Text.joinWith_cons (List.cons_ne_nil _ _), ← ih (name, u),
        Style.writeMembers, write_depth d 0 u]
      simp [compactMember, Style.lineStart, Style.colon, Style.compact, compact, comma, chars,
        Text.ofString]

/-- **An object is written as its members**, with commas between them. -/
theorem compact_object (ms : Members) :
    compact (.object ms) =
      chars "\x7b" ++ (Text.joinWith comma (ms.map compactMember) ++ chars "\x7d") := by
  cases ms with
  | nil =>
      rw [compact, Style.write]
      rfl
  | cons m ms =>
      obtain ⟨name, v⟩ := m
      rw [List.map_cons, ← compactMember_append_writeMembers 1 (name, v) ms, compact, Style.write,
        write_depth 1 0 v]
      simp [compactMember, Style.lineStart, Style.colon, Style.compact, compact]

/-! ## Parts of a value -/

/-- A value is another one, or a part of it at some depth. -/
inductive Value.Within (u : Value) : Value → Prop
  | self : Within u u
  | item {v : Value} {vs : List Value} : v ∈ vs → Within u v → Within u (.array vs)
  | member {m : Text × Value} {ms : Members} : m ∈ ms → Within u m.2 → Within u (.object ms)

/-- A code point occurs in a text of a value, or in a name in it. -/
def Value.Mentions (v : Value) (c : CodePoint) : Prop :=
  (∃ t, Within (.text t) v ∧ c ∈ t) ∨
    ∃ ms name w, Within (.object ms) v ∧ (name, w) ∈ ms ∧ c ∈ name

theorem Value.Mentions.of_item {v : Value} {vs : List Value} {c : CodePoint} (hv : v ∈ vs)
    (h : v.Mentions c) : (Value.array vs).Mentions c := by
  rcases h with ⟨t, ht, hc⟩ | ⟨ms, name, w, hms, hm, hc⟩
  · exact .inl ⟨t, .item hv ht, hc⟩
  · exact .inr ⟨ms, name, w, .item hv hms, hm, hc⟩

theorem Value.Mentions.of_member {m : Text × Value} {ms : Members} {c : CodePoint} (hm : m ∈ ms)
    (h : m.2.Mentions c) : (Value.object ms).Mentions c := by
  rcases h with ⟨t, ht, hc⟩ | ⟨ns, name, w, hns, hn, hc⟩
  · exact .inl ⟨t, .member hm ht, hc⟩
  · exact .inr ⟨ns, name, w, .member hm hns, hn, hc⟩

theorem infix_between (a b t : Text) : t <:+: a ++ (t ++ b) := ⟨a, b, List.append_assoc _ _ _⟩

theorem infix_compactMember (m : Text × Value) : compact m.2 <:+: compactMember m :=
  ⟨writeText false m.1 ++ chars ":", [], by simp [compactMember]⟩

/-- **What is part of a value is written inside of it.** -/
theorem Value.Within.infix_compact {u v : Value} (h : u.Within v) : compact u <:+: compact v := by
  induction h with
  | self => exact List.infix_rfl
  | item hv _ ih =>
      rw [compact_array]
      exact ih.trans ((Text.infix_joinWith (List.mem_map_of_mem hv)).trans (infix_between _ _ _))
  | @member m ms hm _ ih =>
      rw [compact_object]
      exact ih.trans ((infix_compactMember m).trans
        ((Text.infix_joinWith (List.mem_map_of_mem hm)).trans (infix_between _ _ _)))

/-! ## What a document is made of -/

/-- A printable code point of ASCII. -/
def IsPlain (c : CodePoint) : Prop := 0x20 ≤ c.val ∧ c.val < 0x7F

instance (c : CodePoint) : Decidable (IsPlain c) := inferInstanceAs (Decidable (_ ∧ _))

theorem isPlain_of_isDigit {c : Char} (h : c.isDigit) : IsPlain (CodePoint.ofChar c) := by
  have hdigit := isDigit_ofChar c
  rw [h, isDigit, Bool.and_eq_true, decide_eq_true_eq, decide_eq_true_eq] at hdigit
  exact ⟨by omega, by omega⟩

theorem isPlain_escapeUnit (n : Nat) : ∀ c ∈ escapeUnit n, IsPlain c := by
  have hdigit : ∀ d : Fin 16, IsPlain (CodePoint.ofChar (Text.hexDigit d)) := by decide
  have hmod : ∀ m : Nat, IsPlain (CodePoint.ofChar (Text.hexDigit (m % 16))) :=
    fun m => hdigit ⟨m % 16, Nat.mod_lt _ (by decide)⟩
  intro c hc
  have hc : c ∈ [CodePoint.ofChar '\\', CodePoint.ofChar 'u',
    CodePoint.ofChar (Text.hexDigit (n / 16 / 16 / 16 % 16)),
    CodePoint.ofChar (Text.hexDigit (n / 16 / 16 % 16)),
    CodePoint.ofChar (Text.hexDigit (n / 16 % 16)), CodePoint.ofChar (Text.hexDigit (n % 16))] := hc
  simp only [List.mem_cons, List.not_mem_nil, or_false] at hc
  rcases hc with rfl | rfl | rfl | rfl | rfl | rfl
  · decide
  · decide
  all_goals exact hmod _

/-- A code point is written as itself or in printable ASCII. -/
theorem mem_writeCodePoint {c d : CodePoint} (h : d ∈ writeCodePoint false c) :
    IsPlain d ∨ (0x20 ≤ d.val ∧ d = c) := by
  unfold writeCodePoint at h
  split at h
  -- the seven code points that have an escape of their own
  iterate 7
    · exact .inl (Text.forall_mem_of_all (by decide) d h)
  · split at h
    · exact .inl (isPlain_escapeUnit _ d h)
    · rename_i hcontrol
      rw [Bool.false_and, if_neg (by decide), List.mem_singleton] at h
      rw [h]
      exact .inr ⟨Nat.le_of_not_lt hcontrol, rfl⟩

/-- Beyond ASCII a code point is written as itself. -/
theorem writeCodePoint_self {c : CodePoint} (h : 0x80 ≤ c.val) : writeCodePoint false c = [c] := by
  unfold writeCodePoint
  split
  iterate 7
    · rename_i heq
      omega
  · rw [if_neg (by omega), Bool.false_and, if_neg (by decide)]

theorem mem_writeText {t : Text} {c : CodePoint} (h : c ∈ writeText false t) :
    IsPlain c ∨ (0x20 ≤ c.val ∧ c ∈ t) := by
  have hquote : ∀ c ∈ chars "\"", IsPlain c := Text.forall_mem_of_all (by decide)
  rw [writeText, List.mem_append, List.mem_append, List.mem_flatMap] at h
  rcases h with (h | ⟨d, hd, h⟩) | h
  · exact .inl (hquote c h)
  · rcases mem_writeCodePoint h with hplain | ⟨hprintable, rfl⟩
    · exact .inl hplain
    · exact .inr ⟨hprintable, hd⟩
  · exact .inl (hquote c h)

theorem mem_writeText_of_mem {t : Text} {c : CodePoint} (hc : 0x80 ≤ c.val) (h : c ∈ t) :
    c ∈ writeText false t := by
  rw [writeText, List.mem_append, List.mem_append, List.mem_flatMap]
  refine .inl (.inr ⟨c, h, ?_⟩)
  rw [writeCodePoint_self hc]
  exact List.mem_singleton_self c

/-- The characters of a number. -/
theorem Spelling.Sound.mem_chars {n : Spelling} (h : n.Sound) {d : Char} (hd : d ∈ n.chars) :
    d.isDigit = true ∨ d ∈ ['-', '+', '.', 'e', 'E'] := by
  obtain ⟨negative, whole, fraction, exponent⟩ := n
  rw [Spelling.chars, List.mem_append, List.mem_append, List.mem_append] at hd
  rcases hd with hd | hd | hd | hd
  · have hsign : ∀ d ∈ Spelling.sign negative, d ∈ ['-', '+', '.', 'e', 'E'] :=
      Text.forall_mem_of_all (by cases negative <;> decide)
    exact .inr (hsign d hd)
  · exact .inl (h.whole d hd)
  · rw [Spelling.fractionChars] at hd
    split at hd
    · exact absurd hd List.not_mem_nil
    · rcases List.mem_cons.1 hd with rfl | hd
      · exact .inr (by decide)
      · exact .inl (h.fraction d hd)
  · rcases exponent with _ | ⟨minus, digits⟩
    · exact absurd hd List.not_mem_nil
    · rcases List.mem_cons.1 hd with rfl | hd
      · exact .inr (by decide)
      rcases List.mem_cons.1 hd with rfl | hd
      · exact .inr (by cases minus <;> decide)
      · exact .inl ((h.exponent minus digits rfl).2 d hd)

theorem Spelling.Sound.isPlain {n : Spelling} (h : n.Sound) :
    ∀ c ∈ n.chars.map CodePoint.ofChar, IsPlain c := by
  have hsymbol : ∀ d ∈ ['-', '+', '.', 'e', 'E'], IsPlain (CodePoint.ofChar d) :=
    Text.forall_mem_of_all (by decide)
  intro c hc
  obtain ⟨d, hd, rfl⟩ := List.mem_map.1 hc
  exact (h.mem_chars hd).elim isPlain_of_isDigit (hsymbol d)

theorem isPlain_writeInteger (n : Int) : ∀ c ∈ writeInteger n, IsPlain c := by
  rw [writeInteger_eq]
  exact (integerSpelling_sound n).isPlain

theorem isPlain_writeReal {x : Binary64} (h : x.Canonical) : ∀ c ∈ writeReal x, IsPlain c := by
  cases x with
  | nan => exact Text.forall_mem_of_all (by decide)
  | infinite negative => cases negative <;> exact Text.forall_mem_of_all (by decide)
  | finite negative m e =>
      obtain ⟨n, hn, hchars, -⟩ := exists_spelling_write {} negative h
      rw [writeReal, hchars]
      exact hn.isPlain

/-- **Beside printable ASCII, only what texts and names mention is written**, and control characters
are not. -/
theorem Legible.mem_compact {room : Nat} {v : Value} {c : CodePoint} (h : Legible room v)
    (hc : c ∈ compact v) : IsPlain c ∨ (0x20 ≤ c.val ∧ v.Mentions c) := by
  induction h with
  | null => exact .inl (Text.forall_mem_of_all (by decide) c hc)
  | bool b => exact .inl (Text.forall_mem_of_all (by cases b <;> decide) c hc)
  | integer _ => exact .inl (isPlain_writeInteger _ c hc)
  | real hx => exact .inl (isPlain_writeReal hx c hc)
  | text t => exact (mem_writeText hc).imp id fun ⟨hlow, hmem⟩ => ⟨hlow, .inl ⟨t, .self, hmem⟩⟩
  | array _ ih =>
      rw [compact_array, List.mem_append, List.mem_append] at hc
      rcases hc with hc | hc | hc
      · exact .inl (Text.forall_mem_of_all (by decide) c hc)
      · rcases Text.mem_joinWith hc with rfl | ⟨piece, hpiece, hc⟩
        · exact .inl (by decide)
        · obtain ⟨v, hv, rfl⟩ := List.mem_map.1 hpiece
          exact (ih v hv hc).imp id fun ⟨hlow, hmention⟩ => ⟨hlow, hmention.of_item hv⟩
      · exact .inl (Text.forall_mem_of_all (by decide) c hc)
  | object _ _ ih =>
      rw [compact_object, List.mem_append, List.mem_append] at hc
      rcases hc with hc | hc | hc
      · exact .inl (Text.forall_mem_of_all (by decide) c hc)
      · rcases Text.mem_joinWith hc with rfl | ⟨piece, hpiece, hc⟩
        · exact .inl (by decide)
        · obtain ⟨⟨name, w⟩, hm, rfl⟩ := List.mem_map.1 hpiece
          rw [compactMember, List.mem_append, List.mem_append] at hc
          rcases hc with hc | hc | hc
          · exact (mem_writeText hc).imp id fun ⟨hlow, hmem⟩ =>
              ⟨hlow, .inr ⟨_, name, w, .self, hm, hmem⟩⟩
          · exact .inl (Text.forall_mem_of_all (by decide) c hc)
          · exact (ih _ hm hc).imp id fun ⟨hlow, hmention⟩ => ⟨hlow, hmention.of_member hm⟩
      · exact .inl (Text.forall_mem_of_all (by decide) c hc)

/-- **All that is mentioned beyond ASCII is written.** -/
theorem Value.Mentions.mem_compact {v : Value} {c : CodePoint} (hc : 0x80 ≤ c.val)
    (h : v.Mentions c) : c ∈ compact v := by
  rcases h with ⟨t, ht, hmem⟩ | ⟨ms, name, w, hms, hm, hmem⟩
  · exact ht.infix_compact.subset (mem_writeText_of_mem hc hmem)
  · have hname : c ∈ compactMember (name, w) :=
      List.mem_append_left _ (mem_writeText_of_mem hc hmem)
    have hobject : c ∈ compact (.object ms) := by
      rw [compact_object]
      exact List.mem_append_right _ (List.mem_append_left _
        (Text.mem_joinWith_of_mem (List.mem_map_of_mem hm) hname))
    exact hms.infix_compact.subset hobject

/-! ## Documents -/

/-- A value begins with printable ASCII. -/
theorem Legible.compact_opens {room : Nat} {v : Value} (h : Legible room v) :
    ∃ c t, compact v = c :: t ∧ IsPlain c := by
  obtain ⟨c, t, hopen, -, -⟩ := h.readsBack.opens 0
  refine ⟨c, t, hopen, ?_⟩
  have hc : c ∈ compact v := by
    rw [compact, hopen]
    exact List.mem_cons_self
  -- what is mentioned comes behind a quote, a bracket or a brace
  cases v with
  | text _ => cases hopen; decide
  | array vs => cases vs <;> cases hopen <;> decide
  | object ms => cases ms <;> cases hopen <;> decide
  | null | bool _ | integer _ | real _ =>
      rcases h.mem_compact hc with hplain | ⟨-, ⟨t, ht, -⟩ | ⟨ms, name, w, hms, -, -⟩⟩
      · exact hplain
      · cases ht
      · cases hms

/-- **Text that begins with ASCII and has no zero in it is told to be UTF-8.** -/
theorem detect_text {c : CodePoint} {t : Text} (hascii : c.val < 0x80)
    (hzero : ∀ d ∈ c :: t, d.val ≠ 0) :
    Encoding.detect ((c :: t).flatMap Text.utf8Bytes) = .utf8 0 := by
  have hbytes : ∀ b ∈ (c :: t).flatMap Text.utf8Bytes, b ≠ 0 := by
    intro b hb
    obtain ⟨d, hd, hb⟩ := List.mem_flatMap.1 hb
    exact Text.ne_zero_of_mem_utf8Bytes (hzero d hd) b hb
  have hfirst : Text.utf8Bytes c = [UInt8.ofNat c.val] := if_pos hascii
  have hlow : UInt8.ofNat c.val < 0x80 := by
    rw [UInt8.lt_iff_toNat_lt, Text.toNat_ofNat_of_lt (by omega)]
    exact hascii
  rw [List.flatMap_cons, hfirst, List.singleton_append] at hbytes ⊢
  exact Encoding.detect_of_ascii (hbytes _ List.mem_cons_self) hlow fun b hb =>
    hbytes b (List.mem_cons_of_mem _ hb)

/-- **A document is told to be UTF-8.** -/
theorem Legible.detect_compact {room : Nat} {v : Value} (h : Legible room v) :
    Encoding.detect ((compact v).flatMap Text.utf8Bytes) = .utf8 0 := by
  have hzero : ∀ c ∈ compact v, c.val ≠ 0 := by
    intro c hc
    rcases h.mem_compact hc with hplain | ⟨hlow, -⟩
    · have := hplain.1
      omega
    · omega
  obtain ⟨c, t, hopen, -, hhigh⟩ := h.compact_opens
  rw [hopen] at hzero ⊢
  exact detect_text (by omega) hzero

/-- **There is a document unless a surrogate is mentioned.** -/
theorem Legible.document_error_iff {room : Nat} {v : Value} (h : Legible room v) :
    (∃ e, document v = .error e) ↔ ∃ c, v.Mentions c ∧ c.isSurrogate = true := by
  have hrange : ∀ c : CodePoint, c.isSurrogate = true → 0xD800 ≤ c.val := by
    intro c hc
    rw [CodePoint.isSurrogate, Bool.and_eq_true, decide_eq_true_eq, decide_eq_true_eq] at hc
    exact hc.1
  rw [document, Text.encodeUtf8_error_iff]
  constructor
  · rintro ⟨c, hc, hsurrogate⟩
    have hhigh := hrange c hsurrogate
    rcases h.mem_compact hc with ⟨-, hplain⟩ | ⟨-, hmention⟩
    · omega
    · exact ⟨c, hmention, hsurrogate⟩
  · rintro ⟨c, hmention, hsurrogate⟩
    have hhigh := hrange c hsurrogate
    exact ⟨c, hmention.mem_compact (by omega), hsurrogate⟩

/-- **What is read is written and read again.** The legible values are those that some document
denotes. Such a value has no document exactly if a text or a name in it has a surrogate, and what is
read from its document is the value, its members in their order. -/
theorem document_readBack (v : Value) :
    ((∃ served, readDocument served = .ok v) ↔ Legible nestingLimit v) ∧
      (Legible nestingLimit v →
        ((∃ e, document v = .error e) ↔ ∃ c, v.Mentions c ∧ c.isSurrogate = true) ∧
        ∀ bytes, document v = .ok bytes → readDocument bytes = .ok v) := by
  have hback (h : Legible nestingLimit v) :
      readDocument ((compact v).flatMap Text.utf8Bytes) = .ok v :=
    readDocument_compact h.readsBack (Nat.le_refl _) h.detect_compact
  refine ⟨⟨fun ⟨_, hserved⟩ => legible_of_readDocument hserved, fun h => ⟨_, hback h⟩⟩, fun h => ?_⟩
  refine ⟨h.document_error_iff, fun bytes hbytes => ?_⟩
  rw [Text.encodeUtf8_ok hbytes]
  exact hback h

end ImageTransfer.Json
