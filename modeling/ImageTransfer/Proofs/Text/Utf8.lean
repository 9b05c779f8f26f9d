import ImageTransfer.Text.Utf8
import Mathlib.Data.List.TakeWhile

/-!
# UTF-8 is read back

A code point is encoded in a first byte, which says how many bytes follow, and bytes that continue
it with six bits each. `continueSequence_continuation` reads one of these, and the code points of
each length follow from it (`nextCodePoint_one` to `nextCodePoint_four`). Surrogates are read back
too, since the reader takes their three bytes.
-/

namespace ImageTransfer.Text

/-- A byte that continues a sequence with six bits. -/
def continuation (bits : Nat) : UInt8 := UInt8.ofNat (0x80 + bits)

theorem toNat_ofNat_of_lt {n : Nat} (h : n < 0x100) : (UInt8.ofNat n).toNat = n := by
  rw [UInt8.toNat_ofNat']
  exact Nat.mod_eq_of_lt h

theorem isContinuation_continuation {bits : Nat} (h : bits < 0x40) :
    isContinuation (continuation bits) = true := by
  have hn : (continuation bits).toNat = 0x80 + bits := toNat_ofNat_of_lt (by omega)
  have hlow : (0x80 : UInt8) ≤ continuation bits := by
    rw [UInt8.le_iff_toNat_le, hn]
    exact Nat.le_add_right _ _
  have hhigh : continuation bits < 0xC0 := by
    rw [UInt8.lt_iff_toNat_lt, hn]
    show 0x80 + bits < 0xC0
    omega
  simp [isContinuation, hlow, hhigh]

/-- A byte in the range that may come next adds its six bits. -/
theorem continueSequence_continuation {value seen missing bits : Nat} {low high : UInt8}
    {rest : List UInt8} (hbits : bits < 0x40) (hlow : low.toNat ≤ 0x80 + bits)
    (hhigh : 0x80 + bits < high.toNat) :
    continueSequence value seen low high (missing + 1) (continuation bits :: rest) =
      continueSequence (value * 0x40 + bits) (seen + 1) 0x80 0xC0 missing rest := by
  have hn : (continuation bits).toNat = 0x80 + bits := toNat_ofNat_of_lt (by omega)
  have hl : low ≤ continuation bits := by rw [UInt8.le_iff_toNat_le, hn]; exact hlow
  have hh : continuation bits < high := by rw [UInt8.lt_iff_toNat_lt, hn]; exact hhigh
  rw [continueSequence, if_pos (by simp [hl, hh]), hn, Nat.add_sub_cancel_left]

/-- The bytes after the first, in the range that all of them but a second one may have. -/
theorem continueSequence_plain {value seen missing bits : Nat} {rest : List UInt8}
    (hbits : bits < 0x40) :
    continueSequence value seen 0x80 0xC0 (missing + 1) (continuation bits :: rest) =
      continueSequence (value * 0x40 + bits) (seen + 1) 0x80 0xC0 missing rest :=
  continueSequence_continuation hbits (Nat.le_add_right _ _) (by show _ < 0xC0; omega)

theorem codePoint_of_eq {c : CodePoint} {value : Nat} (h : value = c.val) : codePoint value = c := by
  rw [h]
  exact Fin.ofNat_val_eq_self c

/-- The end of a sequence: the value is the code point. -/
theorem continueSequence_zero (c : CodePoint) {value seen : Nat} {low high : UInt8}
    (rest : List UInt8) (h : value = c.val) :
    continueSequence value seen low high 0 rest = .ok (c, rest) := by
  rw [continueSequence, codePoint_of_eq h]

/-- A sequence of three bytes whose bytes after the first are continuations. Half of a surrogate pair
is no exception. -/
theorem nextCodePoint_of_continuations {b second third : UInt8} (rest : List UInt8)
    (hlow : 0xE0 ≤ b.toNat) (hhigh : b.toNat < 0xF0) (h₂ : isContinuation second = true)
    (h₃ : isContinuation third = true) :
    nextCodePoint b (second :: third :: rest) =
      continueSequence (b.toNat - 0xE0) 1 (if b.toNat = 0xE0 then 0xA0 else 0x80) 0xC0 2
        (second :: third :: rest) := by
  unfold nextCodePoint
  dsimp only
  generalize b.toNat = n at hlow hhigh ⊢
  rw [if_neg (by omega), if_neg (by omega), if_neg (by omega), if_pos hhigh]
  split
  · rename_i hrest
    cases hrest
    rw [h₂, h₃]
    simp
  · rename_i hshort
    exact absurd rfl (hshort second third rest)
  · rfl

/-! ## Code points by the length of their encoding -/

section

variable {c : CodePoint} (rest : List UInt8)

theorem mod_lt_sixtyFour (m : Nat) : m % 0x40 < 0x40 := Nat.mod_lt _ (by decide)

theorem nextCodePoint_one (h : c.val < 0x80) :
    nextCodePoint (UInt8.ofNat c.val) rest = .ok (c, rest) := by
  have hb : (UInt8.ofNat c.val).toNat = c.val := toNat_ofNat_of_lt (by omega)
  unfold nextCodePoint
  dsimp only
  rw [hb, if_pos h, codePoint_of_eq rfl]

theorem nextCodePoint_two (hlow : 0x80 ≤ c.val) (hhigh : c.val < 0x800) :
    nextCodePoint (UInt8.ofNat (0xC0 + c.val / 0x40)) (continuation (c.val % 0x40) :: rest) =
      .ok (c, rest) := by
  have hb : (UInt8.ofNat (0xC0 + c.val / 0x40)).toNat = 0xC0 + c.val / 0x40 :=
    toNat_ofNat_of_lt (by omega)
  unfold nextCodePoint
  dsimp only
  rw [hb, if_neg (by omega), if_neg (by omega), if_pos (by omega),
    continueSequence_plain (mod_lt_sixtyFour _)]
  exact continueSequence_zero c rest (by omega)

theorem nextCodePoint_three (hlow : 0x800 ≤ c.val) (hhigh : c.val < 0x10000) :
    nextCodePoint (UInt8.ofNat (0xE0 + c.val / 0x1000))
      (continuation (c.val / 0x40 % 0x40) :: continuation (c.val % 0x40) :: rest) =
        .ok (c, rest) := by
  have hb : (UInt8.ofNat (0xE0 + c.val / 0x1000)).toNat = 0xE0 + c.val / 0x1000 :=
    toNat_ofNat_of_lt (by omega)
  have hsecond := mod_lt_sixtyFour (c.val / 0x40)
  rw [nextCodePoint_of_continuations rest (by omega) (by omega)
    (isContinuation_continuation hsecond) (isContinuation_continuation (mod_lt_sixtyFour _)), hb,
    continueSequence_continuation hsecond, continueSequence_plain (mod_lt_sixtyFour _)]
  · exact continueSequence_zero c rest (by omega)
  · -- after the smallest first byte the second one begins in the upper half of its range
    split
    · show 0xA0 ≤ _
      omega
    · exact Nat.le_add_right _ _
  · show _ < 0xC0
    omega

theorem nextCodePoint_four (hlow : 0x10000 ≤ c.val) :
    nextCodePoint (UInt8.ofNat (0xF0 + c.val / 0x40000))
      (continuation (c.val / 0x1000 % 0x40) :: continuation (c.val / 0x40 % 0x40) ::
        continuation (c.val % 0x40) :: rest) = .ok (c, rest) := by
  have hmax := c.isLt
  have hb : (UInt8.ofNat (0xF0 + c.val / 0x40000)).toNat = 0xF0 + c.val / 0x40000 :=
    toNat_ofNat_of_lt (by omega)
  have hsecond := mod_lt_sixtyFour (c.val / 0x1000)
  unfold nextCodePoint
  dsimp only
  rw [hb, if_neg (by omega), if_neg (by omega), if_neg (by omega), if_neg (by omega),
    if_pos (by omega), continueSequence_continuation hsecond,
    continueSequence_plain (mod_lt_sixtyFour _), continueSequence_plain (mod_lt_sixtyFour _)]
  · exact continueSequence_zero c rest (by omega)
  · -- the same after the smallest first byte, and after the largest one the range ends early
    split
    · show 0x90 ≤ _
      omega
    · exact Nat.le_add_right _ _
  · split
    · show _ < 0x90
      omega
    · show _ < 0xC0
      omega

/-- The first byte of a code point and the bytes that continue it are read as the code point. -/
theorem nextCodePoint_utf8Bytes (c : CodePoint) :
    ∃ b tail, utf8Bytes c = b :: tail ∧ nextCodePoint b (tail ++ rest) = .ok (c, rest) := by
  by_cases h₁ : c.val < 0x80
  · exact ⟨_, [], if_pos h₁, nextCodePoint_one rest h₁⟩
  by_cases h₂ : c.val < 0x800
  · refine ⟨_, _, (if_neg h₁).trans (if_pos h₂), ?_⟩
    exact nextCodePoint_two rest (by omega) h₂
  by_cases h₃ : c.val < 0x10000
  · refine ⟨_, _, (if_neg h₁).trans ((if_neg h₂).trans (if_pos h₃)), ?_⟩
    exact nextCodePoint_three rest (by omega) h₃
  · refine ⟨_, _, (if_neg h₁).trans ((if_neg h₂).trans (if_neg h₃)), ?_⟩
    exact nextCodePoint_four rest (by omega)

end

theorem decodeUtf8From_flatMap (t : Text) (before : Nat) (done : Array CodePoint) :
    decodeUtf8From before done (t.flatMap utf8Bytes) = .ok (done.toList ++ t) := by
  induction t generalizing before done with
  | nil => rw [List.flatMap_nil, decodeUtf8From, List.append_nil]
  | cons c t ih =>
      obtain ⟨b, tail, hc, hnext⟩ := nextCodePoint_utf8Bytes (t.flatMap utf8Bytes) c
      rw [List.flatMap_cons, hc, List.cons_append, decodeUtf8From]
      split
      · rename_i e he
        cases he.symm.trans hnext
      · rename_i c' left hl
        cases hnext.symm.trans hl
        rw [ih, Array.toList_push, List.append_assoc, List.singleton_append]

/-- **Text is read back from its bytes**, surrogates included. -/
theorem decodeUtf8_flatMap (t : Text) : decodeUtf8 (t.flatMap utf8Bytes) = .ok t :=
  decodeUtf8From_flatMap t 0 #[]

/-- Text that can be encoded has no other bytes. -/
theorem encodeUtf8_ok {t : Text} {bytes : List UInt8} (h : encodeUtf8 t = .ok bytes) :
    bytes = t.flatMap utf8Bytes := by
  unfold encodeUtf8 at h
  split at h
  · cases h
    rfl
  · cases h

/-- **Text can be encoded unless there is a surrogate in it.** -/
theorem encodeUtf8_error_iff {t : Text} :
    (∃ e, encodeUtf8 t = .error e) ↔ ∃ c ∈ t, c.isSurrogate = true := by
  unfold encodeUtf8
  cases hfrom : t.dropWhile (!·.isSurrogate) with
  | nil =>
      rw [List.dropWhile_eq_nil_iff] at hfrom
      refine ⟨nofun, fun ⟨c, hc, hsurrogate⟩ => ?_⟩
      simpa [hsurrogate] using hfrom c hc
  | cons c rest =>
      have hc : c ∈ t := (List.dropWhile_sublist _).subset (hfrom ▸ List.mem_cons_self)
      have hsurrogate := List.head_dropWhile_not (p := (!·.isSurrogate)) (l := t) (by simp [hfrom])
      refine ⟨fun _ => ⟨c, hc, ?_⟩, fun _ => ⟨_, rfl⟩⟩
      simpa [hfrom] using hsurrogate

theorem encodeUtf8_eq_ok {t : Text} (h : ∀ c ∈ t, c.isSurrogate = false) :
    encodeUtf8 t = .ok (t.flatMap utf8Bytes) := by
  cases hbytes : encodeUtf8 t with
  | error e =>
      obtain ⟨c, hc, hsurrogate⟩ := encodeUtf8_error_iff.1 ⟨e, hbytes⟩
      exact absurd hsurrogate (by rw [h c hc]; decide)
  | ok bytes => rw [encodeUtf8_ok hbytes]

/-- Only the code point zero has a zero among its bytes. -/
theorem ne_zero_of_mem_utf8Bytes {c : CodePoint} (hc : c.val ≠ 0) : ∀ b ∈ utf8Bytes c, b ≠ 0 := by
  have hne : ∀ n, 0 < n → n < 0x100 → UInt8.ofNat n ≠ 0 := fun n hpos hlt heq => by
    have := congrArg UInt8.toNat heq
    rw [toNat_ofNat_of_lt hlt] at this
    exact absurd this (Nat.ne_of_gt hpos)
  have hlt := c.isLt
  unfold utf8Bytes
  dsimp only
  intro b hb
  split at hb
  · simp only [List.mem_cons, List.not_mem_nil, or_false] at hb
    subst hb
    exact hne _ (by omega) (by omega)
  split at hb
  · simp only [List.mem_cons, List.not_mem_nil, or_false] at hb
    rcases hb with rfl | rfl <;> exact hne _ (by omega) (by omega)
  split at hb
  · simp only [List.mem_cons, List.not_mem_nil, or_false] at hb
    rcases hb with rfl | rfl | rfl <;> exact hne _ (by omega) (by omega)
  · simp only [List.mem_cons, List.not_mem_nil, or_false] at hb
    rcases hb with rfl | rfl | rfl | rfl <;> exact hne _ (by omega) (by omega)

end ImageTransfer.Text
