import ImageTransfer.Proofs.Decimal.Shortest
import ImageTransfer.Proofs.Json.ReadBack

/-!
# Numbers are read back

Whole numbers and numbers with a fraction are both written as a `Spelling`: a sign, whole digits, the
digits of a fraction and those of an exponent. A reader takes a spelling apart again
(`readNumeral?_chars`), provided that nothing follows that a number could go on with. However the
digits of a floating-point number are laid out, the numeral that is read from them is worth as much
as they are (`exists_spelling`), so the rounding of the reader comes back to the number.
-/

namespace ImageTransfer.Json

open Decimal

variable {rest t : Text}

/-! ## Digits in text -/

theorem isDigit_ofChar (c : Char) : isDigit (CodePoint.ofChar c) = c.isDigit := by
  rw [Bool.eq_iff_iff, isDigit, Char.isDigit, Bool.and_eq_true, Bool.and_eq_true, decide_eq_true_eq,
    decide_eq_true_eq, decide_eq_true_eq, decide_eq_true_eq]
  exact Iff.rfl

theorem val_ofChar_ne {c d : Char} (h : c ≠ d) : (CodePoint.ofChar c).val ≠ (CodePoint.ofChar d).val :=
  fun heq => h (CodePoint.ofChar_inj (Fin.ext heq))

/-- No digit comes first. -/
def EndsDigits (t : Text) : Prop := ∀ c rest, t = c :: rest → isDigit c = false

/-- Digits and a rest that begins with none are told apart. -/
theorem takeWhile_digits {cs : List Char} (hcs : ∀ c ∈ cs, c.isDigit) (ht : EndsDigits t) :
    (cs.map CodePoint.ofChar ++ t).takeWhile isDigit = cs.map CodePoint.ofChar ∧
      (cs.map CodePoint.ofChar ++ t).dropWhile isDigit = t := by
  have hall : ∀ c ∈ cs.map CodePoint.ofChar, isDigit c = true := by
    intro c hc
    obtain ⟨d, hd, rfl⟩ := List.mem_map.1 hc
    rw [isDigit_ofChar, hcs d hd]
  rw [List.takeWhile_append_of_pos hall, List.dropWhile_append_of_pos hall]
  cases t with
  | nil => simp
  | cons c t =>
      have hc : isDigit c = false := ht c t rfl
      simp [hc]

theorem takeDigits_append {cs : List Char} (hcs : ∀ c ∈ cs, c.isDigit) (ht : EndsDigits t) :
    takeDigits (cs.map CodePoint.ofChar ++ t) = digitValues cs := by
  rw [takeDigits, (takeWhile_digits hcs ht).1, List.map_map]
  rfl

/-! ## Spellings -/

/-- A number as it is spelled. -/
structure Spelling where
  negative : Bool
  whole : List Char
  fraction : List Char
  /-- The exponent, as "is negative" and digits. -/
  exponent : Option (Bool × List Char)

namespace Spelling

/-- The sign of a number; a plus is not written. -/
def sign (negative : Bool) : List Char := if negative then ['-'] else []

/-- The fraction of a number, behind a point. -/
def fractionChars (fraction : List Char) : List Char :=
  if fraction = [] then [] else '.' :: fraction

/-- The exponent of a number, always with its sign. -/
def exponentChars : Option (Bool × List Char) → List Char
  | none => []
  | some (negative, digits) => 'e' :: (if negative then '-' else '+') :: digits

/-- How the number is written. -/
def chars (n : Spelling) : List Char :=
  sign n.negative ++ (n.whole ++ (fractionChars n.fraction ++ exponentChars n.exponent))

/-- The exponent that digits with a sign stand for. -/
def exponentValue (negative : Bool) (digits : List Char) : Int :=
  let n : Int := ofDigits (digitValues digits)
  if negative then -n else n

/-- The number that a reader makes of it. -/
def numeral (n : Spelling) : Numeral :=
  ⟨n.negative, digitValues n.whole, digitValues n.fraction,
    n.exponent.map fun (negative, digits) => exponentValue negative digits⟩

/-- A number that is spelled in digits, none of them in front of the others for nothing. -/
structure Sound (n : Spelling) : Prop where
  whole : ∀ c ∈ n.whole, c.isDigit
  begins : n.whole = ['0'] ∨ ∃ c cs, n.whole = c :: cs ∧ c ≠ '0'
  fraction : ∀ c ∈ n.fraction, c.isDigit
  exponent : ∀ negative digits, n.exponent = some (negative, digits) →
    digits ≠ [] ∧ ∀ c ∈ digits, c.isDigit

end Spelling

/-- What no number goes on with: no digit, point or exponent. -/
def EndsNumber (t : Text) : Prop :=
  ∀ c rest, t = c :: rest → isDigit c = false ∧ c.val ≠ 0x2E ∧ c.val ≠ 0x65 ∧ c.val ≠ 0x45

theorem Delimited.endsNumber (h : Delimited t) : EndsNumber t := by
  intro c rest hc
  have hval := h c rest hc
  refine ⟨?_, by omega, by omega, by omega⟩
  rw [isDigit, Bool.and_eq_false_iff, decide_eq_false_iff_not, decide_eq_false_iff_not]
  omega

theorem readExponent_chars {exponent : Option (Bool × List Char)}
    (h : ∀ negative digits, exponent = some (negative, digits) →
      digits ≠ [] ∧ ∀ c ∈ digits, c.isDigit) (hrest : EndsNumber rest) :
    readExponent ((Spelling.exponentChars exponent).map CodePoint.ofChar ++ rest) =
      (exponent.map fun (negative, digits) => Spelling.exponentValue negative digits, rest) := by
  rcases exponent with _ | ⟨negative, digits⟩
  · show readExponent rest = (none, rest)
    cases rest with
    | nil => rfl
    | cons c rest =>
        obtain ⟨-, -, hsmall, hlarge⟩ := hrest c rest rfl
        rw [readExponent]
        exact if_neg fun h => h.1.elim hsmall hlarge
  · obtain ⟨hne, hdigits⟩ := h negative digits rfl
    have hends : EndsDigits rest := fun c more hc => (hrest c more hc).1
    have htake := takeDigits_append hdigits hends
    have hdrop := (takeWhile_digits hdigits hends).2
    have hsign : readSign true (CodePoint.ofChar (if negative then '-' else '+') ::
        (digits.map CodePoint.ofChar ++ rest)) = (negative, digits.map CodePoint.ofChar ++ rest) := by
      cases negative <;> rfl
    show readExponent (CodePoint.ofChar 'e' :: CodePoint.ofChar (if negative then '-' else '+') ::
      (digits.map CodePoint.ofChar ++ rest)) = _
    rw [readExponent, hsign]
    dsimp only
    rw [htake, hdrop, if_pos ⟨.inl (by decide), by simpa [digitValues] using hne⟩]
    rfl

theorem readFraction_chars {fraction : List Char} (h : ∀ c ∈ fraction, c.isDigit)
    (ht : EndsDigits t) (hpoint : ∀ c rest, t = c :: rest → c.val ≠ 0x2E) :
    readFraction ((Spelling.fractionChars fraction).map CodePoint.ofChar ++ t) =
      (digitValues fraction, t) := by
  cases fraction with
  | nil =>
      show readFraction t = ([], t)
      cases t with
      | nil => rfl
      | cons c rest =>
          rw [readFraction]
          exact if_neg fun h => hpoint c rest rfl h.1
  | cons d ds =>
      have htake := takeDigits_append h ht
      have hdrop := (takeWhile_digits h ht).2
      show readFraction (CodePoint.ofChar '.' :: ((d :: ds).map CodePoint.ofChar ++ t)) = _
      rw [readFraction, htake, hdrop, if_pos ⟨by decide, by simp [digitValues]⟩]

theorem readWhole?_chars {whole : List Char} (h : ∀ c ∈ whole, c.isDigit)
    (hbegins : whole = ['0'] ∨ ∃ c cs, whole = c :: cs ∧ c ≠ '0') (ht : EndsDigits t) :
    readWhole? (whole.map CodePoint.ofChar ++ t) = some (digitValues whole, t) := by
  rcases hbegins with rfl | ⟨c, cs, rfl, hc⟩
  · rfl
  · have htake := takeDigits_append h ht
    have hdrop := (takeWhile_digits h ht).2
    have hdigit : isDigit (CodePoint.ofChar c) = true := by
      rw [isDigit_ofChar, h c List.mem_cons_self]
    have hzero : (CodePoint.ofChar c).val ≠ 0x30 := val_ofChar_ne hc
    rw [List.map_cons, List.cons_append] at htake hdrop ⊢
    rw [readWhole?, if_neg hzero, if_pos hdigit, htake, hdrop]

theorem Spelling.Sound.exists_digit {n : Spelling} (h : n.Sound) :
    ∃ d ds, n.whole = d :: ds ∧ d.isDigit = true := by
  obtain ⟨d, ds, hwhole⟩ : ∃ d ds, n.whole = d :: ds := by
    rcases h.begins with hzero | ⟨c, cs, hcs, -⟩
    · exact ⟨_, _, hzero⟩
    · exact ⟨c, cs, hcs⟩
  exact ⟨d, ds, hwhole, h.whole d (hwhole ▸ List.mem_cons_self)⟩

/-- The sign is told from the digits. -/
theorem readSign_chars {n : Spelling} (h : n.Sound) (t : Text) :
    readSign false ((Spelling.sign n.negative).map CodePoint.ofChar ++
      (n.whole.map CodePoint.ofChar ++ t)) = (n.negative, n.whole.map CodePoint.ofChar ++ t) := by
  cases n.negative with
  | true => rfl
  | false =>
      obtain ⟨d, ds, hwhole, hdigit⟩ := h.exists_digit
      have hminus : (CodePoint.ofChar d).val ≠ (CodePoint.ofChar '-').val :=
        val_ofChar_ne fun heq => absurd (heq ▸ hdigit) (by decide)
      rw [hwhole]
      show readSign false (CodePoint.ofChar d :: _) = _
      rw [readSign]
      exact if_neg hminus

/-- The sign, the whole digits and the fraction are told from an exponent behind them. -/
theorem readNumeral?_parts {n : Spelling} (h : n.Sound) {exponent : Option Int}
    (hexponent : readExponent t = (exponent, rest)) (hends : EndsDigits t)
    (hpoint : ∀ c more, t = c :: more → c.val ≠ 0x2E) :
    readNumeral? ((Spelling.sign n.negative ++
      (n.whole ++ Spelling.fractionChars n.fraction)).map CodePoint.ofChar ++ t) =
        some ({ n.numeral with exponent := exponent }, rest) := by
  have hfraction := readFraction_chars h.fraction hends hpoint
  have hends' : EndsDigits ((Spelling.fractionChars n.fraction).map CodePoint.ofChar ++ t) := by
    cases n.fraction with
    | nil => exact hends
    | cons d ds =>
        intro c more hc
        cases hc
        decide
  have hwhole := readWhole?_chars h.whole h.begins hends'
  have hsign := readSign_chars h ((Spelling.fractionChars n.fraction).map CodePoint.ofChar ++ t)
  rw [List.map_append, List.map_append, List.append_assoc, List.append_assoc, readNumeral?, hsign]
  dsimp only
  rw [hwhole, Option.map_some]
  dsimp only
  rw [hfraction]
  dsimp only
  rw [hexponent]
  rfl

/-- **A spelling is taken apart again.** -/
theorem readNumeral?_chars {n : Spelling} (h : n.Sound) (hrest : EndsNumber rest) :
    readNumeral? (n.chars.map CodePoint.ofChar ++ rest) = some (n.numeral, rest) := by
  have hexponent := readExponent_chars h.exponent hrest
  have hends : EndsDigits ((Spelling.exponentChars n.exponent).map CodePoint.ofChar ++ rest) ∧
      ∀ c more, (Spelling.exponentChars n.exponent).map CodePoint.ofChar ++ rest = c :: more →
        c.val ≠ 0x2E := by
    rcases n.exponent with _ | ⟨negative, digits⟩
    · exact ⟨fun c more hc => (hrest c more hc).1, fun c more hc => (hrest c more hc).2.1⟩
    · refine ⟨fun c more hc => ?_, fun c more hc => ?_⟩
      all_goals
        cases hc
        decide
  have hparts := readNumeral?_parts h hexponent hends.1 hends.2
  rw [← List.append_assoc, ← List.map_append, List.append_assoc, List.append_assoc] at hparts
  exact hparts

/-! ## Whole numbers -/

/-- The sign and the digits of a whole number. -/
def integerSpelling (n : Int) : Spelling := ⟨decide (n < 0), Nat.toDigits 10 n.natAbs, [], none⟩

theorem signed_natAbs (n : Int) :
    (if decide (n < 0) = true then -(n.natAbs : Int) else n.natAbs) = n := by
  by_cases h : n < 0
  · rw [decide_eq_true h, if_pos rfl]
    omega
  · rw [decide_eq_false h, if_neg Bool.false_ne_true]
    omega

theorem sound_toDigits (n : Nat) :
    Nat.toDigits 10 n = ['0'] ∨ ∃ c cs, Nat.toDigits 10 n = c :: cs ∧ c ≠ '0' := by
  rcases Nat.eq_zero_or_pos n with rfl | hpos
  · exact .inl rfl
  · exact .inr (toDigits_begins hpos)

theorem integerSpelling_sound (n : Int) : (integerSpelling n).Sound :=
  ⟨isDigit_toDigits _, sound_toDigits _, nofun, nofun⟩

theorem writeInteger_eq (n : Int) :
    writeInteger n = (integerSpelling n).chars.map CodePoint.ofChar := by
  have hchars : (integerSpelling n).chars =
      Spelling.sign (decide (n < 0)) ++ Nat.toDigits 10 n.natAbs := by
    show Spelling.sign (decide (n < 0)) ++ (Nat.toDigits 10 n.natAbs ++ []) = _
    rw [List.append_nil]
  rw [hchars, writeInteger, Spelling.sign]
  by_cases h : n < 0
  · rw [if_pos h, if_pos (decide_eq_true h)]
    rfl
  · rw [if_neg h, if_neg (by simpa using h)]
    rfl

/-- **A whole number is read back** unless it has too many digits. -/
theorem value_integerSpelling {n : Int} (h : n.natAbs < 10 ^ digitLimit) :
    (integerSpelling n).numeral.value = .ok (.integer n) := by
  have hlength : (digitValues (Nat.toDigits 10 n.natAbs)).length ≤ digitLimit := by
    rw [digitValues, List.length_map]
    exact (Nat.length_toDigits_le_iff (by decide) (by decide)).2 h
  have hdigits : ofDigits (digitValues (Nat.toDigits 10 n.natAbs)) = n.natAbs := ofDigits_toDigits _
  rw [Numeral.value, if_pos ⟨rfl, rfl⟩]
  show (if digitLimit < (digitValues (Nat.toDigits 10 n.natAbs)).length then _ else _) = _
  rw [if_neg (Nat.not_lt.2 hlength)]
  dsimp only [integerSpelling, Spelling.numeral]
  rw [hdigits]
  exact congrArg (fun m => Except.ok (Value.integer m)) (signed_natAbs n)

/-! ## Numbers with a fraction or an exponent -/

/-- What a numeral is worth without its sign. -/
def Numeral.magnitude (n : Numeral) : ℚ :=
  ofDigits (n.whole ++ n.fraction) * 10 ^ (n.exponent.getD 0 - n.fraction.length)

/-- **A numeral worth a number in the neighbourhood of a canonical one is read as that one.** -/
theorem Numeral.value_of_contains {n : Numeral} {m : Nat} {e : Int}
    (hreal : n.fraction ≠ [] ∨ n.exponent ≠ none) (hfit : Binary64.Fitting m e) (hm : 0 < m)
    (hpos : 0 < n.magnitude) (h : (Binary64.neighbourhood m e).Contains e n.magnitude) :
    n.value = .ok (.real (.finite n.negative m e)) := by
  have hdigits : 0 < ofDigits (n.whole ++ n.fraction) := by
    refine Nat.pos_of_ne_zero fun hzero => ?_
    rw [magnitude, hzero, Nat.cast_zero, zero_mul] at hpos
    exact lt_irrefl _ hpos
  rw [value, if_neg fun hnone => hreal.elim (· hnone.1) (· hnone.2),
    Binary64.ofDecimal_of_contains n.negative hdigits hfit hm h]

theorem digitValues_append (cs ds : List Char) :
    digitValues (cs ++ ds) = digitValues cs ++ digitValues ds := List.map_append

theorem length_digitValues (cs : List Char) : (digitValues cs).length = cs.length := List.length_map _

theorem digitValues_zeros (k : Nat) : digitValues (List.replicate k '0') = List.replicate k 0 :=
  List.map_replicate

theorem ofDigits_zeros_append (k : Nat) (ds : List Char) :
    ofDigits (digitValues (List.replicate k '0' ++ ds)) = ofDigits (digitValues ds) := by
  rw [digitValues_append, digitValues_zeros, ofDigits_append, ofDigits_replicate_zero, Nat.zero_mul,
    Nat.zero_add]

theorem ofDigits_append_zeros (ds : List Char) (k : Nat) :
    ofDigits (digitValues (ds ++ List.replicate k '0')) = ofDigits (digitValues ds) * 10 ^ k := by
  rw [digitValues_append, digitValues_zeros, ofDigits_append, ofDigits_replicate_zero,
    List.length_replicate, Nat.add_zero]

theorem isDigit_zeros (k : Nat) : ∀ c ∈ List.replicate k '0', c.isDigit := by
  intro c hc
  rw [(List.mem_replicate.1 hc).2]
  decide

theorem isDigit_append {cs ds : List Char} (hcs : ∀ c ∈ cs, c.isDigit) (hds : ∀ c ∈ ds, c.isDigit) :
    ∀ c ∈ cs ++ ds, c.isDigit :=
  fun c hc => (List.mem_append.1 hc).elim (hcs c) (hds c)

/-- A spelling of digits in which the point stands behind the first `point` of them. -/
structure Spelling.Shows (n : Spelling) (ds : List Char) (point : Int) : Prop where
  sound : n.Sound
  /-- It has a fraction or an exponent, and so is no whole number. -/
  real : n.numeral.fraction ≠ [] ∨ n.numeral.exponent ≠ none
  magnitude : n.numeral.magnitude = ofDigits (digitValues ds) * 10 ^ (point - ds.length)

theorem Spelling.magnitude_eq (n : Spelling) : n.numeral.magnitude =
    ofDigits (digitValues (n.whole ++ n.fraction)) *
      10 ^ (n.numeral.exponent.getD 0 - n.fraction.length) := by
  rw [digitValues_append, ← length_digitValues n.fraction]
  rfl

section

variable {ds : List Char} (negative : Bool) (hds : ∀ c ∈ ds, c.isDigit)
  (hbegins : ∃ c cs, ds = c :: cs ∧ c ≠ '0')
include hds hbegins

/-- A small number: a zero before the point, and as many behind it as the digits have to move. -/
theorem shows_small (k : Nat) :
    Spelling.Shows ⟨negative, ['0'], List.replicate k '0' ++ ds, none⟩ ds (-k) where
  sound := ⟨isDigit_zeros 1, .inl rfl, isDigit_append (isDigit_zeros k) hds, nofun⟩
  real := by
    obtain ⟨c, cs, rfl, -⟩ := hbegins
    exact .inl (by simp [Spelling.numeral, digitValues])
  magnitude := by
    have hzeros : ['0'] ++ (List.replicate k '0' ++ ds) = List.replicate (k + 1) '0' ++ ds := rfl
    rw [Spelling.magnitude_eq, hzeros, ofDigits_zeros_append]
    congr 2
    show (0 : Int) - (List.replicate k '0' ++ ds).length = _
    rw [List.length_append, List.length_replicate]
    omega

/-- A large number: the digits are filled up with zeros to the point. -/
theorem shows_large {k : Nat} (hk : ds.length ≤ k) :
    Spelling.Shows ⟨negative, ds ++ List.replicate (k - ds.length) '0', ['0'], none⟩ ds k where
  sound := by
    obtain ⟨c, cs, rfl, hc⟩ := hbegins
    exact ⟨isDigit_append hds (isDigit_zeros _), .inr ⟨c, _, rfl, hc⟩, isDigit_zeros 1, nofun⟩
  real := .inl (by simp [Spelling.numeral, digitValues])
  magnitude := by
    have hzeros : ds ++ List.replicate (k - ds.length) '0' ++ ['0'] =
        ds ++ List.replicate (k - ds.length + 1) '0' := by
      rw [List.append_assoc, List.replicate_succ']
    rw [Spelling.magnitude_eq, hzeros, ofDigits_append_zeros]
    show ((_ : Nat) : ℚ) * 10 ^ ((0 : Int) - (1 : Nat)) = _
    push_cast
    rw [mul_assoc, ← zpow_natCast, ← zpow_add₀ (by norm_num)]
    congr 2
    omega

/-- A number of the size of its digits: the point stands among them. -/
theorem shows_among {k : Nat} (hk : k < ds.length) (hpos : 0 < k) :
    Spelling.Shows ⟨negative, ds.take k, ds.drop k, none⟩ ds k where
  sound := by
    obtain ⟨c, cs, rfl, hc⟩ := hbegins
    obtain ⟨k, rfl⟩ := Nat.exists_eq_succ_of_ne_zero hpos.ne'
    exact ⟨fun d hd => hds d (List.mem_of_mem_take hd), .inr ⟨c, _, rfl, hc⟩,
      fun d hd => hds d (List.mem_of_mem_drop hd), nofun⟩
  real := .inl (by simpa [Spelling.numeral, digitValues] using hk)
  magnitude := by
    rw [Spelling.magnitude_eq, List.take_append_drop]
    congr 2
    show (0 : Int) - (ds.drop k).length = _
    rw [List.length_drop]
    omega

/-- A number out of these ranges: one digit before the point, and an exponent. -/
theorem shows_exponent (zeros : Nat) (point : Int) :
    Spelling.Shows ⟨negative, ds.take 1, ds.drop 1, some (decide (point - 1 < 0),
      List.replicate zeros '0' ++ Nat.toDigits 10 (point - 1).natAbs)⟩ ds point where
  sound := by
    obtain ⟨c, cs, rfl, hc⟩ := hbegins
    refine ⟨fun d hd => hds d (List.mem_of_mem_take hd), .inr ⟨c, _, rfl, hc⟩,
      fun d hd => hds d (List.mem_of_mem_drop hd), fun _ digits h => ?_⟩
    cases h
    exact ⟨by simp, isDigit_append (isDigit_zeros _) (isDigit_toDigits _)⟩
  real := .inr nofun
  magnitude := by
    have hexponent : Spelling.exponentValue (decide (point - 1 < 0))
        (List.replicate zeros '0' ++ Nat.toDigits 10 (point - 1).natAbs) = point - 1 := by
      rw [Spelling.exponentValue, ofDigits_zeros_append, ofDigits_toDigits]
      exact signed_natAbs _
    obtain ⟨c, cs, rfl, -⟩ := hbegins
    rw [Spelling.magnitude_eq, List.take_append_drop]
    congr 2
    show Spelling.exponentValue _ _ - ((c :: cs).drop 1).length = _
    rw [hexponent, List.length_drop, List.length_cons]
    omega

/-- **However digits are laid out, the point comes to stand where it should.** -/
theorem exists_spelling (layout : Binary64.Layout) (point : Int) :
    ∃ n : Spelling, n.Shows ds point ∧ n.negative = negative ∧
      Spelling.sign negative ++ layout.arrange ds point = n.chars := by
  have hfraction : ∀ fraction : List Char, fraction ≠ [] →
      '.' :: fraction = Spelling.fractionChars fraction ++ Spelling.exponentChars none :=
    fun fraction hne => by rw [Spelling.fractionChars, if_neg hne]; exact (List.append_nil _).symm
  have hlength : 0 < ds.length := by
    obtain ⟨c, cs, rfl, -⟩ := hbegins
    exact Nat.succ_pos _
  -- the layouts in the order in which they are tried
  unfold Binary64.Layout.arrange
  split
  · split
    · obtain ⟨k, rfl⟩ : ∃ k : Nat, point = -k := ⟨(-point).toNat, by omega⟩
      refine ⟨_, shows_small negative hds hbegins k, rfl, ?_⟩
      have hne : List.replicate k '0' ++ ds ≠ [] :=
        List.append_ne_nil_of_right_ne_nil _ (List.ne_nil_of_length_pos hlength)
      rw [neg_neg, Int.toNat_natCast, hfraction _ hne]
      rfl
    · obtain ⟨k, rfl⟩ : ∃ k : Nat, point = k := ⟨point.toNat, by omega⟩
      rw [Int.toNat_natCast]
      dsimp only
      split
      · rename_i hk
        refine ⟨_, shows_large negative hds hbegins hk, rfl, ?_⟩
        rfl
      · rename_i hk
        refine ⟨_, shows_among negative hds hbegins (Nat.lt_of_not_le hk) (by omega), rfl, ?_⟩
        have hne : ds.drop k ≠ [] := by
          rw [Ne, List.drop_eq_nil_iff]
          exact hk
        rw [hfraction _ hne]
        rfl
  · refine ⟨_, shows_exponent negative hds hbegins (layout.exponentDigits -
      (Nat.toDigits 10 (point - 1).natAbs).length) point, rfl, ?_⟩
    have hdrop : (if ds.length ≤ 1 then [] else '.' :: ds.drop 1) =
        Spelling.fractionChars (ds.drop 1) := by
      rw [Spelling.fractionChars]
      by_cases hone : ds.length ≤ 1
      · rw [if_pos hone, if_pos (List.drop_eq_nil_of_le hone)]
      · rw [if_neg hone, if_neg (by rwa [List.drop_eq_nil_iff])]
    rw [hdrop, Spelling.chars]
    simp only [Spelling.exponentChars, decide_eq_true_eq, List.append_assoc]

end

/-! ## Floating-point numbers -/

theorem eq_withoutFinalZeros_append (ds : List Char) :
    ∃ k, ds = Binary64.withoutFinalZeros ds ++ List.replicate k '0' := by
  have hzeros : ds.reverse.takeWhile (· = '0') =
      List.replicate (ds.reverse.takeWhile (· = '0')).length '0' :=
    List.eq_replicate_of_mem fun c hc => of_decide_eq_true (List.all_eq_true.1 List.all_takeWhile c hc)
  refine ⟨(ds.reverse.takeWhile (· = '0')).length, ?_⟩
  have hsplit := congrArg List.reverse
    (List.takeWhile_append_dropWhile (p := (· = '0')) (l := ds.reverse))
  rw [List.reverse_append, List.reverse_reverse, hzeros, List.reverse_replicate] at hsplit
  exact hsplit.symm

/-- The shortest digits without the zeros at their end are worth as much, and begin as they do. -/
theorem withoutFinalZeros_toDigits {k : Nat} (hk : 0 < k) (g : Int) :
    let ds := Binary64.withoutFinalZeros (Nat.toDigits 10 k)
    (∀ c ∈ ds, c.isDigit) ∧ (∃ c cs, ds = c :: cs ∧ c ≠ '0') ∧
      (ofDigits (digitValues ds) : ℚ) * 10 ^ ((Nat.toDigits 10 k).length + g - ds.length) =
        k * 10 ^ g := by
  intro ds
  obtain ⟨zeros, hzeros⟩ := eq_withoutFinalZeros_append (Nat.toDigits 10 k)
  have hvalue : k = ofDigits (digitValues ds) * 10 ^ zeros := by
    rw [← ofDigits_append_zeros, ← hzeros, ofDigits_toDigits]
  have hlength : (Nat.toDigits 10 k).length = ds.length + zeros := by
    rw [hzeros, List.length_append, List.length_replicate]
  refine ⟨fun c hc => isDigit_toDigits k c (hzeros ▸ List.mem_append_left _ hc), ?_, ?_⟩
  · obtain ⟨c, cs, hcs, hc⟩ := toDigits_begins hk
    cases hds : ds with
    | nil =>
        -- only zero is all zeros
        rw [hds] at hvalue
        exact absurd (hvalue.trans (Nat.zero_mul _)) hk.ne'
    | cons d ds' =>
        refine ⟨d, ds', rfl, ?_⟩
        rw [hzeros, show Binary64.withoutFinalZeros (Nat.toDigits 10 k) = d :: ds' from hds] at hcs
        cases hcs
        exact hc
  · have hcast : (k : ℚ) = ofDigits (digitValues ds) * 10 ^ zeros := by exact_mod_cast hvalue
    rw [hcast, hlength, mul_assoc, ← zpow_natCast, ← zpow_add₀ (by norm_num)]
    congr 2
    push_cast
    ring

/-- **A finite number is spelled so that it is read back.** -/
theorem exists_spelling_write (layout : Binary64.Layout) (negative : Bool) {m : Nat} {e : Int}
    (h : Binary64.Fitting m e) :
    ∃ n : Spelling, n.Sound ∧ layout.write negative m e = n.chars ∧
      n.numeral.value = .ok (.real (.finite negative m e)) := by
  rw [Binary64.Layout.write]
  dsimp only
  split
  · -- zero has no shortest digits, and a spelling of its own
    rename_i hzero
    subst hzero
    have he : e = Binary64.minExponent := h.full.resolve_left (by decide)
    refine ⟨⟨negative, ['0'], ['0'], none⟩, ⟨isDigit_zeros 1, .inl rfl, isDigit_zeros 1, nofun⟩,
      rfl, ?_⟩
    rw [he]
    rfl
  · rename_i hne
    have hm : 0 < m := Nat.pos_of_ne_zero hne
    obtain ⟨hk, hcontains⟩ := Binary64.shortestDigits_spec h hm
    generalize (Binary64.shortestDigits m e).1 = k at *
    generalize (Binary64.shortestDigits m e).2 = g at *
    obtain ⟨hds, hbegins, hvalue⟩ := withoutFinalZeros_toDigits hk g
    obtain ⟨n, hshows, rfl, hchars⟩ := exists_spelling negative hds hbegins layout
      ((Nat.toDigits 10 k).length + g)
    -- so what the numeral is worth lies in the neighbourhood of the number
    rw [← hvalue, ← hshows.magnitude] at hcontains
    refine ⟨n, hshows.sound, hchars, Numeral.value_of_contains hshows.real h hm ?_ hcontains⟩
    rw [hshows.magnitude, hvalue]
    have hkq : (0 : ℚ) < k := by exact_mod_cast hk
    exact mul_pos hkq (Binary64.ten_zpow_pos g)

/-! ## Values without parts -/

/-- What a value without parts may begin with. -/
abbrev OpensAtom (c : CodePoint) : Prop :=
  isSpace c = false ∧ c.val ≠ 0x22 ∧ c.val ≠ 0x5B ∧ c.val ≠ 0x5D ∧ c.val ≠ 0x7B

/-- **A value without parts is read back if its text is.** -/
theorem readsBack_of_atom {v : Value} {c : CodePoint} {t : Text} (room : Nat)
    (hwrite : ∀ depth, Style.compact.write depth v = c :: t) (hc : OpensAtom c)
    (hread : ∀ rest, Delimited rest → readAtom (c :: t ++ rest) = .ok (v, rest)) :
    ReadsBack room v where
  opens depth := ⟨c, t, hwrite depth, hc.1, hc.2.2.2.1⟩
  reads depth stack rest _ hrest := by
    obtain ⟨hspace, hquote, hbracket, -, hbrace⟩ := hc
    refine readFrom_of_turn ?_
    rw [hwrite, List.cons_append, turn, readValue, skipSpace_cons hspace]
    dsimp only
    rw [if_neg hquote, if_neg (not_or.2 ⟨hbracket, hbrace⟩), ← List.cons_append, hread rest hrest]

theorem readAtom_constant {name : String} {v : Value} (h : (name, v) ∈ constants) (rest : Text) :
    readAtom (chars name ++ rest) = .ok (v, rest) := by
  have hconstant : readConstant? (chars name ++ rest) = some (v, rest) := by
    simp only [constants, List.mem_cons, List.not_mem_nil, or_false] at h
    rcases h with h | h | h | h | h | h
    all_goals
      cases h
      rfl
  rw [readAtom, hconstant]

theorem readsBack_constant (room : Nat) (name : String) {v : Value} (h : (name, v) ∈ constants)
    (hwrite : ∀ depth, Style.compact.write depth v = chars name) : ReadsBack room v := by
  have hopens : ∃ c t, chars name = c :: t ∧ OpensAtom c := by
    simp only [constants, List.mem_cons, List.not_mem_nil, or_false] at h
    rcases h with h | h | h | h | h | h
    all_goals
      cases h
      exact ⟨_, _, rfl, by decide⟩
  obtain ⟨c, t, hchars, hc⟩ := hopens
  refine readsBack_of_atom room (fun depth => (hwrite depth).trans hchars) hc fun rest _ => ?_
  rw [← hchars]
  exact readAtom_constant h rest

/-- **A number is no constant**, although one of these begins with a minus too: behind its sign it has
a digit. -/
theorem readConstant?_chars {n : Spelling} (h : n.Sound) (rest : Text) :
    readConstant? (n.chars.map CodePoint.ofChar ++ rest) = none := by
  have hdigit :
      (readSign false (n.chars.map CodePoint.ofChar ++ rest)).2.head?.any isDigit = true := by
    rw [Spelling.chars, List.map_append, List.map_append, List.append_assoc, List.append_assoc,
      readSign_chars h]
    obtain ⟨d, ds, hwhole, hd⟩ := h.exists_digit
    rw [hwhole]
    exact (isDigit_ofChar d).trans hd
  rw [readConstant?, List.find?_eq_none.2, Option.map_none]
  -- a constant in front would have no digit behind its sign
  rintro ⟨name, v⟩ hmem hprefix
  obtain ⟨left, hleft⟩ := List.isPrefixOf_iff_prefix.1 hprefix
  rw [← hleft] at hdigit
  refine Bool.false_ne_true (Eq.trans ?_ hdigit)
  simp only [constants, List.mem_cons, List.not_mem_nil, or_false] at hmem
  rcases hmem with h | h | h | h | h | h
  all_goals
    cases h
    rfl

theorem opensAtom_of_isDigit {c : CodePoint} (h : isDigit c = true) : OpensAtom c := by
  rw [isDigit, Bool.and_eq_true, decide_eq_true_eq, decide_eq_true_eq] at h
  refine ⟨?_, by omega, by omega, by omega, by omega⟩
  have hne : ∀ k : Nat, k < 0x30 → (c.val == k) = false := fun k hk => beq_eq_false_iff_ne.2 (by omega)
  rw [isSpace, hne 0x20 (by decide), hne 0x09 (by decide), hne 0x0A (by decide), hne 0x0D (by decide)]
  rfl

/-- A number begins with its sign or a digit. -/
theorem Spelling.Sound.opens {n : Spelling} (h : n.Sound) :
    ∃ c t, n.chars.map CodePoint.ofChar = c :: t ∧ (c = CodePoint.ofChar '-' ∨ isDigit c = true) := by
  obtain ⟨d, ds, hwhole, hd⟩ := h.exists_digit
  rw [Spelling.chars, hwhole]
  cases n.negative with
  | true => exact ⟨CodePoint.ofChar '-', _, rfl, .inl rfl⟩
  | false => exact ⟨CodePoint.ofChar d, _, rfl, .inr ((isDigit_ofChar d).trans hd)⟩

theorem opensAtom_of_number {c : CodePoint} (h : c = CodePoint.ofChar '-' ∨ isDigit c = true) :
    OpensAtom c := by
  rcases h with rfl | hdigit
  · decide
  · exact opensAtom_of_isDigit hdigit

/-- **A number is read back from its spelling.** -/
theorem readsBack_spelling (room : Nat) {n : Spelling} {v : Value} (h : n.Sound)
    (hwrite : ∀ depth, Style.compact.write depth v = n.chars.map CodePoint.ofChar)
    (hvalue : n.numeral.value = .ok v) : ReadsBack room v := by
  have hread : ∀ rest, Delimited rest →
      readAtom (n.chars.map CodePoint.ofChar ++ rest) = .ok (v, rest) := by
    intro rest hrest
    rw [readAtom, readConstant?_chars h]
    dsimp only
    rw [readNumeral?_chars h hrest.endsNumber]
    dsimp only
    rw [hvalue]
  obtain ⟨c, t, hchars, hc⟩ := h.opens
  rw [hchars] at hread hwrite
  exact readsBack_of_atom room hwrite (opensAtom_of_number hc) hread

theorem readsBack_integer (room : Nat) {n : Int} (h : n.natAbs < 10 ^ digitLimit) :
    ReadsBack room (.integer n) := by
  refine readsBack_spelling room (integerSpelling_sound n) (fun depth => ?_) (value_integerSpelling h)
  rw [Style.write]
  exact writeInteger_eq n

/-- **Floating-point numbers are read back**, those that are no numbers by their names. -/
theorem readsBack_real (room : Nat) {x : Binary64} (h : x.Canonical) : ReadsBack room (.real x) := by
  have hwrite : ∀ depth, Style.compact.write depth (.real x) = writeReal x := fun depth => by
    rw [Style.write]
  cases x with
  | nan => exact readsBack_constant room "NaN" (by simp [constants]) hwrite
  | infinite negative =>
      cases negative with
      | true => exact readsBack_constant room "-Infinity" (by simp [constants]) hwrite
      | false => exact readsBack_constant room "Infinity" (by simp [constants]) hwrite
  | finite negative m e =>
      obtain ⟨n, hn, hchars, hvalue⟩ := exists_spelling_write {} negative h
      refine readsBack_spelling room hn (fun depth => (hwrite depth).trans ?_) hvalue
      rw [writeReal, hchars]

end ImageTransfer.Json
