import ImageTransfer.Proofs.Decimal.Digits
import ImageTransfer.Proofs.Text.Split
import ImageTransfer.Proofs.Time.Range
import Mathlib.Algebra.BigOperators.Intervals
import Mathlib.Algebra.Order.Floor.Ring
import Mathlib.Data.Rat.Floor

/-!
# Timestamps of RFC 3339

An `InternetTime` is a timestamp as RFC 3339 writes it: a date of the calendar, a time of day with a
fraction of any length, and `Z` or an offset. Its instant is counted in days of the calendar, one year
and one month after the other; cut off at the microseconds it is that of a timestamp with the fields
as they are written (`epochMicroseconds_timestamp`).

A text is changed twice before it is read, beside the blanks that are trimmed off. Neither change does
harm to a timestamp: a `Z` can only stand at its end, and a point only before its fraction
(`normalized_text`).
-/

namespace ImageTransfer

open Decimal

/-! ## Counting days -/

namespace Calendar

/-- How many days a year has. -/
def daysInYear (year : Nat) : Nat := ∑ m ∈ Finset.range 12, daysInMonth year (m + 1)

/-- How many days of the calendar come before a date, counted year by year and month by month. -/
def daysBefore (year month day : Nat) : Nat :=
  ∑ y ∈ Finset.range (year - 1), daysInYear (y + 1) +
    ∑ m ∈ Finset.range (month - 1), daysInMonth year (m + 1) + (day - 1)

theorem daysInYear_eq (year : Nat) : daysInYear year = if isLeap year then 366 else 365 := by
  simp only [daysInYear, Finset.sum_range_succ, Finset.sum_range_zero, daysInMonth]
  split <;> rfl

/-- The next year begins a year later: leap days come with every fourth year, but not every hundredth
unless it is a four hundredth. -/
theorem daysBeforeYear_succ (n : Nat) :
    daysBeforeYear (n + 1 + 1) = daysBeforeYear (n + 1) + daysInYear (n + 1) := by
  have hleap : isLeap (n + 1) = true ↔ 4 ∣ n + 1 ∧ (¬ 100 ∣ n + 1 ∨ 400 ∣ n + 1) := by
    simp [isLeap, Nat.dvd_iff_mod_eq_zero]
  have hfourth : 100 ∣ n + 1 → 4 ∣ n + 1 := Nat.dvd_trans (by decide)
  have hhundredth : 400 ∣ n + 1 → 100 ∣ n + 1 := Nat.dvd_trans (by decide)
  have hle : n / 100 ≤ n := Nat.div_le_self _ _
  have hnext : daysBeforeYear (n + 1 + 1) =
      (n + 1) * 365 + (n + 1) / 4 - (n + 1) / 100 + (n + 1) / 400 := rfl
  have hthis : daysBeforeYear (n + 1) = n * 365 + n / 4 - n / 100 + n / 400 := rfl
  rw [daysInYear_eq, hnext, hthis, Nat.succ_div, Nat.succ_div, Nat.succ_div]
  by_cases h₄ : 4 ∣ n + 1
  · by_cases h₁₀₀ : 100 ∣ n + 1
    · by_cases h₄₀₀ : 400 ∣ n + 1
      · rw [if_pos h₄, if_pos h₁₀₀, if_pos h₄₀₀, if_pos (hleap.2 ⟨h₄, .inr h₄₀₀⟩)]
        omega
      · rw [if_pos h₄, if_pos h₁₀₀, if_neg h₄₀₀,
          if_neg fun h => (hleap.1 h).2.elim (absurd h₁₀₀) h₄₀₀]
        omega
    · rw [if_pos h₄, if_neg h₁₀₀, if_neg (mt hhundredth h₁₀₀), if_pos (hleap.2 ⟨h₄, .inl h₁₀₀⟩)]
      omega
  · have h₁₀₀ := mt hfourth h₄
    rw [if_neg h₄, if_neg h₁₀₀, if_neg (mt hhundredth h₁₀₀), if_neg fun h => h₄ (hleap.1 h).1]
    omega

theorem daysBeforeYear_eq_sum (n : Nat) :
    daysBeforeYear (n + 1) = ∑ y ∈ Finset.range n, daysInYear (y + 1) := by
  induction n with
  | zero => rfl
  | succ n ih => rw [Finset.sum_range_succ, ← ih, daysBeforeYear_succ]

theorem daysBeforeMonth_eq_sum (year month : Nat) :
    daysBeforeMonth year month = ∑ m ∈ Finset.range (month - 1), daysInMonth year (m + 1) := by
  rw [daysBeforeMonth]
  induction month - 1 with
  | zero => rfl
  | succ n ih =>
      rw [List.range_succ, List.foldl_append, ih, Finset.sum_range_succ]
      rfl

/-- **The number of a day is how many days there are up to it.** -/
theorem dayNumber_eq {year day : Nat} (hyear : 1 ≤ year) (month : Nat) (hday : 1 ≤ day) :
    dayNumber year month day = daysBefore year month day + 1 := by
  obtain ⟨n, rfl⟩ : ∃ n, year = n + 1 := ⟨year - 1, by omega⟩
  have hyears := daysBeforeYear_eq_sum n
  have hmonths := daysBeforeMonth_eq_sum (n + 1) month
  rw [dayNumber, daysBefore, hyears, hmonths, Nat.add_sub_cancel]
  omega

end Calendar

/-! ## What a timestamp is -/

/-- `Z`, or an offset from universal time in hours and minutes. -/
inductive Zone
  | zulu
  | numeric (behind : Bool) (hour : Fin 24) (minute : Fin 60)

/-- A timestamp of RFC 3339. -/
structure InternetTime where
  year : Nat
  month : Nat
  day : Nat
  hour : Fin 24
  minute : Fin 60
  second : Fin 60
  /-- The digits of the fraction; if there are none, there is no fraction. -/
  fraction : List (Fin 10)
  zone : Zone
  year_valid : 1 ≤ year ∧ year ≤ 9999
  month_valid : 1 ≤ month ∧ month ≤ 12
  day_valid : 1 ≤ day ∧ day ≤ Calendar.daysInMonth year month

/-- Digits as characters. -/
def digitChars (ds : List Nat) : List Char := ds.map Nat.digitChar

/-- The digits of a number below a hundred. -/
def twoDigits (n : Nat) : List Nat := [n / 10, n % 10]

/-- The digits of a year. -/
def fourDigits (n : Nat) : List Nat := [n / 1000, n / 100 % 10, n / 10 % 10, n % 10]

namespace Zone

/-- An offset as it is written. -/
def offsetChars (behind : Bool) (hour minute : Nat) : List Char :=
  (if behind then '-' else '+') :: (digitChars (twoDigits hour) ++
    ':' :: digitChars (twoDigits minute))

/-- A zone as it is written. -/
def chars : Zone → List Char
  | zulu => ['Z']
  | numeric behind hour minute => offsetChars behind hour minute

/-- How far the clock is ahead of universal time, in seconds. -/
def seconds : Zone → Int
  | zulu => 0
  | numeric behind hour minute =>
    if behind then -(hour * 3600 + minute * 60) else hour * 3600 + minute * 60

end Zone

namespace InternetTime

/-- The date as it is written. -/
def dateChars (r : InternetTime) : List Char :=
  digitChars (fourDigits r.year) ++ '-' :: (digitChars (twoDigits r.month) ++
    '-' :: digitChars (twoDigits r.day))

/-- The time of day as it is written, without its fraction. -/
def timeChars (r : InternetTime) : List Char :=
  digitChars (twoDigits r.hour) ++ ':' :: (digitChars (twoDigits r.minute) ++
    ':' :: digitChars (twoDigits r.second))

/-- The date and the time of day. -/
def clockChars (r : InternetTime) : List Char := r.dateChars ++ 'T' :: r.timeChars

/-- The digits of the fraction as numbers. -/
def fractionDigits (r : InternetTime) : List Nat := r.fraction.map Fin.val

/-- The fraction as it is written. -/
def fractionChars (r : InternetTime) : List Char :=
  if r.fraction = [] then [] else '.' :: digitChars r.fractionDigits

/-- A timestamp as it is written. -/
def text (r : InternetTime) : Text :=
  (r.clockChars ++ (r.fractionChars ++ r.zone.chars)).map CodePoint.ofChar

/-- The instant, in seconds since 1970. -/
def instant (r : InternetTime) : ℚ :=
  ((Calendar.daysBefore r.year r.month r.day : ℚ) - Calendar.daysBefore 1970 1 1) * 86400 +
    r.hour * 3600 + r.minute * 60 + r.second +
    ofDigits r.fractionDigits / 10 ^ r.fraction.length - r.zone.seconds

/-- The whole microseconds of the fraction. -/
def microsecond (r : InternetTime) : Nat :=
  ofDigits r.fractionDigits * 1000000 / 10 ^ r.fraction.length

/-- The fields as they are written, and the fraction cut off after the microseconds. -/
def timestamp (r : InternetTime) : Timestamp :=
  ⟨r.year, r.month, r.day, r.hour, r.minute, r.second, r.microsecond,
    r.zone.seconds * Timestamp.perSecond⟩

/-- **The fraction alone is cut off**: the instant is the last microsecond that is not past it. -/
theorem epochMicroseconds_timestamp (r : InternetTime) :
    r.timestamp.epochMicroseconds = ⌊r.instant * 1000000⌋ := by
  have hdays := Calendar.dayNumber_eq r.year_valid.1 r.month r.day_valid.1
  have hepoch : Calendar.epochDay = Calendar.daysBefore 1970 1 1 + 1 :=
    Calendar.dayNumber_eq (by decide) 1 (by decide)
  -- all but the fraction is a whole number of microseconds
  obtain ⟨whole, hwhole⟩ : ∃ whole : Int, whole =
      ((Calendar.daysBefore r.year r.month r.day : Int) - Calendar.daysBefore 1970 1 1) * 86400 +
        r.hour * 3600 + r.minute * 60 + r.second - r.zone.seconds := ⟨_, rfl⟩
  have hinstant : r.instant * 1000000 = (whole * 1000000 : Int) +
      ((ofDigits r.fractionDigits * 1000000 : Nat) : ℚ) / ((10 ^ r.fraction.length : Nat) : ℚ) := by
    rw [instant, hwhole]
    push_cast
    ring
  rw [hinstant, Int.floor_intCast_add, Rat.floor_natCast_div_natCast, hwhole]
  simp only [Timestamp.epochMicroseconds, timestamp, hdays, hepoch, microsecond,
    Timestamp.perSecond]
  push_cast
  ring

end InternetTime

/-! ## Characters of a timestamp -/

theorem digitChar_cases {d : Nat} (h : d < 10) :
    (Nat.digitChar d).isDigit = true ∧ (Nat.digitChar d).toNat = 0x30 + d := by
  have hall : ∀ d : Fin 10, (Nat.digitChar d).isDigit = true ∧
      (Nat.digitChar d).toNat = 0x30 + d.val := by decide
  exact hall ⟨d, h⟩

theorem isDigit_of_mem_digitChars {ds : List Nat} (h : ∀ d ∈ ds, d < 10) :
    ∀ c ∈ digitChars ds, c.isDigit = true := by
  intro c hc
  obtain ⟨d, hd, rfl⟩ := List.mem_map.1 hc
  exact (digitChar_cases (h d hd)).1

theorem twoDigits_lt {n : Nat} (h : n < 100) : ∀ d ∈ twoDigits n, d < 10 := by
  intro d hd
  simp only [twoDigits, List.mem_cons, List.not_mem_nil, or_false] at hd
  omega

theorem fourDigits_lt {n : Nat} (h : n < 10000) : ∀ d ∈ fourDigits n, d < 10 := by
  intro d hd
  simp only [fourDigits, List.mem_cons, List.not_mem_nil, or_false] at hd
  omega

/-- A character of a date, a time of day or an offset. -/
def IsMark (c : Char) : Prop := c.isDigit = true ∨ c ∈ ['-', 'T', ':', '+']

instance (c : Char) : Decidable (IsMark c) := inferInstanceAs (Decidable (_ ∨ _))

theorem IsMark.ne {c d : Char} (h : IsMark c) (hd : ¬ IsMark d) : c ≠ d := by
  rintro rfl
  exact hd h

/-- A visible character of ASCII. -/
def IsVisible (c : Char) : Prop := 0x21 ≤ c.toNat ∧ c.toNat < 0x7F

theorem IsMark.isVisible {c : Char} (h : IsMark c) : IsVisible c := by
  rcases h with hdigit | hmark
  · rw [Char.isDigit, Bool.and_eq_true, decide_eq_true_eq, decide_eq_true_eq] at hdigit
    have hlow : 0x30 ≤ c.toNat := hdigit.1
    have hhigh : c.toNat ≤ 0x39 := hdigit.2
    exact ⟨by omega, by omega⟩
  · simp only [List.mem_cons, List.not_mem_nil, or_false] at hmark
    rcases hmark with rfl | rfl | rfl | rfl <;> exact ⟨by decide, by decide⟩

theorem IsVisible.not_isBlank {c : Char} (h : IsVisible c) :
    Text.isBlank (CodePoint.ofChar c).val = false := by
  have hval : (CodePoint.ofChar c).val = c.toNat := rfl
  obtain ⟨hlow, hhigh⟩ := h
  simp only [Text.isBlank, hval, Bool.or_eq_false_iff, Bool.and_eq_false_iff, decide_eq_false_iff_not,
    beq_eq_false_iff_ne]
  omega

theorem isMark_digitChars {ds : List Nat} (h : ∀ d ∈ ds, d < 10) : ∀ c ∈ digitChars ds, IsMark c :=
  fun c hc => .inl (isDigit_of_mem_digitChars h c hc)

theorem isMark_offsetChars (behind : Bool) (hour : Fin 24) (minute : Fin 60) :
    ∀ c ∈ Zone.offsetChars behind hour minute, IsMark c := by
  intro c hc
  simp only [Zone.offsetChars, List.mem_append, List.mem_cons] at hc
  rcases hc with rfl | hc | rfl | hc
  · cases behind <;> exact .inr (by decide)
  · exact isMark_digitChars (twoDigits_lt (by omega)) c hc
  · exact .inr (by decide)
  · exact isMark_digitChars (twoDigits_lt (by omega)) c hc

namespace InternetTime

theorem day_le (r : InternetTime) : r.day ≤ 31 :=
  Nat.le_trans r.day_valid.2 (Calendar.daysInMonth_le _ _)

theorem fractionDigits_lt (r : InternetTime) : ∀ d ∈ r.fractionDigits, d < 10 := by
  intro d hd
  obtain ⟨e, -, rfl⟩ := List.mem_map.1 hd
  exact e.isLt

theorem isMark_clockChars (r : InternetTime) : ∀ c ∈ r.clockChars, IsMark c := by
  have hyear := r.year_valid
  have hmonth := r.month_valid
  have hday := r.day_le
  intro c hc
  simp only [clockChars, dateChars, timeChars, List.mem_append, List.mem_cons] at hc
  rcases hc with (hc | rfl | hc | rfl | hc) | rfl | hc | rfl | hc | rfl | hc
  · exact isMark_digitChars (fourDigits_lt (by omega)) c hc
  all_goals first
    | exact .inr (by decide)
    | exact isMark_digitChars (twoDigits_lt (by omega)) c hc

/-- The zone after the first change. -/
def plainZone (r : InternetTime) : List Char :=
  match r.zone with
  | .zulu => Zone.offsetChars false 0 0
  | .numeric behind hour minute => Zone.offsetChars behind hour minute

/-- The digits of the fraction, if there is one, after the second change. -/
def sixDigits (r : InternetTime) : List Nat := (r.fractionDigits ++ List.replicate 6 0).take 6

/-- The fraction after the second change. -/
def plainFraction (r : InternetTime) : List Char :=
  if r.fraction = [] then [] else '.' :: digitChars r.sixDigits

theorem isMark_plainZone (r : InternetTime) : ∀ c ∈ r.plainZone, IsMark c := by
  unfold plainZone
  cases r.zone with
  | zulu => exact isMark_offsetChars false 0 0
  | numeric behind hour minute => exact isMark_offsetChars behind hour minute

theorem length_sixDigits (r : InternetTime) : r.sixDigits.length = 6 := by
  simp [sixDigits]

theorem sixDigits_lt (r : InternetTime) : ∀ d ∈ r.sixDigits, d < 10 := by
  intro d hd
  rcases List.mem_append.1 (List.mem_of_mem_take hd) with hd | hd
  · exact r.fractionDigits_lt d hd
  · rw [List.eq_of_mem_replicate hd]
    decide

/-- **Six digits are the whole microseconds.** -/
theorem ofDigits_sixDigits (r : InternetTime) : ofDigits r.sixDigits = r.microsecond := by
  have hlength : r.fractionDigits.length = r.fraction.length := List.length_map _
  have hdigits : r.fractionDigits ++ List.replicate 6 0 =
      r.sixDigits ++ (r.fractionDigits ++ List.replicate 6 0).drop 6 := (List.take_append_drop _ _).symm
  have hrest : ofDigits ((r.fractionDigits ++ List.replicate 6 0).drop 6) <
      10 ^ r.fraction.length := by
    have hlt : ∀ d ∈ (r.fractionDigits ++ List.replicate 6 0).drop 6, d < 10 := by
      intro d hd
      rcases List.mem_append.1 (List.mem_of_mem_drop hd) with hd | hd
      · exact r.fractionDigits_lt d hd
      · rw [List.eq_of_mem_replicate hd]
        decide
    have := ofDigits_lt hlt
    rwa [List.length_drop, List.length_append, List.length_replicate, hlength,
      Nat.add_sub_cancel] at this
  have hvalue := congrArg ofDigits hdigits
  rw [ofDigits_append, ofDigits_append, List.length_drop, List.length_append, hlength,
    List.length_replicate, ofDigits_replicate_zero, Nat.add_sub_cancel, Nat.add_zero] at hvalue
  rw [microsecond, show 1000000 = 10 ^ 6 from rfl, hvalue, Nat.add_comm,
    Nat.add_mul_div_right _ _ (Nat.pow_pos (by decide)), Nat.div_eq_of_lt hrest, Nat.zero_add]

end InternetTime

/-! ## The text is changed before it is read -/

namespace Timestamp

theorem zuluReplaced_append (s t : Text) :
    zuluReplaced (s ++ t) = zuluReplaced s ++ zuluReplaced t := List.flatMap_append

theorem zuluReplaced_of_not_mem {cs : List Char} (h : 'Z' ∉ cs) :
    zuluReplaced (cs.map CodePoint.ofChar) = cs.map CodePoint.ofChar := by
  induction cs with
  | nil => rfl
  | cons c cs ih =>
      rw [List.mem_cons, not_or] at h
      have hc : ¬ (CodePoint.ofChar c).val = 0x5A := fun heq =>
        h.1 (CodePoint.ofChar_inj (Fin.ext heq)).symm
      rw [List.map_cons, zuluReplaced, List.flatMap_cons, if_neg hc]
      exact congrArg _ (ih h.2)

/-- Nothing is changed before the first point. -/
theorem fractionAdjusted_append {cs : List Char} (h : '.' ∉ cs) (t : Text) :
    fractionAdjusted (cs.map CodePoint.ofChar ++ t) =
      cs.map CodePoint.ofChar ++ fractionAdjusted t := by
  induction cs with
  | nil => rfl
  | cons c cs ih =>
      rw [List.mem_cons, not_or] at h
      have hc : ¬ (CodePoint.ofChar c).val = 0x2E := fun heq =>
        h.1 (CodePoint.ofChar_inj (Fin.ext heq)).symm
      rw [List.map_cons, List.cons_append, fractionAdjusted, decide_eq_false hc, Bool.false_and,
        if_neg (by decide), ih h.2, List.cons_append]

/-- **A fraction is brought to six digits.** -/
theorem fractionAdjusted_fraction {ds : List Nat} (hne : ds ≠ []) (hds : ∀ d ∈ ds, d < 10) {t : Text}
    (ht : ∀ c, t.head? = some c → Text.digitValue? c.val = none) :
    fractionAdjusted (('.' :: digitChars ds).map CodePoint.ofChar ++ t) =
      ('.' :: digitChars ((ds ++ List.replicate 6 0).take 6)).map CodePoint.ofChar ++ t := by
  have hvalue : ∀ c ∈ (digitChars ds).map CodePoint.ofChar,
      (Text.digitValue? c.val).isSome = true := by
    intro c hc
    obtain ⟨e, he, rfl⟩ := List.mem_map.1 hc
    obtain ⟨d, hd, rfl⟩ := List.mem_map.1 he
    have hall : ∀ d : Fin 10,
        (Text.digitValue? (CodePoint.ofChar (Nat.digitChar d)).val).isSome = true := by decide
    exact hall ⟨d, hds d hd⟩
  have hrest : ∀ c, t.head? = some c → (Text.digitValue? c.val).isSome = false := by
    intro c hc
    rw [ht c hc]
    rfl
  have hdrop := Text.dropWhile_eq_self.2 hrest
  have htake : t.takeWhile (fun c => (Text.digitValue? c.val).isSome) = [] := by
    have := List.takeWhile_append_dropWhile (p := fun c : CodePoint => (Text.digitValue? c.val).isSome)
      (l := t)
    rw [hdrop] at this
    exact List.append_left_eq_self.1 this
  have hfirst : ((((digitChars ds).map CodePoint.ofChar ++ t).head?.map fun c =>
      (Text.digitValue? c.val).isSome).getD false) = true := by
    obtain ⟨d, ds', rfl⟩ := List.exists_cons_of_ne_nil hne
    exact hvalue _ List.mem_cons_self
  have hsix : sixDigits ((digitChars ds).map CodePoint.ofChar) =
      (digitChars ((ds ++ List.replicate 6 0).take 6)).map CodePoint.ofChar := by
    simp only [sixDigits, digitChars, List.map_take, List.map_append]
    rfl
  rw [List.map_cons, List.cons_append, fractionAdjusted, hfirst, if_pos (by decide), List.takeWhile_append_of_pos hvalue, htake, List.append_nil,
    List.dropWhile_append_of_pos hvalue, hdrop, hsix]
  rfl

/-- A fraction is visible, whatever digits are in it. -/
theorem isVisible_fraction (r : InternetTime) {ds : List Nat} (hds : ∀ d ∈ ds, d < 10) :
    ∀ c ∈ (if r.fraction = [] then [] else '.' :: digitChars ds), IsVisible c := by
  intro c hc
  split at hc
  · exact absurd hc List.not_mem_nil
  · rcases List.mem_cons.1 hc with rfl | hc
    · exact ⟨by decide, by decide⟩
    · exact (isMark_digitChars hds c hc).isVisible

theorem isVisible_zone (r : InternetTime) : ∀ c ∈ r.zone.chars, IsVisible c := by
  intro c hc
  cases hzone : r.zone with
  | zulu =>
      rw [hzone, Zone.chars, List.mem_singleton] at hc
      rw [hc]
      exact ⟨by decide, by decide⟩
  | numeric behind hour minute =>
      rw [hzone] at hc
      exact (isMark_offsetChars behind hour minute c hc).isVisible

/-- **Blanks around a timestamp are trimmed off**, and no more. -/
theorem trimBlank_text (r : InternetTime) {before after : Text}
    (hbefore : ∀ c ∈ before, Text.isBlank c.val = true)
    (hafter : ∀ c ∈ after, Text.isBlank c.val = true) :
    Text.trimBlank Fin.val (before ++ r.text ++ after) = r.text := by
  have hvisible : ∀ c ∈ r.text, Text.isBlank c.val = false := by
    intro c hc
    obtain ⟨d, hd, rfl⟩ := List.mem_map.1 hc
    refine IsVisible.not_isBlank ?_
    rcases List.mem_append.1 hd with hd | hd
    · exact (r.isMark_clockChars d hd).isVisible
    rcases List.mem_append.1 hd with hd | hd
    · exact isVisible_fraction r r.fractionDigits_lt d hd
    · exact isVisible_zone r d hd
  refine Text.trimBlank_between hbefore hafter (List.cons_ne_nil _ _) ?_ ?_
  · exact fun c hc => hvisible c (List.mem_of_mem_head? hc)
  · exact fun c hc => hvisible c (List.mem_of_mem_getLast? hc)

theorem zuluReplaced_zone (r : InternetTime) :
    zuluReplaced (r.zone.chars.map CodePoint.ofChar) = r.plainZone.map CodePoint.ofChar := by
  unfold InternetTime.plainZone
  cases r.zone with
  | zulu => rfl
  | numeric behind hour minute =>
      refine zuluReplaced_of_not_mem fun hz => ?_
      exact (isMark_offsetChars behind hour minute _ hz).ne (by decide) rfl

theorem zulu_not_mem_fractionChars (r : InternetTime) : 'Z' ∉ r.fractionChars := by
  rw [InternetTime.fractionChars]
  split
  · exact List.not_mem_nil
  · rw [List.mem_cons, not_or]
    exact ⟨by decide, fun hz => (isMark_digitChars r.fractionDigits_lt _ hz).ne (by decide) rfl⟩

/-- What follows the fraction does not begin with a digit of any script. -/
theorem head_plainZone (r : InternetTime) (c : CodePoint)
    (hc : (r.plainZone.map CodePoint.ofChar).head? = some c) : Text.digitValue? c.val = none := by
  have hsign : ∀ behind : Bool,
      Text.digitValue? (CodePoint.ofChar (if behind then '-' else '+')).val = none := by decide
  unfold InternetTime.plainZone at hc
  cases hzone : r.zone with
  | zulu =>
      rw [hzone] at hc
      cases hc
      exact hsign false
  | numeric behind hour minute =>
      rw [hzone] at hc
      cases hc
      exact hsign behind

theorem fractionAdjusted_ending (r : InternetTime) :
    fractionAdjusted ((r.fractionChars ++ r.plainZone).map CodePoint.ofChar) =
      (r.plainFraction ++ r.plainZone).map CodePoint.ofChar := by
  have hzone : fractionAdjusted (r.plainZone.map CodePoint.ofChar) =
      r.plainZone.map CodePoint.ofChar := by
    have hpoint : '.' ∉ r.plainZone := fun hp => (r.isMark_plainZone _ hp).ne (by decide) rfl
    have := fractionAdjusted_append hpoint []
    rwa [fractionAdjusted, List.append_nil] at this
  rw [InternetTime.fractionChars, InternetTime.plainFraction]
  split
  · exact hzone
  · rename_i hne
    rw [List.map_append, List.map_append, fractionAdjusted_fraction _ r.fractionDigits_lt
      (head_plainZone r)]
    · rfl
    · exact fun h => hne (List.map_eq_nil_iff.1 h)

/-- **The changes to the text leave a timestamp as it is**, with its zone as an offset and its fraction
in six digits. -/
theorem normalized_text (r : InternetTime) {before after : Text}
    (hbefore : ∀ c ∈ before, Text.isBlank c.val = true)
    (hafter : ∀ c ∈ after, Text.isBlank c.val = true) :
    normalized (before ++ r.text ++ after) =
      (r.clockChars ++ (r.plainFraction ++ r.plainZone)).map CodePoint.ofChar := by
  have hclock : 'Z' ∉ r.clockChars := fun hz => (r.isMark_clockChars _ hz).ne (by decide) rfl
  have hpoint : '.' ∉ r.clockChars := fun hp => (r.isMark_clockChars _ hp).ne (by decide) rfl
  rw [normalized, trimBlank_text r hbefore hafter, InternetTime.text, List.map_append,
    List.map_append, zuluReplaced_append, zuluReplaced_append, zuluReplaced_of_not_mem hclock,
    zuluReplaced_of_not_mem (zulu_not_mem_fractionChars r), zuluReplaced_zone, ← List.map_append,
    fractionAdjusted_append hpoint, fractionAdjusted_ending, ← List.map_append]

end Timestamp

end ImageTransfer
