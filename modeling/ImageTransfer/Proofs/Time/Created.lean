import ImageTransfer.Proofs.Text.Utf8
import ImageTransfer.Proofs.Time.InternetTime

/-!
# Timestamps of RFC 3339 are read

The text of a timestamp, once it is changed, has one form, of which each reader takes its part: the
date ends after ten bytes, the offset begins at the only sign behind them, and the fields between are
two digits each with colons in between. So what is read has the fields as they are written
(`ofValue_outcome`).
-/

namespace ImageTransfer

open Decimal

namespace Timestamp

/-! ## Bytes -/

/-- Characters of ASCII as bytes. -/
def bytesOf (cs : List Char) : List UInt8 := cs.map fun c => UInt8.ofNat c.toNat

theorem bytesOf_append (cs ds : List Char) : bytesOf (cs ++ ds) = bytesOf cs ++ bytesOf ds :=
  List.map_append

theorem bytesOf_cons (c : Char) (cs : List Char) :
    bytesOf (c :: cs) = UInt8.ofNat c.toNat :: bytesOf cs := rfl

theorem flatMap_utf8Bytes {cs : List Char} (h : ∀ c ∈ cs, IsVisible c) :
    (cs.map CodePoint.ofChar).flatMap Text.utf8Bytes = bytesOf cs := by
  induction cs with
  | nil => rfl
  | cons c cs ih =>
      have hc := h c List.mem_cons_self
      have hascii : (CodePoint.ofChar c).val < 0x80 := Nat.lt_of_lt_of_le hc.2 (by decide)
      rw [List.map_cons, List.flatMap_cons, ih fun d hd => h d (List.mem_cons_of_mem _ hd),
        Text.utf8Bytes, if_pos hascii]
      rfl

theorem encodeUtf8_visible {cs : List Char} (h : ∀ c ∈ cs, IsVisible c) :
    Text.encodeUtf8 (separatorReplaced (cs.map CodePoint.ofChar)) = .ok (bytesOf cs) := by
  have hsurrogate : ∀ c ∈ cs.map CodePoint.ofChar, c.isSurrogate = false := by
    intro c hc
    obtain ⟨d, -, rfl⟩ := List.mem_map.1 hc
    exact CodePoint.isSurrogate_ofChar d
  have hseparator : separatorReplaced (cs.map CodePoint.ofChar) = cs.map CodePoint.ofChar := by
    have hnone : ([7, 8, 10].find? fun i =>
        (((cs.map CodePoint.ofChar)[i]?.map CodePoint.isSurrogate).getD false)) = none := by
      refine List.find?_eq_none.2 fun i _ => ?_
      cases hi : (cs.map CodePoint.ofChar)[i]? with
      | none => exact Bool.false_ne_true
      | some c =>
          have hc := hsurrogate c (List.mem_of_getElem? hi)
          simp [hc]
    rw [separatorReplaced, hnone]
  rw [hseparator, Text.encodeUtf8_eq_ok hsurrogate, flatMap_utf8Bytes h]

theorem digit?_digitChar {d : Nat} (h : d < 10) :
    digit? (UInt8.ofNat (Nat.digitChar d).toNat) = some d := by
  have hall : ∀ d : Fin 10, digit? (UInt8.ofNat (Nat.digitChar d).toNat) = some d.val := by decide
  exact hall ⟨d, h⟩

/-- **Digits are read back.** -/
theorem readDigits?_digitChars {ds : List Nat} (h : ∀ d ∈ ds, d < 10) (rest : List UInt8) :
    readDigits? ds.length (bytesOf (digitChars ds) ++ rest) = some (ofDigits ds, rest) := by
  have hdigits : (bytesOf (digitChars ds)).mapM digit? = some ds := by
    rw [bytesOf, digitChars, List.map_map]
    induction ds with
    | nil => rfl
    | cons d ds ih =>
        have hd := digit?_digitChar (h d List.mem_cons_self)
        have hrest := ih (fun e he => h e (List.mem_cons_of_mem _ he))
        rw [List.map_cons, List.mapM_cons, Function.comp_apply, hd, hrest]
        rfl
  have hlength : (bytesOf (digitChars ds)).length = ds.length := by
    rw [bytesOf, digitChars, List.length_map, List.length_map]
  rw [readDigits?, if_neg (by rw [List.length_append]; omega), ← hlength, List.take_left,
    List.drop_left, hdigits]
  rfl

theorem readDigits?_two {n : Nat} (h : n < 100) (rest : List UInt8) :
    readDigits? 2 (bytesOf (digitChars (twoDigits n)) ++ rest) = some (n, rest) := by
  have hvalue : ofDigits (twoDigits n) = n := by
    show 10 * (10 * 0 + n / 10) + n % 10 = n
    omega
  have := readDigits?_digitChars (twoDigits_lt h) rest
  rwa [hvalue] at this

theorem twoBytes_ne_nil (n : Nat) : bytesOf (digitChars (twoDigits n)) ≠ [] := List.cons_ne_nil _ _

theorem readDigits?_four {n : Nat} (h : n < 10000) (rest : List UInt8) :
    readDigits? 4 (bytesOf (digitChars (fourDigits n)) ++ rest) = some (n, rest) := by
  have hvalue : ofDigits (fourDigits n) = n := by
    show 10 * (10 * (10 * (10 * 0 + n / 1000) + n / 100 % 10) + n / 10 % 10) + n % 10 = n
    omega
  have := readDigits?_digitChars (fourDigits_lt h) rest
  rwa [hvalue] at this

/-- A digit is no letter or mark. -/
theorem digit_ne {d : Nat} (h : d < 10) {b : UInt8} (hb : digit? b = none) :
    UInt8.ofNat (Nat.digitChar d).toNat ≠ b := by
  rintro rfl
  cases (digit?_digitChar h).symm.trans hb

section

variable (r : InternetTime)

theorem length_dateBytes : (bytesOf r.dateChars).length = 10 := rfl

/-- A month does not begin like a week. -/
theorem head_month : UInt8.ofNat (Nat.digitChar (r.month / 10)).toNat ≠ 0x57 := by
  have hmonth := r.month_valid
  exact digit_ne (by omega) rfl

/-- **The date is read back.** -/
theorem readDate?_dateChars (rest : List UInt8) :
    readDate? 10 (bytesOf r.dateChars ++ rest) = some (r.year, r.month, r.day) := by
  have hyear := r.year_valid
  have hmonth := r.month_valid
  have hday := r.day_le
  have hbytes : bytesOf r.dateChars ++ rest = bytesOf (digitChars (fourDigits r.year)) ++
      0x2D :: (bytesOf (digitChars (twoDigits r.month)) ++
        0x2D :: (bytesOf (digitChars (twoDigits r.day)) ++ rest)) := by
    rw [InternetTime.dateChars, bytesOf_append, bytesOf_cons, bytesOf_append, bytesOf_cons]
    simp only [List.append_assoc, List.cons_append]
    rfl
  obtain ⟨first, more, hopen, hfirst⟩ : ∃ first more,
      bytesOf (digitChars (twoDigits r.month)) ++
        0x2D :: (bytesOf (digitChars (twoDigits r.day)) ++ rest) = first :: more ∧
        first ≠ 0x57 := ⟨_, _, rfl, head_month r⟩
  have hread := readDigits?_two (n := r.month) (by omega)
    (0x2D :: (bytesOf (digitChars (twoDigits r.day)) ++ rest))
  rw [hopen] at hread
  rw [hbytes, readDate?, readDigits?_four (by omega)]
  simp only [Option.bind_eq_bind, Option.bind_some, List.head?_cons, readDash?, beq_self_eq_true,
    if_true, hopen]
  rw [if_neg (by rwa [beq_iff_eq]), hread]
  simp only [Option.bind_some, beq_self_eq_true, if_true]
  rw [readDigits?_two (by omega)]
  rfl

/-- A date with dashes ends after ten characters, unless a week is in it. -/
theorem separatorIndex_dateChars (rest : List UInt8) :
    separatorIndex (bytesOf r.dateChars ++ rest) = 10 := by
  have hlength : (bytesOf r.dateChars ++ rest).length ≠ 7 := by
    rw [List.length_append, length_dateBytes]
    omega
  have hdash : ((bytesOf r.dateChars ++ rest)[4]? == some 0x2D) = true := rfl
  have hfirst : ¬ ((bytesOf r.dateChars ++ rest)[5]? == some 0x57) = true := by
    rw [beq_iff_eq]
    exact fun h => head_month r (Option.some.inj h)
  rw [separatorIndex, if_neg hlength]
  exact (if_pos hdash).trans (if_neg hfirst)

/-- Two digits and a colon are a field, if something follows. -/
theorem readFields?_colon {n more : Nat} (hn : n < 100) (next : UInt8) {colons : Option Bool}
    (hcolons : colons.getD true = true) {following : List UInt8} (hne : following ≠ []) :
    readFields? next (more + 1) colons
        (bytesOf (digitChars (twoDigits n)) ++ 0x3A :: following) =
      (readFields? next more (some true) following).map fun clock =>
        { clock with fields := n :: clock.fields } := by
  obtain ⟨b, bs, rfl⟩ := List.exists_cons_of_ne_nil hne
  rw [readFields?, readDigits?_two hn]
  simp only [Option.bind_eq_bind, Option.bind_some, beq_self_eq_true, hcolons, Bool.and_self,
    if_true]
  rw [Option.map_eq_bind]
  rfl

theorem readFields?_last {n more : Nat} (hn : n < 100) (next : UInt8) (colons : Option Bool) :
    readFields? next (more + 1) colons (bytesOf (digitChars (twoDigits n))) =
      some ⟨[n], 0, clockEnd next⟩ := by
  have hread := readDigits?_two hn []
  rw [List.append_nil] at hread
  rw [readFields?, hread]
  rfl

/-- Six digits are a fraction. -/
theorem readFraction?_six (next : UInt8) :
    readFraction? (bytesOf (digitChars r.sixDigits)) next = some (r.microsecond, clockEnd next) := by
  have hread := readDigits?_digitChars r.sixDigits_lt []
  rw [List.append_nil, r.length_sixDigits, r.ofDigits_sixDigits] at hread
  have hlength : (bytesOf (digitChars r.sixDigits)).length = 6 := by
    rw [bytesOf, digitChars, List.length_map, List.length_map, r.length_sixDigits]
  rw [readFraction?, hlength, Nat.min_self, hread]
  simp

theorem readFields?_fraction {n more : Nat} (hn : n < 100) (next : UInt8) :
    readFields? next (more + 1) (some true)
        (bytesOf (digitChars (twoDigits n)) ++ 0x2E :: bytesOf (digitChars r.sixDigits)) =
      some ⟨[n], r.microsecond, clockEnd next⟩ := by
  have hsix := readFraction?_six r next
  have hne : bytesOf (digitChars r.sixDigits) ≠ [] := by
    intro h
    have := congrArg List.length h
    rw [bytesOf, digitChars, List.length_map, List.length_map, r.length_sixDigits] at this
    cases this
  obtain ⟨b, bs, hopen⟩ := List.exists_cons_of_ne_nil hne
  rw [hopen] at hsix ⊢
  rw [readFields?, readDigits?_two hn]
  simp only [Option.bind_eq_bind, Option.bind_some, Option.getD_some, Bool.true_and]
  rw [if_neg (by decide), if_pos (by decide), hsix]
  rfl

/-- **The time of day is read back**, with the whole microseconds of its fraction. -/
theorem readFields?_timeChars (next : UInt8) :
    readFields? next 3 none (bytesOf (r.timeChars ++ r.plainFraction)) =
      some ⟨[r.hour, r.minute, r.second], r.microsecond, clockEnd next⟩ := by
  have hbytes : bytesOf (r.timeChars ++ r.plainFraction) =
      bytesOf (digitChars (twoDigits r.hour)) ++ 0x3A ::
        (bytesOf (digitChars (twoDigits r.minute)) ++ 0x3A ::
          (bytesOf (digitChars (twoDigits r.second)) ++ bytesOf r.plainFraction)) := by
    rw [bytesOf_append, InternetTime.timeChars, bytesOf_append, bytesOf_cons, bytesOf_append,
      bytesOf_cons]
    simp only [List.append_assoc, List.cons_append]
    rfl
  have hseconds : readFields? next 1 (some true)
      (bytesOf (digitChars (twoDigits r.second)) ++ bytesOf r.plainFraction) =
        some ⟨[r.second], r.microsecond, clockEnd next⟩ := by
    rw [InternetTime.plainFraction]
    split
    · rename_i hnone
      have hmicrosecond : r.microsecond = 0 := by
        rw [InternetTime.microsecond, InternetTime.fractionDigits, hnone]
        rfl
      rw [hmicrosecond]
      exact (congrArg _ (List.append_nil _)).trans (readFields?_last (by omega) next _)
    · exact readFields?_fraction r (by omega) next
  have hmore := List.append_ne_nil_of_left_ne_nil (twoBytes_ne_nil r.minute)
    (0x3A :: (bytesOf (digitChars (twoDigits r.second)) ++ bytesOf r.plainFraction))
  have hlast := List.append_ne_nil_of_left_ne_nil (twoBytes_ne_nil r.second)
    (bytesOf r.plainFraction)
  rw [hbytes, readFields?_colon (by omega) next rfl hmore, readFields?_colon (by omega) next rfl hlast,
    hseconds]
  rfl

/-- The hours and minutes of an offset. -/
theorem readFields?_offset (hour : Fin 24) (minute : Fin 60) :
    readFields? 0 3 none (bytesOf (digitChars (twoDigits hour) ++
      ':' :: digitChars (twoDigits minute))) = some ⟨[hour, minute], 0, .complete⟩ := by
  rw [bytesOf_append, bytesOf_cons, show UInt8.ofNat ':'.toNat = 0x3A from rfl,
    readFields?_colon (by omega) 0 rfl (twoBytes_ne_nil minute), readFields?_last (by omega)]
  rfl

/-- No sign comes before the offset. -/
theorem not_isOffsetSign_time :
    ∀ b ∈ bytesOf (r.timeChars ++ r.plainFraction), (!isOffsetSign b) = true := by
  have hdigits : ∀ ds : List Nat, (∀ d ∈ ds, d < 10) → ∀ c ∈ digitChars ds,
      (!isOffsetSign (UInt8.ofNat c.toNat)) = true := by
    intro ds hds c hc
    obtain ⟨d, hd, rfl⟩ := List.mem_map.1 hc
    have hall : ∀ d : Fin 10,
        (!isOffsetSign (UInt8.ofNat (Nat.digitChar d).toNat)) = true := by decide
    exact hall ⟨d, hds d hd⟩
  intro b hb
  obtain ⟨c, hc, rfl⟩ := List.mem_map.1 hb
  simp only [InternetTime.timeChars, InternetTime.plainFraction, List.mem_append, List.mem_cons] at hc
  rcases hc with (hc | rfl | hc | rfl | hc) | hc
  · exact hdigits _ (twoDigits_lt (by omega)) c hc
  · decide
  · exact hdigits _ (twoDigits_lt (by omega)) c hc
  · decide
  · exact hdigits _ (twoDigits_lt (by omega)) c hc
  · split at hc
    · exact absurd hc List.not_mem_nil
    · rcases List.mem_cons.1 hc with rfl | hc
      · decide
      · exact hdigits _ r.sixDigits_lt c hc

/-- After the first change a zone is an offset, which is as far from universal time. -/
theorem exists_offset : ∃ (behind : Bool) (hour : Fin 24) (minute : Fin 60),
    r.plainZone = Zone.offsetChars behind hour minute ∧
      r.zone.seconds = (Zone.numeric behind hour minute).seconds := by
  unfold InternetTime.plainZone
  cases r.zone with
  | zulu => exact ⟨false, 0, 0, rfl, rfl⟩
  | numeric behind hour minute => exact ⟨behind, hour, minute, rfl, rfl⟩

omit r in
/-- A time of day and an offset of less than a day are read apart at the sign. -/
theorem readTime?_sign {time offset : List UInt8} {sign : UInt8} {clock away : Clock}
    (htime : ∀ b ∈ time, (!isOffsetSign b) = true) (hsign : isOffsetSign sign = true)
    (hclock : readFields? sign 3 none time = some clock)
    (haway : readFields? 0 3 none offset = some away) (hfinish : away.finish = .complete)
    (hday : away.microseconds < 24 * 3600 * perSecond) :
    readTime? (time ++ sign :: offset) = some (clock,
      if away.microseconds < perSecond then 0
      else if sign == 0x2D then -(away.microseconds : Int) else away.microseconds) := by
  have htake : (time ++ sign :: offset).takeWhile (fun b => !isOffsetSign b) = time := by
    rw [List.takeWhile_append_of_pos htime, List.takeWhile_cons, hsign]
    exact List.append_nil time
  have hdrop : (time ++ sign :: offset).dropWhile (fun b => !isOffsetSign b) = sign :: offset := by
    rw [List.dropWhile_append_of_pos htime, List.dropWhile_cons, hsign]
    rfl
  rw [readTime?, htake, hdrop]
  dsimp only
  rw [hclock, haway]
  have hcomplete : away.finish ≠ .loose := by
    rw [hfinish]
    decide
  have hless : ¬ 24 * 3600 * perSecond ≤ away.microseconds := Nat.not_le.2 hday
  rw [Option.bind_eq_bind, Option.bind_some, Option.bind_some,
    if_neg hcomplete, if_neg hless]
  split <;> rfl

omit r in
/-- **An offset in hours and minutes is worth as many seconds.** -/
theorem microseconds_offset (hour : Fin 24) (minute : Fin 60) :
    (⟨[(hour : Nat), (minute : Nat)], 0, .complete⟩ : Clock).microseconds =
      (hour * 3600 + minute * 60) * perSecond := by
  simp only [Clock.microseconds, List.getD_cons_zero, List.getD_cons_succ, List.getD_nil]
  ring

omit r in
theorem seconds_numeric (behind : Bool) {hour : Fin 24} {minute : Fin 60} {us : Nat}
    (hus : us = (hour * 3600 + minute * 60) * perSecond) :
    (if us < perSecond then 0 else if behind then -(us : Int) else us) =
      (Zone.numeric behind hour minute).seconds * perSecond := by
  have hseconds : (Zone.numeric behind hour minute).seconds * perSecond =
      if behind then -(us : Int) else us := by
    rw [hus, Zone.seconds]
    push_cast
    split <;> ring
  rw [hseconds]
  split
  · -- in whole minutes, less than a second is nothing
    rename_i hsecond
    have hnone : (hour : Nat) * 3600 + minute * 60 < 1 := by
      rw [hus] at hsecond
      exact Nat.lt_of_mul_lt_mul_right (Nat.lt_of_lt_of_eq hsecond (Nat.one_mul perSecond).symm)
    have hzero : us = 0 := by
      rw [hus, Nat.lt_one_iff.1 hnone, Nat.zero_mul]
    rw [hzero]
    split <;> rfl
  · rfl

/-- **The time of day and the offset are read back.** -/
theorem readTime?_text : ∃ finish,
    readTime? (bytesOf (r.timeChars ++ (r.plainFraction ++ r.plainZone))) =
      some (⟨[r.hour, r.minute, r.second], r.microsecond, finish⟩, r.zone.seconds * perSecond) := by
  obtain ⟨behind, hour, minute, hzone, hseconds⟩ := exists_offset r
  obtain ⟨sign, hsign, hoffset, hbehind⟩ : ∃ sign : UInt8,
      sign = UInt8.ofNat (if behind then '-' else '+').toNat ∧
        isOffsetSign sign = true ∧ (sign == 0x2D) = behind := by
    cases behind <;> exact ⟨_, rfl, by decide, by decide⟩
  have hbytes : bytesOf (r.timeChars ++ (r.plainFraction ++ r.plainZone)) =
      bytesOf (r.timeChars ++ r.plainFraction) ++ sign ::
        bytesOf (digitChars (twoDigits hour) ++ ':' :: digitChars (twoDigits minute)) := by
    rw [← List.append_assoc, bytesOf_append, hzone, Zone.offsetChars, bytesOf_cons, hsign]
  have hus := microseconds_offset hour minute
  have hday : (hour * 3600 + minute * 60 : Nat) * perSecond < 24 * 3600 * perSecond :=
    Nat.mul_lt_mul_of_pos_right (by omega) (by decide)
  refine ⟨clockEnd sign, ?_⟩
  rw [hbytes, readTime?_sign (not_isOffsetSign_time r) hoffset (readFields?_timeChars r sign)
    (readFields?_offset hour minute) rfl (lt_of_eq_of_lt hus hday), hbehind,
    seconds_numeric behind hus, hseconds]

theorem isValid_timestamp : r.timestamp.isValid = true := by
  have hmicrosecond : r.microsecond < perSecond := by
    have := ofDigits_lt r.sixDigits_lt
    rwa [r.length_sixDigits, r.ofDigits_sixDigits] at this
  have hyear := r.year_valid
  have hmonth := r.month_valid
  have hday := r.day_valid
  simp only [isValid, Bool.and_eq_true, decide_eq_true_eq]
  exact ⟨⟨⟨⟨⟨⟨⟨⟨⟨hyear.1, hyear.2⟩, hmonth.1⟩, hmonth.2⟩, hday.1⟩, hday.2⟩, r.hour.isLt⟩,
    r.minute.isLt⟩, r.second.isLt⟩, hmicrosecond⟩

/-- **What is left of the text is read as the timestamp.** -/
theorem ofBytes?_text :
    ofBytes? (bytesOf (r.clockChars ++ (r.plainFraction ++ r.plainZone))) = some r.timestamp := by
  obtain ⟨finish, htime⟩ := readTime?_text r
  have hbytes : bytesOf (r.clockChars ++ (r.plainFraction ++ r.plainZone)) =
      bytesOf r.dateChars ++ 0x54 ::
        bytesOf (r.timeChars ++ (r.plainFraction ++ r.plainZone)) := by
    rw [InternetTime.clockChars, List.append_assoc, bytesOf_append]
    rfl
  rw [ofBytes?, hbytes, separatorIndex_dateChars, readDate?_dateChars]
  dsimp only [Option.bind_eq_bind, Option.bind_some]
  have hseparator : (bytesOf r.dateChars ++ 0x54 ::
      bytesOf (r.timeChars ++ (r.plainFraction ++ r.plainZone))).drop 10 =
        0x54 :: bytesOf (r.timeChars ++ (r.plainFraction ++ r.plainZone)) := rfl
  have hrest : (bytesOf r.dateChars ++ 0x54 ::
      bytesOf (r.timeChars ++ (r.plainFraction ++ r.plainZone))).drop (10 + characterSize 0x54) =
        bytesOf (r.timeChars ++ (r.plainFraction ++ r.plainZone)) := rfl
  rw [hseparator]
  dsimp only
  rw [hrest, htime]
  exact if_pos (isValid_timestamp r)

/-- A timestamp is longer than the shortest date. -/
theorem length_text :
    ¬ ((r.clockChars ++ (r.plainFraction ++ r.plainZone)).map CodePoint.ofChar).length < 7 := by
  have hdate : r.dateChars.length = 10 := rfl
  rw [List.length_map, List.length_append, InternetTime.clockChars, List.length_append, hdate]
  omega

end

/-- **A timestamp of RFC 3339 is read as it is written.** For its text, with blanks around it, the
fields are those of the text and the fraction is cut off after the microseconds, which is the instant
cut off there. Whatever else is read gives a moment of the calendar with an offset of less than a day;
this is the epoch for a value that is no text, an empty text, and a text that is no timestamp once its
zone and its fraction are brought into the form that is read. -/
theorem ofValue_outcome :
    (∀ (r : InternetTime) (before after : Text), (∀ c ∈ before, Text.isBlank c.val = true) →
        (∀ c ∈ after, Text.isBlank c.val = true) →
        ofValue (.text (before ++ r.text ++ after)) = r.timestamp ∧
          r.timestamp.epochMicroseconds = ⌊r.instant * 1000000⌋) ∧
      ∀ v : Json.Value, (ofValue v).Sound ∧
        ((∀ t, v = .text t → t = [] ∨ ofText? (normalized t) = none) → ofValue v = epoch) := by
  refine ⟨fun r before after hbefore hafter => ⟨?_, r.epochMicroseconds_timestamp⟩,
    fun v => ⟨sound_ofValue v, fun hv => ?_⟩⟩
  · have hvisible : ∀ c ∈ r.clockChars ++ (r.plainFraction ++ r.plainZone), IsVisible c := by
      intro c hc
      rcases List.mem_append.1 hc with hc | hc
      · exact (r.isMark_clockChars c hc).isVisible
      rcases List.mem_append.1 hc with hc | hc
      · exact isVisible_fraction r r.sixDigits_lt c hc
      · exact (r.isMark_plainZone c hc).isVisible
    rw [ofValue, normalized_text r hbefore hafter, ofText?, if_neg (length_text r),
      encodeUtf8_visible hvisible]
    dsimp only
    rw [ofBytes?_text]
    rfl
  · cases v with
    | text t =>
        have hnone : ofText? (normalized t) = none := by
          rcases hv t rfl with rfl | hnone
          · rfl
          · exact hnone
        rw [ofValue, hnone]
        rfl
    | _ => rfl

/-- The last second of a leap day, to the nanosecond. -/
def leapDay : InternetTime :=
  ⟨2024, 2, 29, 23, 59, 59, [1, 2, 3, 4, 5, 6, 7, 8, 9], .numeric false 5 30, by decide, by decide,
    by decide⟩

theorem ofValue_leapDay :
    ofValue (.text (Text.ofString " 2024-02-29T23:59:59.123456789+05:30\n")) =
      ⟨2024, 2, 29, 23, 59, 59, 123456, 19800000000⟩ := by
  have htext : Text.ofString " 2024-02-29T23:59:59.123456789+05:30\n" =
      Text.ofString " " ++ leapDay.text ++ Text.ofString "\n" := by decide
  have hmicrosecond : leapDay.microsecond = 123456 := by decide +kernel
  have hoffset : leapDay.zone.seconds * perSecond = 19800000000 := by decide +kernel
  have hread := (ofValue_outcome.1 leapDay (Text.ofString " ") (Text.ofString "\n")
    (List.all_eq_true.1 (by decide)) (List.all_eq_true.1 (by decide))).1
  rw [htext, hread, InternetTime.timestamp, hmicrosecond, hoffset]
  rfl

end Timestamp

end ImageTransfer
