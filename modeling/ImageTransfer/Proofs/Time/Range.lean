import ImageTransfer.Time.Reader

/-!
# The range of timestamps

A timestamp that is read is a moment of the calendar, and its offset is less than a day. So its
instant is no further from 1970 than some ten thousand years (`Sound.natAbs_epochMicroseconds_lt`).
-/

namespace ImageTransfer

namespace Calendar

theorem daysInMonth_le (year month : Nat) : daysInMonth year month ≤ 31 := by
  unfold daysInMonth
  split
  · split <;> decide
  all_goals decide

theorem daysBeforeMonth_le (year month : Nat) : daysBeforeMonth year month ≤ 31 * (month - 1) := by
  have hsum : ∀ (months : List Nat) (n : Nat),
      months.foldl (fun n m => n + daysInMonth year (m + 1)) n ≤ n + 31 * months.length := by
    intro months
    induction months with
    | nil => exact fun n => Nat.le_add_right _ _
    | cons m months ih =>
        intro n
        have hm := daysInMonth_le year (m + 1)
        have := ih (n + daysInMonth year (m + 1))
        rw [List.foldl_cons, List.length_cons]
        omega
  have := hsum (List.range (month - 1)) 0
  rwa [List.length_range, Nat.zero_add] at this

/-- The days up to a date are not more than 366 for each year. -/
theorem dayNumber_le {year month day : Nat} (hm : month ≤ 12) (hd : day ≤ 31) :
    dayNumber year month day ≤ 366 * year + 372 := by
  have hmonth := daysBeforeMonth_le year month
  unfold dayNumber daysBeforeYear
  dsimp only
  omega

end Calendar

namespace Timestamp

/-- A moment of the calendar, with an offset of less than a day. -/
structure Sound (t : Timestamp) : Prop where
  isValid : t.isValid = true
  offset : t.offset.natAbs < 24 * 3600 * perSecond

theorem natAbs_offset_of_readTime? {bytes : List UInt8} {clock : Clock} {offset : Int}
    (h : readTime? bytes = some (clock, offset)) : offset.natAbs < 24 * 3600 * perSecond := by
  unfold readTime? at h
  dsimp only at h
  split at h
  · obtain ⟨read, _, h⟩ := Option.bind_eq_some_iff.1 h
    split at h
    · cases h
      decide
    · cases h
  · obtain ⟨read, _, h⟩ := Option.bind_eq_some_iff.1 h
    obtain ⟨away, _, h⟩ := Option.bind_eq_some_iff.1 h
    split at h
    · cases h
    · split at h
      · cases h
        decide
      · split at h
        · cases h
        · rename_i hday
          cases h
          split <;> omega

theorem sound_of_ofBytes? {bytes : List UInt8} {t : Timestamp} (h : ofBytes? bytes = some t) :
    t.Sound := by
  unfold ofBytes? at h
  dsimp only at h
  obtain ⟨⟨year, month, day⟩, _, h⟩ := Option.bind_eq_some_iff.1 h
  split at h
  · obtain ⟨read, hread, h⟩ := Option.bind_eq_some_iff.1 h
    cases hread
    split at h
    · rename_i hvalid
      cases h
      exact ⟨hvalid, show (0 : Int).natAbs < 24 * 3600 * perSecond by decide⟩
    · cases h
  · obtain ⟨read, htime, h⟩ := Option.bind_eq_some_iff.1 h
    split at h
    · rename_i hvalid
      cases h
      exact ⟨hvalid, natAbs_offset_of_readTime? htime⟩
    · cases h

/-- **Every timestamp that is read is sound.** -/
theorem sound_ofValue (v : Json.Value) : (ofValue v).Sound := by
  have hepoch : epoch.Sound := ⟨by decide, by decide⟩
  have htext : ∀ t : Text, ((ofText? t).getD epoch).Sound := by
    intro t
    cases h : ofText? t with
    | none => exact hepoch
    | some u =>
        unfold ofText? at h
        split at h
        · cases h
        · split at h
          · exact sound_of_ofBytes? h
          · cases h
  cases v with
  | text t => exact htext _
  | _ => exact hepoch

theorem Sound.natAbs_epochMicroseconds_lt {t : Timestamp} (h : t.Sound) :
    t.epochMicroseconds.natAbs < 1000000000000000000 := by
  obtain ⟨hvalid, hoffset⟩ := h
  simp only [Timestamp.isValid, Bool.and_eq_true, decide_eq_true_eq] at hvalid
  obtain ⟨⟨⟨⟨⟨⟨⟨⟨⟨_, hyear⟩, _⟩, hmonth⟩, _⟩, hday⟩, hhour⟩, hminute⟩, hsecond⟩, hmicro⟩ := hvalid
  -- the days give less than 3.2 * 10^17 microseconds, and the clock and the offset two days more
  have hdays : Calendar.dayNumber t.year t.month t.day ≤ 366 * t.year + 372 :=
    Calendar.dayNumber_le hmonth (Nat.le_trans hday (Calendar.daysInMonth_le _ _))
  have hmax : Calendar.maxYear = 9999 := rfl
  have hepoch : Calendar.epochDay = 719163 := by decide
  have hper : perSecond = 1000000 := rfl
  rw [hmax] at hyear
  rw [hper] at hmicro hoffset
  unfold epochMicroseconds
  rw [hper, hepoch]
  dsimp only
  omega

end Timestamp

end ImageTransfer
