import DeviceScope.Time.Calendar

/-!
# Days and their dates

The date of a day exists (`Date.isValid_ofDay`), and counting the days before it gives the day
back (`Date.dayNumber_ofDay`). Both rest on how a day of the year is split between the months
(`splitMonths_spec`). In turn every date that exists is the date of its day
(`Date.ofDay_dayNumber`).
-/

namespace DeviceScope.Calendar

/-- The length of a row of months. -/
def totalLength (lengths : List Nat) : Nat := lengths.foldr (· + ·) 0

/-- A day within a row of months falls into one of them, behind all those before it. -/
theorem splitMonths_spec {lengths : List Nat} (month rest : Nat)
    (h : rest < totalLength lengths) :
    ∃ passed day, splitMonths month rest lengths = (month + passed, day) ∧
      passed < lengths.length ∧ 1 ≤ day ∧ day ≤ lengths.getD passed 0 ∧
      totalLength (lengths.take passed) + day = rest + 1 := by
  induction lengths generalizing month rest with
  | nil => exact absurd h (Nat.not_lt_zero _)
  | cons length lengths ih =>
    rw [splitMonths]
    split
    · next hrest =>
      -- The day is in this month.
      refine ⟨0, rest + 1, rfl, Nat.succ_pos _, Nat.succ_pos _, hrest, ?_⟩
      exact Nat.zero_add _
    · next hrest =>
      -- This month has passed, and the day is in one of those behind it.
      have hlater : rest - length < totalLength lengths := by
        have htotal : totalLength (length :: lengths) = length + totalLength lengths := rfl
        omega
      obtain ⟨passed, day, hsplit, hpassed, hpos, hday, hsum⟩ := ih (month + 1) _ hlater
      refine ⟨passed + 1, day, ?_, Nat.succ_lt_succ hpassed, hpos, hday, ?_⟩
      · rw [hsplit, Nat.add_assoc, Nat.add_comm 1 passed]
      · have htaken : totalLength ((length :: lengths).take (passed + 1)) =
            length + totalLength (lengths.take passed) := rfl
        omega

/-- A day of one of the months is found in it. -/
theorem splitMonths_take {lengths : List Nat} (month : Nat) {passed day : Nat}
    (h : day < lengths.getD passed 0) :
    splitMonths month (totalLength (lengths.take passed) + day) lengths =
      (month + passed, day + 1) := by
  induction lengths generalizing month passed with
  | nil => exact absurd h (by simp)
  | cons length lengths ih =>
    rw [splitMonths]
    cases passed with
    | zero =>
      have hrest : totalLength ((length :: lengths).take 0) + day = day := Nat.zero_add day
      rw [hrest, if_pos (show day < length from h)]
      rfl
    | succ passed =>
      -- The first month has passed, and the day is looked for behind it.
      have htaken : totalLength ((length :: lengths).take (passed + 1)) =
          length + totalLength (lengths.take passed) := rfl
      rw [htaken, if_neg (by omega), Nat.add_assoc, Nat.add_sub_cancel_left, ih (month + 1) h,
        Nat.add_assoc, Nat.add_comm 1 passed]

theorem totalLength_monthLengths (year : Int) :
    totalLength (monthLengths year) = if isLeap year then 366 else 365 := by
  rw [monthLengths]
  cases isLeap year <;> rfl

theorem daysBeforeYear_le {year later : Int} (h : year ≤ later) :
    daysBeforeYear year ≤ daysBeforeYear later := by
  simp only [daysBeforeYear]
  omega

/-- A year is told by the days in it. -/
theorem yearOf_eq {year day : Int} (hlow : daysBeforeYear year ≤ day)
    (hhigh : day < daysBeforeYear (year + 1)) : yearOf day = year := by
  obtain ⟨hlow', hhigh'⟩ := yearOf_spec day
  -- If one of the years came after the other, so would its days.
  rcases Int.lt_trichotomy (yearOf day) year with hlt | heq | hlt
  · have hle := daysBeforeYear_le (show yearOf day + 1 ≤ year from hlt)
    omega
  · exact heq
  · have hle := daysBeforeYear_le (show year + 1 ≤ yearOf day from hlt)
    omega

theorem totalLength_take_add_getD (lengths : List Nat) (passed : Nat) :
    totalLength (lengths.take passed) + lengths.getD passed 0 ≤ totalLength lengths := by
  induction lengths generalizing passed with
  | nil => exact Nat.le_of_eq (by simp)
  | cons length lengths ih =>
    have htotal : totalLength (length :: lengths) = length + totalLength lengths := rfl
    cases passed with
    | zero =>
      show 0 + length ≤ _
      omega
    | succ passed =>
      have htaken : totalLength ((length :: lengths).take (passed + 1)) =
          length + totalLength (lengths.take passed) := rfl
      have hnext : (length :: lengths).getD (passed + 1) 0 = lengths.getD passed 0 := rfl
      have hrest := ih passed
      omega

theorem getD_monthLengths_le (year : Int) (passed : Nat) :
    (monthLengths year).getD passed 0 ≤ 31 := by
  have hall : ∀ length ∈ monthLengths year, length ≤ 31 := by
    rw [monthLengths]
    cases isLeap year <;> decide
  rw [List.getD_eq_getElem?_getD]
  cases hget : (monthLengths year)[passed]? with
  | none => exact Nat.zero_le _
  | some length => exact hall length (List.mem_of_getElem? hget)

namespace Date

/-- The date of a day, told by the months that have passed before it in its year. -/
theorem ofDay_spec (day : Int) :
    ∃ passed dayOfMonth, ofDay day = ⟨yearOf day, 1 + passed, dayOfMonth⟩ ∧ passed < 12 ∧
      1 ≤ dayOfMonth ∧ dayOfMonth ≤ (monthLengths (yearOf day)).getD passed 0 ∧
      (totalLength ((monthLengths (yearOf day)).take passed) + dayOfMonth : Int) =
        day - daysBeforeYear (yearOf day) + 1 := by
  obtain ⟨hlow, hhigh⟩ := yearOf_spec day
  rw [daysBeforeYear_succ] at hhigh
  -- What is left of the day after the years before it lies within the months of its year.
  have hrest : (day - daysBeforeYear (yearOf day)).toNat <
      totalLength (monthLengths (yearOf day)) := by
    rw [totalLength_monthLengths]
    split
    · next hleap => rw [if_pos hleap] at hhigh; omega
    · next hleap => rw [if_neg hleap] at hhigh; omega
  obtain ⟨passed, dayOfMonth, hsplit, hpassed, hpos, hle, hsum⟩ :=
    splitMonths_spec 1 _ hrest
  refine ⟨passed, dayOfMonth, ?_, hpassed, hpos, hle, by omega⟩
  rw [ofDay, hsplit]

/-- **The date of a day exists.** -/
theorem isValid_ofDay (day : Int) : (ofDay day).isValid = true := by
  obtain ⟨passed, dayOfMonth, hdate, -, hpos, hle, -⟩ := ofDay_spec day
  have hmonth : monthLength (yearOf day) (1 + passed) =
      (monthLengths (yearOf day)).getD passed 0 := by
    rw [monthLength, if_neg (by omega), Nat.add_sub_cancel_left]
  rw [hdate, isValid, Bool.and_eq_true, decide_eq_true_iff, decide_eq_true_iff, hmonth]
  exact ⟨hpos, hle⟩

/-- **Counting the days before the date of a day gives the day back.** -/
theorem dayNumber_ofDay (day : Int) : (ofDay day).dayNumber = day := by
  obtain ⟨passed, dayOfMonth, hdate, -, -, -, hsum⟩ := ofDay_spec day
  have hbefore : daysBeforeMonth (yearOf day) (1 + passed) =
      totalLength ((monthLengths (yearOf day)).take passed) := by
    rw [daysBeforeMonth, Nat.add_sub_cancel_left, totalLength]
  rw [hdate, dayNumber, hbefore]
  dsimp only
  omega

/-- **A date that exists is the date of its day.** -/
theorem ofDay_dayNumber {date : Date} (h : date.isValid = true) : ofDay date.dayNumber = date := by
  obtain ⟨year, month, day⟩ := date
  rw [isValid, Bool.and_eq_true, decide_eq_true_iff, decide_eq_true_iff] at h
  obtain ⟨hpos, hle⟩ := h
  dsimp only at hpos hle
  -- The month exists, for it has days.
  have hmonth : month ≠ 0 := by
    rintro rfl
    rw [monthLength, if_pos rfl] at hle
    omega
  rw [monthLength, if_neg hmonth] at hle
  have hnumber : (Date.mk year month day).dayNumber = daysBeforeYear year +
      ((totalLength ((monthLengths year).take (month - 1)) + (day - 1) : Nat) : Int) := by
    rw [dayNumber, daysBeforeMonth, totalLength]
    dsimp only
    omega
  have htotal := totalLength_take_add_getD (monthLengths year) (month - 1)
  have hyear : yearOf (Date.mk year month day).dayNumber = year := by
    rw [totalLength_monthLengths] at htotal
    refine yearOf_eq (by omega) ?_
    rw [daysBeforeYear_succ]
    split
    · next hleap => rw [if_pos hleap] at htotal; omega
    · next hleap => rw [if_neg hleap] at htotal; omega
  have hrest : ((Date.mk year month day).dayNumber - daysBeforeYear year).toNat =
      totalLength ((monthLengths year).take (month - 1)) + (day - 1) := by
    omega
  have hsplit := splitMonths_take 1 (show day - 1 < (monthLengths year).getD (month - 1) 0 by omega)
  rw [ofDay, hyear, hrest, hsplit, Nat.add_sub_cancel' (Nat.one_le_iff_ne_zero.2 hmonth),
    Nat.sub_add_cancel hpos]

theorem month_ofDay_le (day : Int) : (ofDay day).month ≤ 12 := by
  obtain ⟨passed, dayOfMonth, hdate, hpassed, -⟩ := ofDay_spec day
  rw [hdate]
  dsimp only
  omega

theorem day_ofDay_le (day : Int) : (ofDay day).day ≤ 31 := by
  obtain ⟨passed, dayOfMonth, hdate, -, -, hle, -⟩ := ofDay_spec day
  rw [hdate]
  exact Nat.le_trans hle (getD_monthLengths_le _ _)

end Date

end DeviceScope.Calendar
