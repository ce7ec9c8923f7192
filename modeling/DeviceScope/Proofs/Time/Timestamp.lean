import DeviceScope.Proofs.Text.Run
import DeviceScope.Proofs.Time.Calendar
import DeviceScope.Time.Timestamp

/-!
# Timestamps survive as texts

A timestamp that has a written form is read back from it (`Timestamp.ofChars?_chars`), instant and
offset alike. Reading goes from part to part, and so does the proof: each part that is written is
taken off the front by the reader of that part, whatever follows.

What is read in turn has a written form, whichever of the forms it was read from
(`Timestamp.isWritable_of_ofChars?`): a leap second, too, lies on the date that was read.
-/

namespace DeviceScope.Timestamp

/-! ### The parts of the written form -/

/-- A number that fills its places is taken off the front. -/
theorem digits?_padded {width n : Nat} (rest : List Char) (hwidth : 0 < width)
    (h : n < Nat.pow 10 width) :
    digits? width (Decimal.padded width n ++ rest) = some (n, rest) := by
  have hlength : (Decimal.padded width n).length = width := Decimal.length_padded hwidth h
  have hfront : (Decimal.padded width n ++ rest).take width = Decimal.padded width n :=
    List.take_left' hlength
  have hrest : (Decimal.padded width n ++ rest).drop width = rest := List.drop_left' hlength
  have hall : (Decimal.padded width n).all Char.isDigit = true :=
    List.all_eq_true.2 fun c hc => Decimal.isDigit_of_mem_padded hc
  rw [digits?, hfront, hrest, if_pos ⟨hlength, hall⟩, Decimal.value_padded]

theorem mark?_cons (c : Char) (rest : List Char) : mark? c (c :: rest) = some rest := by
  rw [mark?, if_pos rfl]

theorem separator?_cons_T (rest : List Char) : separator? ('T' :: rest) = some rest := rfl

/-- The digits of a fraction without the zeros at their end. -/
def trimmed (nano : Nat) : List Char :=
  ((Decimal.padded 9 nano).reverse.dropWhile (· = '0')).reverse

/-- What was trimmed away are zeros. -/
theorem trimmed_append_zeros {nano : Nat} (h : nano < nanosPerSecond) :
    (trimmed nano).length ≤ 9 ∧
      trimmed nano ++ List.replicate (9 - (trimmed nano).length) '0' = Decimal.padded 9 nano := by
  have hlength : (Decimal.padded 9 nano).length = 9 := Decimal.length_padded (by decide) h
  have hsplit := List.takeWhile_append_dropWhile (p := (· = '0'))
    (l := (Decimal.padded 9 nano).reverse)
  have hzeros : (Decimal.padded 9 nano).reverse.takeWhile (· = '0') =
      List.replicate ((Decimal.padded 9 nano).reverse.takeWhile (· = '0')).length '0' := by
    refine List.eq_replicate_iff.2 ⟨rfl, ?_⟩
    intro c hc
    have hall := List.all_takeWhile (p := (· = '0')) (l := (Decimal.padded 9 nano).reverse)
    exact of_decide_eq_true (List.all_eq_true.1 hall c hc)
  generalize (Decimal.padded 9 nano).reverse.takeWhile (· = '0') = zeros at hsplit hzeros
  have hwhole : trimmed nano ++ zeros.reverse = Decimal.padded 9 nano := by
    rw [trimmed, ← List.reverse_append, hsplit, List.reverse_reverse]
  have hcount : (trimmed nano).length + zeros.length = 9 := by
    rw [← hlength, ← hwhole, List.length_append, List.length_reverse]
  refine ⟨by omega, ?_⟩
  rw [show 9 - (trimmed nano).length = zeros.length by omega, ← hwhole, hzeros,
    List.reverse_replicate, List.length_replicate]

theorem trimmed_ne_nil {nano : Nat} (h : nano < nanosPerSecond) (hne : nano ≠ 0) :
    trimmed nano ≠ [] := by
  intro hnil
  have hwhole := (trimmed_append_zeros h).2
  rw [hnil, List.nil_append] at hwhole
  have hvalue := congrArg Decimal.value hwhole
  rw [Decimal.value_padded, Decimal.value, Nat.ofDigitChars_replicate_zero, Nat.mul_zero] at hvalue
  exact hne hvalue.symm

/-- Whether a text goes on with neither a digit nor a point. -/
def EndsFraction (rest : List Char) : Prop :=
  ∃ c cs, rest = c :: cs ∧ c.isDigit = false ∧ c ≠ '.'

/-- A fraction is taken off the front of what does not go on with one. -/
theorem fraction?_fractionChars {nano : Nat} {rest : List Char} (h : nano < nanosPerSecond)
    (hrest : EndsFraction rest) :
    fraction? (fractionChars nano ++ rest) = some (nano, rest) := by
  obtain ⟨c, cs, rfl, hdigit, hpoint⟩ := hrest
  rw [fractionChars]
  split
  · next hzero =>
    rw [List.nil_append, fraction?, hzero]
    rintro cs' heq
    exact hpoint (List.cons.inj heq).1
  · next hne =>
    obtain ⟨hlength, hwhole⟩ := trimmed_append_zeros h
    have hdigits : ∀ d ∈ trimmed nano, d.isDigit = true := by
      intro d hd
      have hmem : d ∈ Decimal.padded 9 nano := by
        rw [← hwhole]
        exact List.mem_append_left _ hd
      exact Decimal.isDigit_of_mem_padded hmem
    have hend : Run.EndsAt Char.isDigit (c :: cs) := Run.endsAt_cons hdigit
    -- The zeros that were left out at the end are what the scale makes up for.
    have hvalue : Decimal.value (trimmed nano) * Nat.pow 10 (9 - (trimmed nano).length) = nano := by
      rw [← Decimal.value_append_zeros, hwhole, Decimal.value_padded]
    show fraction? ('.' :: (trimmed nano ++ c :: cs)) = _
    rw [fraction?]
    dsimp only
    rw [Run.takeWhile_append hdigits hend, Run.dropWhile_append hdigits hend,
      if_neg (by simpa using trimmed_ne_nil h hne), List.take_of_length_le hlength, hvalue]

/-- An offset of whole minutes below a day is read back. -/
theorem offset?_offsetChars {offset : Int} (hminutes : offset % 60 = 0)
    (hday : offset.natAbs < secondsPerDay) : offset? (offsetChars offset) = some offset := by
  rw [offsetChars]
  split
  · next hzero => rw [offset?, hzero]
  · next hne =>
    have hbound : offset.natAbs < 86400 := hday
    have hhours : offset.natAbs / 3600 < 24 := by omega
    have hsize : ((offset.natAbs / 3600 : Nat) : Int) * 3600 +
        ((offset.natAbs / 60 % 60 : Nat) : Int) * 60 = offset.natAbs := by omega
    -- Behind the sign stand the hours, a colon and the minutes, and nothing else.
    have hread : ∀ sign : Char, sign ≠ 'Z' → sign ≠ 'z' →
        offset? (sign :: (Decimal.padded 2 (offset.natAbs / 3600) ++
          ':' :: Decimal.padded 2 (offset.natAbs / 60 % 60))) =
        (if sign = '+' then some (offset.natAbs : Int)
          else if sign = '-' then some (-(offset.natAbs : Int)) else none) := by
      intro sign hupper hlower
      have hlast := digits?_padded (n := offset.natAbs / 60 % 60) [] (by decide : 0 < 2)
        (Nat.lt_trans (Nat.mod_lt _ (by decide)) (by decide))
      rw [List.append_nil] at hlast
      rw [offset?, digits?_padded _ (by decide) (Nat.lt_trans hhours (by decide)),
        Option.bind_eq_bind, Option.bind_some]
      · dsimp only
        rw [mark?_cons, Option.bind_eq_bind, Option.bind_some, hlast, Option.bind_some]
        dsimp only
        rw [if_pos ⟨rfl, by omega, by omega⟩, hsize]
      · intro heq
        exact absurd heq hupper
      · intro heq
        exact absurd heq hlower
    split
    · next hneg =>
      rw [hread '-' (by decide) (by decide), if_neg (by decide), if_pos rfl]
      exact congrArg some (by omega)
    · next hpos =>
      rw [hread '+' (by decide) (by decide), if_pos rfl]
      exact congrArg some (by omega)

theorem endsFraction_offsetChars (offset : Int) : EndsFraction (offsetChars offset) := by
  rw [offsetChars]
  split
  · exact ⟨'Z', [], rfl, by decide, by decide⟩
  · split
    · exact ⟨'-', _, rfl, by decide, by decide⟩
    · exact ⟨'+', _, rfl, by decide, by decide⟩

/-! ### The clock -/

theorem clock_hour_lt (t : Timestamp) : t.clock.hour < 24 := by
  rw [clock, secondsPerDay]
  dsimp only
  omega

theorem clock_minute_lt (t : Timestamp) : t.clock.minute < 60 := Nat.mod_lt _ (by decide)

theorem clock_second_lt (t : Timestamp) : t.clock.second < 60 := Nat.mod_lt _ (by decide)

theorem clock_nano_lt (t : Timestamp) : t.clock.nano < nanosPerSecond := by
  rw [clock, nanosPerSecond]
  dsimp only
  omega

/-- What the clock shows, and where, is the timestamp. -/
theorem ofClock_clock (t : Timestamp) : ofClock t.clock t.offset = t := by
  have hnanos : (ofClock t.clock t.offset).nanos = t.nanos := by
    rw [ofClock, clock, Clock.secondOfDay, secondsPerDay, nanosPerSecond]
    dsimp only
    omega
  obtain ⟨nanos, offset⟩ := t
  exact congrArg (Timestamp.mk · offset) hnanos

/-! ### The written form as a whole -/

/-- Reading goes on with what a part has given. -/
theorem bind_of_eq_some {α β : Type} {x : Option α} {a : α} {f : α → Option β}
    (h : x = some a) : (x >>= f) = f a := by
  rw [h]
  rfl

/-- **A timestamp that has a written form is read back from it.** -/
theorem ofChars?_chars {t : Timestamp} (h : t.isWritable = true) : ofChars? t.chars = some t := by
  simp only [isWritable, Bool.and_eq_true, decide_eq_true_iff] at h
  obtain ⟨⟨⟨hyear, hyear'⟩, hminutes⟩, hday⟩ := h
  have hfits : (Calendar.Date.ofDay t.clock.day).year.toNat < Nat.pow 10 4 := by
    show _ < 10000
    omega
  have hmonth : (Calendar.Date.ofDay t.clock.day).month < Nat.pow 10 2 :=
    Nat.lt_of_le_of_lt (Calendar.Date.month_ofDay_le _) (by decide)
  have hdayOfMonth : (Calendar.Date.ofDay t.clock.day).day < Nat.pow 10 2 :=
    Nat.lt_of_le_of_lt (Calendar.Date.day_ofDay_le _) (by decide)
  have hdate : Calendar.Date.mk ((Calendar.Date.ofDay t.clock.day).year.toNat : Nat)
      (Calendar.Date.ofDay t.clock.day).month (Calendar.Date.ofDay t.clock.day).day =
      Calendar.Date.ofDay t.clock.day := by
    rw [Int.toNat_of_nonneg hyear]
  have hhour := t.clock_hour_lt
  have hminute := t.clock_minute_lt
  have hsecond := t.clock_second_lt
  rw [ofChars?, chars]
  simp only [List.append_assoc, List.cons_append]
  -- Part after part is taken off the front: the date, the time of day, and where it is that time.
  refine (bind_of_eq_some (digits?_padded _ (by decide) hfits)).trans ?_
  refine (bind_of_eq_some (mark?_cons _ _)).trans ?_
  refine (bind_of_eq_some (digits?_padded _ (by decide) hmonth)).trans ?_
  refine (bind_of_eq_some (mark?_cons _ _)).trans ?_
  refine (bind_of_eq_some (digits?_padded _ (by decide) hdayOfMonth)).trans ?_
  refine (bind_of_eq_some (separator?_cons_T _)).trans ?_
  refine (bind_of_eq_some (digits?_padded _ (by decide) (Nat.lt_trans hhour (by decide)))).trans ?_
  refine (bind_of_eq_some (mark?_cons _ _)).trans ?_
  refine (bind_of_eq_some
    (digits?_padded _ (by decide) (Nat.lt_trans hminute (by decide)))).trans ?_
  refine (bind_of_eq_some (mark?_cons _ _)).trans ?_
  refine (bind_of_eq_some
    (digits?_padded _ (by decide) (Nat.lt_trans hsecond (by decide)))).trans ?_
  refine (bind_of_eq_some (fraction?_fractionChars t.clock_nano_lt
    (endsFraction_offsetChars t.offset))).trans ?_
  refine (bind_of_eq_some (offset?_offsetChars hminutes hday)).trans ?_
  dsimp only
  rw [hdate, if_pos ⟨Calendar.Date.isValid_ofDay _, by omega, by omega⟩, if_pos (by omega),
    Calendar.Date.dayNumber_ofDay]
  exact congrArg some (ofClock_clock t)

/-! ### Which timestamps have a written form -/

/-- The date that is shown at the offset of the timestamp. -/
def date (t : Timestamp) : Calendar.Date := .ofDay t.clock.day

/-- **A timestamp as RFC 3339 has them**: at its own offset the year has no more than four digits,
and the offset is a whole number of minutes below 24 hours. -/
structure IsRegular (t : Timestamp) : Prop where
  year_nonneg : 0 ≤ t.date.year
  year_le : t.date.year ≤ 9999
  minutes : t.offset % 60 = 0
  natAbs_lt : t.offset.natAbs < 24 * 60 * 60

theorem isWritable_iff (t : Timestamp) : t.isWritable = true ↔ t.IsRegular := by
  simp only [isWritable, Bool.and_eq_true, decide_eq_true_iff]
  constructor
  · rintro ⟨⟨⟨hnonneg, hlt⟩, hminutes⟩, hday⟩
    exact ⟨hnonneg, Int.lt_add_one_iff.1 hlt, hminutes, hday⟩
  · rintro ⟨hnonneg, hle, hminutes, hday⟩
    exact ⟨⟨⟨hnonneg, Int.lt_add_one_iff.2 hle⟩, hminutes⟩, hday⟩

/-! ### What is read -/

/-- The digits that were taken off the front denote a number that fits in their places. -/
theorem lt_of_digits? {count n : Nat} {cs rest : List Char}
    (h : digits? count cs = some (n, rest)) : n < Nat.pow 10 count := by
  rw [digits?] at h
  split at h
  · next hfront =>
    obtain ⟨hlength, hdigits⟩ := hfront
    obtain ⟨rfl, -⟩ := Prod.mk.inj (Option.some.inj h)
    have hlt := Decimal.value_lt (List.all_eq_true.1 hdigits)
    rwa [hlength] at hlt
  · exact absurd h (by simp)

/-- What was read of a fraction is less than a second, however many digits there were. -/
theorem lt_of_fraction? {nano : Nat} {cs rest : List Char} (h : fraction? cs = some (nano, rest)) :
    nano < nanosPerSecond := by
  rw [fraction?.eq_def] at h
  split at h
  · next digits =>
    dsimp only at h
    split at h
    · exact absurd h (by simp)
    · obtain ⟨rfl, -⟩ := Prod.mk.inj (Option.some.inj h)
      generalize hnine : (digits.takeWhile Char.isDigit).take 9 = nine
      have hlength : nine.length ≤ 9 := by
        rw [← hnine]
        exact List.length_take_le 9 _
      have hdigits : ∀ c ∈ nine, c.isDigit = true := by
        intro c hc
        rw [← hnine] at hc
        exact List.all_eq_true.1 List.all_takeWhile c (List.mem_of_mem_take hc)
      -- The places that the digits leave open are filled with zeros.
      calc Decimal.value nine * Nat.pow 10 (9 - nine.length)
          < Nat.pow 10 nine.length * Nat.pow 10 (9 - nine.length) :=
            Nat.mul_lt_mul_of_pos_right (Decimal.value_lt hdigits) (Nat.pow_pos (by decide))
        _ = Nat.pow 10 9 := by
            rw [Nat.pow_eq, Nat.pow_eq, ← Nat.pow_add, Nat.add_sub_cancel' hlength, Nat.pow_eq]
        _ = nanosPerSecond := rfl
  · obtain ⟨rfl, -⟩ := Prod.mk.inj (Option.some.inj h)
    decide

/-- An offset that was read is a whole number of minutes below a day. -/
theorem minutes_of_offset? {cs : List Char} {offset : Int} (h : offset? cs = some offset) :
    offset % 60 = 0 ∧ offset.natAbs < secondsPerDay := by
  rw [offset?.eq_def] at h
  split at h
  · obtain rfl := Option.some.inj h
    decide
  · obtain rfl := Option.some.inj h
    decide
  · next sign rest =>
    obtain ⟨⟨hours, rest⟩, -, h⟩ := Option.bind_eq_some_iff.1 h
    obtain ⟨rest, -, h⟩ := Option.bind_eq_some_iff.1 h
    obtain ⟨⟨minutes, rest⟩, -, h⟩ := Option.bind_eq_some_iff.1 h
    dsimp only at h
    split at h
    · next hbounds =>
      obtain ⟨-, hhours, hminutes⟩ := hbounds
      have hsize : (((hours : Int) * 3600 + minutes * 60) % 60 = 0) ∧
          ((hours : Int) * 3600 + minutes * 60).natAbs < 86400 := by omega
      rw [secondsPerDay]
      split at h
      · obtain rfl := Option.some.inj h
        exact hsize
      · split at h
        · obtain rfl := Option.some.inj h
          omega
        · exact absurd h (by simp)
    · exact absurd h (by simp)
  · exact absurd h (by simp)

/-- A clock that was set shows the day that it was set to. -/
theorem day_clock_ofClock {clock : Clock} (hhour : clock.hour ≤ 23) (hminute : clock.minute ≤ 59)
    (hsecond : clock.second ≤ 59) (hnano : clock.nano < nanosPerSecond) (offset : Int) :
    (ofClock clock offset).clock.day = clock.day := by
  rw [nanosPerSecond] at hnano
  rw [ofClock, Timestamp.clock, Clock.secondOfDay, secondsPerDay, nanosPerSecond]
  dsimp only
  omega

/-- A clock that was set to a date with four digits of a year has a written form. -/
theorem isWritable_ofClock {date : Calendar.Date} {hour minute second nano : Nat} {offset : Int}
    (hdate : date.isValid = true) (hyear : 0 ≤ date.year ∧ date.year < 10000) (hhour : hour ≤ 23)
    (hminute : minute ≤ 59) (hsecond : second ≤ 59) (hnano : nano < nanosPerSecond)
    (hoffset : offset % 60 = 0 ∧ offset.natAbs < secondsPerDay) :
    (ofClock ⟨date.dayNumber, hour, minute, second, nano⟩ offset).isWritable = true := by
  have hday : (ofClock ⟨date.dayNumber, hour, minute, second, nano⟩ offset).clock.day =
      date.dayNumber := day_clock_ofClock hhour hminute hsecond hnano offset
  rw [isWritable, hday, Calendar.Date.ofDay_dayNumber hdate]
  simp only [Bool.and_eq_true, decide_eq_true_iff]
  exact ⟨⟨hyear, hoffset.1⟩, hoffset.2⟩

/-- **What was read has a written form.** -/
theorem isWritable_of_ofChars? {cs : List Char} {t : Timestamp} (h : ofChars? cs = some t) :
    t.isWritable = true := by
  rw [ofChars?] at h
  -- Of what was taken off the front only its size matters, not what it was.
  obtain ⟨⟨year, cs⟩, hyear, h⟩ := Option.bind_eq_some_iff.1 h
  obtain ⟨cs, -, h⟩ := Option.bind_eq_some_iff.1 h
  obtain ⟨⟨month, cs⟩, -, h⟩ := Option.bind_eq_some_iff.1 h
  obtain ⟨cs, -, h⟩ := Option.bind_eq_some_iff.1 h
  obtain ⟨⟨day, cs⟩, -, h⟩ := Option.bind_eq_some_iff.1 h
  obtain ⟨cs, -, h⟩ := Option.bind_eq_some_iff.1 h
  obtain ⟨⟨hour, cs⟩, -, h⟩ := Option.bind_eq_some_iff.1 h
  obtain ⟨cs, -, h⟩ := Option.bind_eq_some_iff.1 h
  obtain ⟨⟨minute, cs⟩, -, h⟩ := Option.bind_eq_some_iff.1 h
  obtain ⟨cs, -, h⟩ := Option.bind_eq_some_iff.1 h
  obtain ⟨⟨second, cs⟩, -, h⟩ := Option.bind_eq_some_iff.1 h
  obtain ⟨⟨nano, cs⟩, hnano, h⟩ := Option.bind_eq_some_iff.1 h
  obtain ⟨offset, hoffset, h⟩ := Option.bind_eq_some_iff.1 h
  have hfits : (0 : Int) ≤ year ∧ (year : Int) < 10000 := by
    have hlt : year < 10000 := lt_of_digits? hyear
    omega
  dsimp only at h
  split at h
  · next hvalid =>
    obtain ⟨hdate, hhour, hminute⟩ := hvalid
    split at h
    · next hsecond =>
      obtain rfl := Option.some.inj h
      exact isWritable_ofClock hdate hfits hhour hminute hsecond (lt_of_fraction? hnano)
        (minutes_of_offset? hoffset)
    · split at h
      · -- A leap second is read as the last moment before it, on the same date.
        split at h
        · obtain rfl := Option.some.inj h
          exact isWritable_ofClock hdate hfits hhour hminute (by decide) (by decide)
            (minutes_of_offset? hoffset)
        · exact absurd h (by simp)
      · exact absurd h (by simp)
  · exact absurd h (by simp)

/-- **A timestamp that has a written form is read back from its text.** -/
theorem ofText?_of_toText? {t : Timestamp} {text : String} (h : t.toText? = some text) :
    ofText? text = some t := by
  rw [toText?] at h
  split at h
  · next hwritable =>
    obtain rfl := Option.some.inj h
    rw [ofText?, String.toList_ofList]
    exact ofChars?_chars hwritable
  · exact absurd h (by simp)

end DeviceScope.Timestamp
