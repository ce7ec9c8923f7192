import DeviceScope.Proofs.Text.Run
import DeviceScope.Time.SpanText

/-!
# Written spans are read back

A written span is a row of amounts with their units (`Span.split`), the greatest unit first. Their
lengths make up the span (`Span.total_split`): each unit divides what the greater ones have left,
so no nanosecond gets lost between two units, although a month is no whole number of days and a
year no whole number of months.

Read back, the amounts are added up again (`Span.addParts?_joined`). On the way the sum never
exceeds the span, and so none of the numbers that have to fit in 64 bits overflows
(`Span.addPart?_eq_some`). `Span.ofText?_toText` puts the two together.
-/

namespace DeviceScope.Span

/-! ### Amounts and units -/

/-- The written name of a unit, for several of it or for one. -/
def TimeUnit.written (several : Bool) : TimeUnit → List Char
  | .year => ['y', 'e', 'a', 'r'] ++ plural several
  | .month => ['m', 'o', 'n', 't', 'h'] ++ plural several
  | .week => ['w']
  | .day => ['d', 'a', 'y'] ++ plural several
  | .hour => ['h']
  | .minute => ['m']
  | .second => ['s']
  | .millisecond => ['m', 's']
  | .microsecond => ['u', 's']
  | .nanosecond => ['n', 's']
where
  plural (several : Bool) : List Char := if several then ['s'] else []

/-- A written name is read as its unit. -/
theorem TimeUnit.ofName?_written (several : Bool) (unit : TimeUnit) :
    ofName? (unit.written several) = some unit := by
  cases several <;> cases unit <;> decide

theorem TimeUnit.isAlpha_written {several : Bool} {unit : TimeUnit} {c : Char}
    (h : c ∈ unit.written several) : c.isAlpha = true := by
  have hall : (unit.written several).all Char.isAlpha = true := by
    cases several <;> cases unit <;> decide
  exact List.all_eq_true.1 hall c h

/-- A written name begins with what can neither go on with a number nor begin a fraction. -/
theorem TimeUnit.exists_written_eq_cons (several : Bool) (unit : TimeUnit) :
    ∃ c cs, unit.written several = c :: cs ∧ isNumeral c = false ∧ c ≠ '.' := by
  cases several <;> cases unit <;> exact ⟨_, _, rfl, by decide, by decide⟩

theorem TimeUnit.positive (unit : TimeUnit) : 0 < unit.seconds ∨ 0 < unit.nanos := by
  cases unit <;> decide

/-- The number of nanoseconds that a unit is long. -/
def TimeUnit.length (unit : TimeUnit) : Nat := unit.seconds * nanosPerSecond + unit.nanos

/-- The amounts into which a span is split, with their units. -/
def split (span : Span) : List (Nat × TimeUnit) :=
  let inYear := span.seconds % 31557600
  let inMonth := inYear % 2630016
  let inDay := inMonth % 86400
  [(span.seconds / 31557600, .year), (inYear / 2630016, .month), (inMonth / 86400, .day),
    (inDay / 3600, .hour), (inDay / 60 % 60, .minute), (inDay % 60, .second),
    (span.subNanos / 1000000, .millisecond), (span.subNanos / 1000 % 1000, .microsecond),
    (span.subNanos % 1000, .nanosecond)]

/-- The nanoseconds of amounts altogether. -/
def total (parts : List (Nat × TimeUnit)) : Nat :=
  parts.foldr (fun part sum => part.2.length * part.1 + sum) 0

/-- The characters of a written amount. -/
def partChars (part : Nat × TimeUnit) : List Char :=
  Decimal.digits part.1 ++ part.2.written (part.1 ≠ 1)

theorem amounts_eq (span : Span) :
    span.amounts = span.split.map fun part => (part.1, part.2.written (part.1 ≠ 1)) := by
  have hcounted : ∀ (n : Nat) (name : List Char),
      (if n = 1 then name else name ++ ['s']) =
        name ++ TimeUnit.written.plural (decide (n ≠ 1)) := by
    intro n name
    by_cases h : n = 1 <;> simp [h, TimeUnit.written.plural]
  simp only [amounts, hcounted]
  rfl

/-- **The amounts make up the span.** -/
theorem total_split (span : Span) : total span.split = span.nanos := by
  have hspan : nanosPerSecond * span.seconds + span.subNanos = span.nanos := by
    rw [Span.seconds, Span.subNanos, Nat.div_add_mod]
  rw [← hspan]
  unfold split
  -- Only the two numbers matter that are split, the seconds and what is less than a second.
  generalize span.seconds = seconds
  generalize span.subNanos = nanos
  simp only [total, List.foldr_cons, List.foldr_nil, TimeUnit.length, TimeUnit.seconds,
    TimeUnit.nanos, nanosPerSecond]
  omega

/-! ### Reading an amount -/

theorem word?_eq_some {n : Nat} (h : n < UInt64.size) : word? n = some n := if_pos h

theorem numeral?_digits {n : Nat} (h : n < UInt64.size) :
    numeral? (Decimal.digits n) = some n := by
  have hdigits : (Decimal.digits n).filter Char.isDigit = Decimal.digits n :=
    List.filter_eq_self.2 fun c hc => Decimal.isDigit_of_mem_digits hc
  rw [numeral?, hdigits, Decimal.value_digits, word?_eq_some h]

theorem takeFraction?_of_ne {c : Char} (h : c ≠ '.') (cs : List Char) :
    takeFraction? (c :: cs) = some (none, c :: cs) := by
  unfold takeFraction?
  split
  · next heq => exact absurd (List.cons.inj heq).1 h
  · rfl

/-- **A written amount is read back**, whatever follows that cannot go on with its unit. -/
theorem takePart?_partChars {part : Nat × TimeUnit} (hfits : part.1 < UInt64.size)
    {rest : List Char} (hrest : Run.EndsAt isUnitLetter rest) :
    takePart? (partChars part ++ rest) = some (⟨part.1, none, part.2⟩, rest) := by
  obtain ⟨c, cs, hname, hnumeral, hpoint⟩ := part.2.exists_written_eq_cons (part.1 ≠ 1)
  have hdigits : ∀ d ∈ Decimal.digits part.1, isNumeral d = true := by
    intro d hd
    rw [isNumeral, Decimal.isDigit_of_mem_digits hd, Bool.true_or]
  have hletters : ∀ d ∈ c :: cs, isUnitLetter d = true := by
    intro d hd
    rw [isUnitLetter, TimeUnit.isAlpha_written (hname ▸ hd), Bool.true_or]
  have hend : Run.EndsAt isNumeral (c :: cs ++ rest) := Run.endsAt_cons hnumeral
  rw [takePart?, partChars, hname, List.append_assoc, Run.takeWhile_append hdigits hend,
    Run.dropWhile_append hdigits hend, numeral?_digits hfits]
  dsimp only [bind, Option.bind]
  rw [List.cons_append, takeFraction?_of_ne hpoint]
  dsimp only
  rw [← List.cons_append, Run.takeWhile_append hletters hrest,
    Run.dropWhile_append hletters hrest, ← hname, TimeUnit.ofName?_written]

/-! ### Adding up -/

/-- Seconds and nanoseconds are added if the sum is a span. -/
theorem add?_eq_some {span sum : Span} {seconds nanos : Nat}
    (hsum : span.nanos + seconds * nanosPerSecond + nanos = sum.nanos)
    (hnanos : nanos < nanosPerSecond) : span.add? seconds nanos = some sum := by
  have hsub : span.subNanos < nanosPerSecond := Nat.mod_lt _ (by decide)
  have hsize : nanosPerSecond + nanosPerSecond < UInt64.size := by decide
  have hfits : span.subNanos + nanos < UInt64.size := by omega
  rw [add?, word?_eq_some hfits, Option.bind_eq_bind, Option.bind_some, hsum, ofNanos?,
    dif_pos sum.bounded]

/-- The seconds and the nanoseconds of an amount. -/
theorem length_mul (part : Nat × TimeUnit) : part.2.length * part.1 =
    part.1 * part.2.seconds * nanosPerSecond + part.1 * part.2.nanos := by
  rw [TimeUnit.length, Nat.mul_comm, Nat.mul_add, Nat.mul_assoc]

/-- A sum of an amount and a span is a span only if the seconds of the amount fit in 64 bits. -/
theorem seconds_lt_size {span sum : Span} {part : Nat × TimeUnit}
    (hsum : part.2.length * part.1 + span.nanos = sum.nanos) :
    part.1 * part.2.seconds < UInt64.size := by
  have hbound := sum.bounded
  have hlimit : Span.limit = UInt64.size * nanosPerSecond := by decide
  have hlength := length_mul part
  refine Nat.lt_of_mul_lt_mul_right (a := nanosPerSecond) ?_
  omega

/-- So does the amount itself. -/
theorem amount_lt_size {span sum : Span} {part : Nat × TimeUnit}
    (hsum : part.2.length * part.1 + span.nanos = sum.nanos)
    (hnanos : part.1 * part.2.nanos < nanosPerSecond) : part.1 < UInt64.size := by
  have hseconds := seconds_lt_size hsum
  have hsize : nanosPerSecond < UInt64.size := by decide
  rcases part.2.positive with hunit | hunit
  · exact Nat.lt_of_le_of_lt (Nat.le_mul_of_pos_right _ hunit) hseconds
  · exact Nat.lt_trans (Nat.lt_of_le_of_lt (Nat.le_mul_of_pos_right _ hunit) hnanos) hsize

/-- **An amount is added** if the sum is a span: nothing worked out on the way is greater. -/
theorem addPart?_eq_some {span sum : Span} {part : Nat × TimeUnit}
    (hsum : part.2.length * part.1 + span.nanos = sum.nanos)
    (hnanos : part.1 * part.2.nanos < nanosPerSecond) :
    span.addPart? ⟨part.1, none, part.2⟩ = some sum := by
  have hlength := length_mul part
  have hsize : nanosPerSecond < UInt64.size := by decide
  have hseconds := seconds_lt_size hsum
  have hadd : span.add? (part.1 * part.2.seconds) (part.1 * part.2.nanos) = some sum :=
    add?_eq_some (by omega) hnanos
  rw [addPart?, word?_eq_some hseconds, word?_eq_some (Nat.lt_trans hnanos hsize),
    Option.bind_eq_bind, Option.bind_some, Option.bind_eq_bind, Option.bind_some, hadd]
  rfl

/-! ### Reading amounts one after another -/

/-- The characters of written amounts, with blanks between them. -/
def joined (parts : List (Nat × TimeUnit)) : List Char := [' '].intercalate (parts.map partChars)

theorem joined_singleton (part : Nat × TimeUnit) : joined [part] = partChars part := by
  rw [joined, List.map_singleton, List.intercalate_singleton]

theorem joined_cons_cons (part next : Nat × TimeUnit) (rest : List (Nat × TimeUnit)) :
    joined (part :: next :: rest) = partChars part ++ ' ' :: joined (next :: rest) := by
  rw [joined, joined, List.map_cons, List.map_cons, List.intercalate_cons_cons,
    List.append_assoc]
  rfl

theorem isBlank_of_isDigit {c : Char} (h : c.isDigit = true) : isBlank c = false := by
  have hdigit := Char.isDigit_iff_toNat.1 h
  have hzero : '0'.toNat = 48 := rfl
  have hnine : '9'.toNat = 57 := rfl
  simp only [isBlank, Bool.or_eq_false_iff, Bool.and_eq_false_iff, decide_eq_false_iff_not]
  omega

/-- A written amount begins with a digit, and its unit takes at least one more character. -/
theorem exists_partChars_eq_cons_cons (part : Nat × TimeUnit) :
    ∃ c d cs, partChars part = c :: d :: cs ∧ c.isDigit = true := by
  obtain ⟨c, digits, hdigits⟩ := List.exists_cons_of_ne_nil (Decimal.digits_ne_nil part.1)
  obtain ⟨letter, letters, hname, -⟩ := part.2.exists_written_eq_cons (part.1 ≠ 1)
  obtain ⟨d, cs, hrest⟩ : ∃ d cs, digits ++ letter :: letters = d :: cs :=
    List.exists_cons_of_ne_nil (List.append_ne_nil_of_right_ne_nil _ (List.cons_ne_nil _ _))
  refine ⟨c, d, cs, ?_, Decimal.isDigit_of_mem_digits (hdigits ▸ List.mem_cons_self)⟩
  rw [partChars, hdigits, hname, List.cons_append, hrest]

/-- **One amount more.** -/
theorem addParts?_partChars {span sum : Span} {part : Nat × TimeUnit}
    (hsum : part.2.length * part.1 + span.nanos = sum.nanos)
    (hnanos : part.1 * part.2.nanos < nanosPerSecond) {rest : List Char}
    (hrest : Run.EndsAt isUnitLetter rest) (fuel : Nat) :
    addParts? (fuel + 1) span (partChars part ++ rest) = addParts? fuel sum rest := by
  obtain ⟨c, d, cs, hchars, hdigit⟩ := exists_partChars_eq_cons_cons part
  have hfront : (partChars part ++ rest).dropWhile isBlank = partChars part ++ rest := by
    rw [hchars, List.cons_append, List.dropWhile_cons_of_neg]
    rw [isBlank_of_isDigit hdigit]
    decide
  have htake := takePart?_partChars (amount_lt_size hsum hnanos) hrest
  rw [addParts?, hfront]
  rw [hchars, List.cons_append] at htake ⊢
  dsimp only
  rw [if_pos hdigit, htake, Option.bind_eq_bind, Option.bind_some]
  dsimp only
  rw [addPart?_eq_some hsum hnanos, Option.bind_eq_bind, Option.bind_some]

theorem addParts?_blank (fuel : Nat) (span : Span) (cs : List Char) :
    addParts? fuel span (' ' :: cs) = addParts? fuel span cs := by
  cases fuel with
  | zero => rfl
  | succ fuel => rw [addParts?, addParts?, List.dropWhile_cons_of_pos (by decide)]

/-- Behind the first amount come the others, with a blank before them if there are any. -/
theorem exists_joined_cons (part : Nat × TimeUnit) (rest : List (Nat × TimeUnit)) :
    ∃ tail, joined (part :: rest) = partChars part ++ tail ∧ Run.EndsAt isUnitLetter tail ∧
      (joined rest).length ≤ tail.length ∧
      ∀ fuel span, addParts? fuel span tail = addParts? fuel span (joined rest) := by
  cases rest with
  | nil =>
    refine ⟨[], ?_, Run.endsAt_nil, Nat.le_refl _, fun _ _ => rfl⟩
    rw [joined_singleton, List.append_nil]
  | cons next rest =>
    exact ⟨' ' :: joined (next :: rest), joined_cons_cons part next rest,
      Run.endsAt_cons (by decide), Nat.le_succ _, fun fuel span => addParts?_blank fuel span _⟩

theorem nanos_injective {span other : Span} (h : span.nanos = other.nanos) : span = other := by
  cases span
  cases other
  cases h
  rfl

theorem total_cons (part : Nat × TimeUnit) (parts : List (Nat × TimeUnit)) :
    total (part :: parts) = part.2.length * part.1 + total parts := rfl

/-- **Written amounts are added up.** -/
theorem addParts?_joined {parts : List (Nat × TimeUnit)} {span sum : Span}
    (hsum : total parts + span.nanos = sum.nanos)
    (hnanos : ∀ part ∈ parts, part.1 * part.2.nanos < nanosPerSecond) {fuel : Nat}
    (hfuel : parts.length < fuel) : addParts? fuel span (joined parts) = some sum := by
  obtain ⟨fuel, rfl⟩ : ∃ less, fuel = less + 1 := ⟨fuel - 1, by omega⟩
  induction parts generalizing span fuel with
  | nil =>
    have hsame : span = sum := nanos_injective ((Nat.zero_add _).symm.trans hsum)
    rw [joined, List.map_nil, List.intercalate_nil, addParts?, hsame]
    rfl
  | cons part rest ih =>
    rw [List.length_cons] at hfuel
    rw [total_cons] at hsum
    obtain ⟨fuel, rfl⟩ : ∃ less, fuel = less + 1 := ⟨fuel - 1, by omega⟩
    -- What has been added after this amount is again a span, since the sum is one.
    have hbound : part.2.length * part.1 + span.nanos < Span.limit := by
      have := sum.bounded
      omega
    have hnext : addParts? (fuel + 1) ⟨_, hbound⟩ (joined rest) = some sum :=
      ih (by show _ + (_ + _) = _; omega)
        (fun other hmem => hnanos other (List.mem_cons_of_mem _ hmem)) fuel (by omega)
    obtain ⟨tail, hjoined, hend, -, htail⟩ := exists_joined_cons part rest
    have hstep : addParts? (fuel + 1 + 1) span (partChars part ++ tail) =
        addParts? (fuel + 1) ⟨_, hbound⟩ tail :=
      addParts?_partChars rfl (hnanos part List.mem_cons_self) hend (fuel + 1)
    rw [hjoined, hstep, htail, hnext]

/-! ### The round trip -/

/-- Amounts of nothing add nothing. -/
theorem total_filter (parts : List (Nat × TimeUnit)) :
    total (parts.filter (·.1 ≠ 0)) = total parts := by
  induction parts with
  | nil => rfl
  | cons part rest ih =>
    rw [List.filter_cons]
    split
    · rw [total_cons, total_cons, ih]
    · next hzero =>
      have hnone : part.1 = 0 := by simpa using hzero
      rw [ih, total_cons, hnone, Nat.mul_zero, Nat.zero_add]

/-- What is split off below the second is less than a second. -/
theorem nanos_lt_of_mem_split {span : Span} {part : Nat × TimeUnit} (h : part ∈ span.split) :
    part.1 * part.2.nanos < nanosPerSecond := by
  have hsub : span.subNanos < 1000000000 := Nat.mod_lt _ (by decide)
  unfold nanosPerSecond
  simp only [split, List.mem_cons, List.not_mem_nil, or_false] at h
  rcases h with rfl | rfl | rfl | rfl | rfl | rfl | rfl | rfl | rfl <;>
    simp only [TimeUnit.nanos] <;> omega

/-- Each amount takes up room. -/
theorem length_le_length_joined (parts : List (Nat × TimeUnit)) :
    parts.length ≤ (joined parts).length := by
  induction parts with
  | nil => exact Nat.le_refl 0
  | cons part rest ih =>
    obtain ⟨tail, hjoined, -, htail, -⟩ := exists_joined_cons part rest
    obtain ⟨c, d, cs, hchars, -⟩ := exists_partChars_eq_cons_cons part
    rw [hjoined, hchars, List.length_append, List.length_cons, List.length_cons]
    omega

theorem chars_eq {span : Span} (h : span.isZero = false) :
    span.chars = joined (span.split.filter (·.1 ≠ 0)) := by
  rw [chars, h, amounts_eq, List.filter_map, List.map_map]
  rfl

/-- Written amounts, if there are any, are read as their sum. -/
theorem ofChars?_joined {parts : List (Nat × TimeUnit)} {sum : Span} (hsome : parts ≠ [])
    (hsum : total parts = sum.nanos)
    (hnanos : ∀ part ∈ parts, part.1 * part.2.nanos < nanosPerSecond) :
    ofChars? (joined parts) = some sum := by
  have hstart : total parts + zero.nanos = sum.nanos := hsum
  have hread : addParts? ((joined parts).length + 1) zero (joined parts) = some sum :=
    addParts?_joined hstart hnanos (Nat.lt_succ_of_le (length_le_length_joined parts))
  obtain ⟨part, rest, rfl⟩ := List.exists_cons_of_ne_nil hsome
  obtain ⟨tail, hjoined, -⟩ := exists_joined_cons part rest
  obtain ⟨c, d, cs, hchars, hdigit⟩ := exists_partChars_eq_cons_cons part
  -- With its unit a written amount is neither a zero alone nor blank.
  rw [hjoined, hchars, List.cons_append, List.cons_append] at hread ⊢
  have hlone : c :: d :: (cs ++ tail) ≠ ['0'] := fun h => List.cons_ne_nil _ _ (List.cons.inj h).2
  rw [ofChars?, if_neg hlone,
    List.dropWhile_cons_of_neg (by rw [isBlank_of_isDigit hdigit]; decide)]
  exact hread

/-- **A written span is read back**, to the nanosecond. -/
theorem ofText?_toText (span : Span) : ofText? span.toText = some span := by
  rw [ofText?, toText, String.toList_ofList]
  cases hzero : span.isZero with
  | true =>
    have hnone : span = zero := nanos_injective (of_decide_eq_true hzero)
    rw [hnone]
    rfl
  | false =>
    have hsum : total (span.split.filter (·.1 ≠ 0)) = span.nanos := by
      rw [total_filter, total_split]
    rw [chars_eq hzero]
    refine ofChars?_joined ?_ hsum fun part hmem =>
      nanos_lt_of_mem_split (List.mem_filter.1 hmem).1
    -- Amounts of nothing alone would not make up a span that is not zero.
    intro hnone
    rw [hnone] at hsum
    exact of_decide_eq_false hzero hsum.symm

/-! ### The characters of a written span -/

theorem isAlphanum_of_mem_partChars {part : Nat × TimeUnit} {c : Char}
    (h : c ∈ partChars part) : c.isAlphanum = true := by
  rcases List.mem_append.1 h with hdigit | hletter
  · rw [Char.isAlphanum, Decimal.isDigit_of_mem_digits hdigit, Bool.or_true]
  · rw [Char.isAlphanum, TimeUnit.isAlpha_written hletter, Bool.true_or]

theorem mem_joined {parts : List (Nat × TimeUnit)} {c : Char} (h : c ∈ joined parts) :
    c.isAlphanum = true ∨ c = ' ' := by
  induction parts with
  | nil => exact absurd h List.not_mem_nil
  | cons part rest ih =>
    cases rest with
    | nil =>
      rw [joined_singleton] at h
      exact .inl (isAlphanum_of_mem_partChars h)
    | cons next rest =>
      rw [joined_cons_cons, List.mem_append, List.mem_cons] at h
      rcases h with hpart | hspace | hrest
      · exact .inl (isAlphanum_of_mem_partChars hpart)
      · exact .inr hspace
      · exact ih hrest

/-- **A written span is made of digits, letters and spaces.** -/
theorem mem_chars {span : Span} {c : Char} (h : c ∈ span.chars) :
    c.isAlphanum = true ∨ c = ' ' := by
  cases hzero : span.isZero with
  | true =>
    rw [chars, hzero, if_pos rfl, List.mem_cons, List.mem_singleton] at h
    rcases h with rfl | rfl <;> decide
  | false =>
    rw [chars_eq hzero] at h
    exact mem_joined h

/-- Something is always written: no span is read from nothing. -/
theorem chars_ne_nil (span : Span) : span.chars ≠ [] := by
  intro hnone
  have hread := ofText?_toText span
  rw [toText, hnone] at hread
  exact absurd hread.symm (Option.some_ne_none span)

end DeviceScope.Span
