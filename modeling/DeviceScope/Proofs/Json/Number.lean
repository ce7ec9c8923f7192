import DeviceScope.Json.Number

/-!
# The literals of numbers

The automaton for number literals accepts what the grammar of RFC 8259 derives, and nothing else
(`Number.isLiteral_iff`). The grammar is `Number.Literal`: a sign, whole digits without leading
zeros, a fraction and an exponent, of which all but the whole digits may be missing.

For each state of the automaton it is said what may follow, beginning with the last one
(`Number.accepts_exponent`), since each is told by those that come after it.
-/

namespace DeviceScope.Number

/-! ### The grammar -/

/-- A run of digits that may be empty. -/
def AllDigits (cs : List Char) : Prop := ∀ c ∈ cs, c.isDigit = true

inductive Exponent : List Char → Prop where
  | none : Exponent []
  | some {mark : Char} {sign digits : List Char} (hmark : mark = 'e' ∨ mark = 'E')
    (hsign : sign = [] ∨ sign = ['+'] ∨ sign = ['-']) (hne : digits ≠ [])
    (hdigits : AllDigits digits) : Exponent (mark :: (sign ++ digits))

inductive Fraction : List Char → Prop where
  | none : Fraction []
  | some {digits : List Char} (hne : digits ≠ []) (hdigits : AllDigits digits) :
    Fraction ('.' :: digits)

/-- The digits before the point; the first of several is not zero. -/
inductive Whole : List Char → Prop where
  | zero : Whole ['0']
  | digits {c : Char} {cs : List Char} (hc : c.isDigit = true) (hne : c ≠ '0')
    (hcs : AllDigits cs) : Whole (c :: cs)

/-- **The literals of numbers**, as the grammar has them. -/
inductive Literal : List Char → Prop where
  | mk {sign whole fraction exponent : List Char} (hsign : sign = [] ∨ sign = ['-'])
    (hwhole : Whole whole) (hfraction : Fraction fraction) (hexponent : Exponent exponent) :
    Literal (sign ++ (whole ++ (fraction ++ exponent)))

theorem allDigits_nil : AllDigits [] := fun _ h => absurd h List.not_mem_nil

theorem allDigits_cons {c : Char} {cs : List Char} :
    AllDigits (c :: cs) ↔ c.isDigit = true ∧ AllDigits cs := List.forall_mem_cons

/-! ### What each state accepts -/

/-- The literal may go on with the characters and end after them. -/
def Accepts (state : State) (cs : List Char) : Prop :=
  ∃ last, cs.foldlM State.step? state = some last ∧ last.accepts = true

theorem accepts_nil {state : State} : Accepts state [] ↔ state.accepts = true := by
  constructor
  · rintro ⟨last, hlast, haccepts⟩
    obtain rfl : state = last := by simpa using hlast
    exact haccepts
  · intro haccepts
    exact ⟨state, rfl, haccepts⟩

theorem accepts_cons {state : State} {c : Char} {cs : List Char} :
    Accepts state (c :: cs) ↔ ∃ next, state.step? c = some next ∧ Accepts next cs := by
  simp only [Accepts, List.foldlM_cons, Option.bind_eq_bind, Option.bind_eq_some_iff]
  constructor
  · rintro ⟨last, ⟨next, hnext, hrest⟩, haccepts⟩
    exact ⟨next, hnext, last, hrest, haccepts⟩
  · rintro ⟨next, hnext, last, hrest, haccepts⟩
    exact ⟨last, ⟨next, hnext, hrest⟩, haccepts⟩

theorem accepts_exponent {cs : List Char} : Accepts .exponent cs ↔ AllDigits cs := by
  -- The state does not change as long as digits come.
  induction cs with
  | nil => exact ⟨fun _ => allDigits_nil, fun _ => accepts_nil.2 rfl⟩
  | cons c cs ih =>
    rw [accepts_cons, allDigits_cons, ← ih, State.step?]
    by_cases hc : c.isDigit = true <;> simp [hc]

theorem accepts_exponentSign {cs : List Char} :
    Accepts .exponentSign cs ↔ cs ≠ [] ∧ AllDigits cs := by
  cases cs with
  | nil => simp [accepts_nil, State.accepts]
  | cons c cs =>
    rw [accepts_cons, allDigits_cons, ← accepts_exponent, State.step?]
    by_cases hc : c.isDigit = true <;> simp [hc]

theorem accepts_mark {cs : List Char} :
    Accepts .mark cs ↔ ∃ sign digits, cs = sign ++ digits ∧
      (sign = [] ∨ sign = ['+'] ∨ sign = ['-']) ∧ digits ≠ [] ∧ AllDigits digits := by
  cases cs with
  | nil =>
    rw [accepts_nil]
    constructor
    · intro h
      exact absurd h (by decide)
    · rintro ⟨sign, digits, hnil, -, hne, -⟩
      exact absurd (List.append_eq_nil_iff.1 hnil.symm).2 hne
  | cons c cs =>
    rw [accepts_cons, State.step?]
    by_cases hsign : c = '+' ∨ c = '-'
    · -- A sign is followed by digits.
      rw [if_pos hsign]
      have hdigit : ¬ c.isDigit = true := by rcases hsign with rfl | rfl <;> decide
      constructor
      · rintro ⟨next, hnext, hrest⟩
        obtain rfl := Option.some.inj hnext
        obtain ⟨hne, hdigits⟩ := accepts_exponentSign.1 hrest
        exact ⟨[c], cs, rfl, .inr (by simpa using hsign), hne, hdigits⟩
      · rintro ⟨sign, digits, hcs, hsigns, hne, hdigits⟩
        refine ⟨_, rfl, accepts_exponentSign.2 ?_⟩
        -- That the sign is missing is out of the question: no digit is one.
        rcases hsigns with rfl | rfl | rfl
        · obtain rfl : c :: cs = digits := hcs
          exact absurd (allDigits_cons.1 hdigits).1 hdigit
        all_goals
          obtain ⟨-, rfl⟩ := List.cons.inj hcs
          exact ⟨hne, hdigits⟩
    · -- Without a sign the character is the first digit.
      rw [if_neg hsign]
      constructor
      · rintro ⟨next, hnext, hrest⟩
        split at hnext
        · next hc =>
          obtain rfl := Option.some.inj hnext
          exact ⟨[], c :: cs, rfl, .inl rfl, by simp,
            allDigits_cons.2 ⟨hc, accepts_exponent.1 hrest⟩⟩
        · exact absurd hnext (by simp)
      · rintro ⟨sign, digits, hcs, hsigns, hne, hdigits⟩
        rcases hsigns with rfl | rfl | rfl
        · obtain rfl : c :: cs = digits := hcs
          obtain ⟨hc, hrest⟩ := allDigits_cons.1 hdigits
          exact ⟨_, if_pos hc, accepts_exponent.2 hrest⟩
        · exact absurd (.inl (List.cons.inj hcs).1) hsign
        · exact absurd (.inr (List.cons.inj hcs).1) hsign

/-- What follows digits that no point follows any more. -/
theorem accepts_exponentMark {c : Char} {cs : List Char} :
    (∃ next, State.step?.exponentMark c = some next ∧ Accepts next cs) ↔ Exponent (c :: cs) := by
  rw [State.step?.exponentMark]
  constructor
  · rintro ⟨next, hnext, hrest⟩
    split at hnext
    · next hmark =>
      obtain rfl := Option.some.inj hnext
      obtain ⟨sign, digits, rfl, hsign, hne, hdigits⟩ := accepts_mark.1 hrest
      exact .some hmark hsign hne hdigits
    · exact absurd hnext (by simp)
  · intro h
    cases h with
    | some hmark hsign hne hdigits =>
      exact ⟨.mark, if_pos hmark, accepts_mark.2 ⟨_, _, rfl, hsign, hne, hdigits⟩⟩

theorem not_isDigit_of_exponent {c : Char} {cs : List Char} (h : Exponent (c :: cs)) :
    ¬ c.isDigit = true := by
  cases h with
  | some hmark => rcases hmark with rfl | rfl <;> decide

/-- A run of digits before a rest goes on as long as digits come. -/
theorem exists_digits_cons {P : List Char → Prop} {c : Char} {cs : List Char}
    (hP : P (c :: cs) → ¬ c.isDigit = true) :
    (∃ digits rest, c :: cs = digits ++ rest ∧ AllDigits digits ∧ P rest) ↔
      if c.isDigit = true then ∃ digits rest, cs = digits ++ rest ∧ AllDigits digits ∧ P rest
      else P (c :: cs) := by
  split
  · next hc =>
    -- A digit belongs to the run, for the rest does not begin with one.
    constructor
    · rintro ⟨digits, rest, hcs, hdigits, hrest⟩
      cases digits with
      | nil =>
        obtain rfl : c :: cs = rest := hcs
        exact absurd hc (hP hrest)
      | cons d digits =>
        obtain ⟨rfl, rfl⟩ := List.cons.inj hcs
        exact ⟨digits, rest, rfl, (allDigits_cons.1 hdigits).2, hrest⟩
    · rintro ⟨digits, rest, rfl, hdigits, hrest⟩
      exact ⟨c :: digits, rest, rfl, allDigits_cons.2 ⟨hc, hdigits⟩, hrest⟩
  · next hc =>
    constructor
    · rintro ⟨digits, rest, hcs, hdigits, hrest⟩
      cases digits with
      | nil =>
        obtain rfl : c :: cs = rest := hcs
        exact hrest
      | cons d digits =>
        obtain ⟨rfl, rfl⟩ := List.cons.inj hcs
        exact absurd (allDigits_cons.1 hdigits).1 hc
    · intro h
      exact ⟨[], c :: cs, rfl, allDigits_nil, h⟩

theorem accepts_fraction {cs : List Char} :
    Accepts .fraction cs ↔
      ∃ digits exponent, cs = digits ++ exponent ∧ AllDigits digits ∧ Exponent exponent := by
  -- What ends the digits does not begin with one, so where they end is no choice.
  induction cs with
  | nil => exact ⟨fun _ => ⟨[], [], rfl, allDigits_nil, .none⟩, fun _ => accepts_nil.2 rfl⟩
  | cons c cs ih =>
    rw [accepts_cons, exists_digits_cons not_isDigit_of_exponent, ← ih, ← accepts_exponentMark,
      State.step?]
    split <;> simp

theorem accepts_point {cs : List Char} :
    Accepts .point cs ↔ ∃ digits exponent, cs = digits ++ exponent ∧
      (digits ≠ [] ∧ AllDigits digits) ∧ Exponent exponent := by
  cases cs with
  | nil =>
    rw [accepts_nil]
    constructor
    · intro h
      exact absurd h (by decide)
    · rintro ⟨digits, exponent, hnil, ⟨hne, -⟩, -⟩
      exact absurd (List.append_eq_nil_iff.1 hnil.symm).1 hne
  | cons c cs =>
    rw [accepts_cons, State.step?]
    constructor
    · rintro ⟨next, hnext, hrest⟩
      split at hnext
      · -- The first digit has to be there; from then on it is a fraction.
        next hc =>
        obtain rfl := Option.some.inj hnext
        obtain ⟨digits, exponent, rfl, hdigits, hexponent⟩ := accepts_fraction.1 hrest
        exact ⟨c :: digits, exponent, rfl, ⟨by simp, allDigits_cons.2 ⟨hc, hdigits⟩⟩, hexponent⟩
      · exact absurd hnext (by simp)
    · rintro ⟨digits, exponent, hcs, ⟨hne, hdigits⟩, hexponent⟩
      cases digits with
      | nil => exact absurd rfl hne
      | cons d digits =>
        obtain ⟨rfl, rfl⟩ := List.cons.inj hcs
        obtain ⟨hc, hrest⟩ := allDigits_cons.1 hdigits
        exact ⟨_, if_pos hc, accepts_fraction.2 ⟨digits, exponent, rfl, hrest, hexponent⟩⟩

/-- What may follow the digits before the point. -/
def Tail (cs : List Char) : Prop :=
  ∃ fraction exponent, cs = fraction ++ exponent ∧ Fraction fraction ∧ Exponent exponent

theorem accepts_tail {c : Char} {cs : List Char} :
    (∃ next, State.step?.tail c = some next ∧ Accepts next cs) ↔ Tail (c :: cs) := by
  rw [State.step?.tail]
  by_cases hpoint : c = '.'
  · rw [if_pos hpoint]
    subst hpoint
    constructor
    · rintro ⟨next, hnext, hrest⟩
      obtain rfl := Option.some.inj hnext
      obtain ⟨digits, exponent, rfl, ⟨hne, hdigits⟩, hexponent⟩ := accepts_point.1 hrest
      exact ⟨'.' :: digits, exponent, rfl, .some hne hdigits, hexponent⟩
    · rintro ⟨fraction, exponent, hcs, hfraction, hexponent⟩
      refine ⟨_, rfl, accepts_point.2 ?_⟩
      cases hfraction with
      | none =>
        -- No exponent begins with a point.
        obtain rfl : '.' :: cs = exponent := hcs
        cases hexponent with
        | some hmark => exact absurd hmark (by decide)
      | @some digits hne hdigits =>
        obtain ⟨-, rfl⟩ := List.cons.inj hcs
        exact ⟨digits, exponent, rfl, ⟨hne, hdigits⟩, hexponent⟩
  · rw [if_neg hpoint, accepts_exponentMark]
    constructor
    · intro h
      exact ⟨[], c :: cs, rfl, .none, h⟩
    · rintro ⟨fraction, exponent, hcs, hfraction, hexponent⟩
      cases hfraction with
      | none =>
        obtain rfl : c :: cs = exponent := hcs
        exact hexponent
      | some => exact absurd (List.cons.inj hcs).1 hpoint

theorem tail_nil : Tail [] := ⟨[], [], rfl, .none, .none⟩

theorem not_isDigit_of_tail {c : Char} {cs : List Char} (h : Tail (c :: cs)) :
    ¬ c.isDigit = true := by
  obtain ⟨fraction, exponent, hcs, hfraction, hexponent⟩ := h
  cases hfraction with
  | none =>
    obtain rfl : c :: cs = exponent := hcs
    exact not_isDigit_of_exponent hexponent
  | some =>
    obtain ⟨rfl, -⟩ := List.cons.inj hcs
    decide

theorem accepts_zero {cs : List Char} : Accepts .zero cs ↔ Tail cs := by
  cases cs with
  | nil => exact ⟨fun _ => tail_nil, fun _ => accepts_nil.2 rfl⟩
  | cons c cs => rw [accepts_cons, ← accepts_tail, State.step?]

theorem accepts_whole {cs : List Char} :
    Accepts .whole cs ↔ ∃ digits rest, cs = digits ++ rest ∧ AllDigits digits ∧ Tail rest := by
  induction cs with
  | nil => exact ⟨fun _ => ⟨[], [], rfl, allDigits_nil, tail_nil⟩, fun _ => accepts_nil.2 rfl⟩
  | cons c cs ih =>
    rw [accepts_cons, exists_digits_cons not_isDigit_of_tail, ← ih, ← accepts_tail, State.step?]
    split <;> simp

theorem accepts_sign {cs : List Char} :
    Accepts .sign cs ↔ ∃ whole rest, cs = whole ++ rest ∧ Whole whole ∧ Tail rest := by
  cases cs with
  | nil =>
    rw [accepts_nil]
    constructor
    · intro h
      exact absurd h (by decide)
    · rintro ⟨whole, rest, hnil, hwhole, -⟩
      obtain ⟨rfl, -⟩ := List.append_eq_nil_iff.1 hnil.symm
      cases hwhole
  | cons c cs =>
    rw [accepts_cons, State.step?]
    constructor
    · rintro ⟨next, hnext, hrest⟩
      split at hnext
      · -- After a zero no more digits may come before the point.
        next hzero =>
        obtain rfl := Option.some.inj hnext
        exact ⟨['0'], cs, by rw [hzero]; rfl, .zero, accepts_zero.1 hrest⟩
      · next hzero =>
        split at hnext
        · next hc =>
          obtain rfl := Option.some.inj hnext
          obtain ⟨digits, rest, rfl, hdigits, htail⟩ := accepts_whole.1 hrest
          exact ⟨c :: digits, rest, rfl, .digits hc hzero hdigits, htail⟩
        · exact absurd hnext (by simp)
    · rintro ⟨whole, rest, hcs, hwhole, htail⟩
      cases hwhole with
      | zero =>
        obtain ⟨rfl, rfl⟩ := List.cons.inj hcs
        exact ⟨_, if_pos rfl, accepts_zero.2 htail⟩
      | @digits d digits hc hne hdigits =>
        obtain ⟨rfl, rfl⟩ := List.cons.inj hcs
        exact ⟨.whole, by rw [if_neg hne, if_pos hc],
          accepts_whole.2 ⟨digits, rest, rfl, hdigits, htail⟩⟩

/-- A literal is what the automaton accepts after the sign, with or without one. -/
theorem literal_iff {literal : List Char} :
    Literal literal ↔ ∃ sign unsigned, literal = sign ++ unsigned ∧
      (sign = [] ∨ sign = ['-']) ∧ Accepts .sign unsigned := by
  simp only [accepts_sign]
  constructor
  · rintro ⟨hsign, hwhole, hfraction, hexponent⟩
    exact ⟨_, _, rfl, hsign, _, _, rfl, hwhole, _, _, rfl, hfraction, hexponent⟩
  · rintro ⟨sign, _, rfl, hsign, whole, _, rfl, hwhole, fraction, exponent, rfl, hfraction,
      hexponent⟩
    exact .mk hsign hwhole hfraction hexponent

theorem isLiteral_cons {c : Char} {cs : List Char} :
    IsLiteral (c :: cs) = true ↔ ∃ first, start? c = some first ∧ Accepts first cs := by
  rw [IsLiteral]
  constructor
  · intro h
    split at h
    · next last hlast =>
      obtain ⟨first, hfirst, hrest⟩ := Option.bind_eq_some_iff.1 hlast
      exact ⟨first, hfirst, last, hrest, h⟩
    · exact absurd h (by simp)
  · rintro ⟨first, hfirst, last, hlast, haccepts⟩
    rw [hfirst, Option.bind_eq_bind, Option.bind_some, hlast]
    exact haccepts

/-- **The automaton accepts the literals of the grammar**, and nothing else. -/
theorem isLiteral_iff {literal : List Char} : IsLiteral literal = true ↔ Literal literal := by
  rw [literal_iff]
  cases literal with
  | nil =>
    refine ⟨fun h => absurd h (by decide), ?_⟩
    rintro ⟨sign, unsigned, hnil, -, haccepts⟩
    obtain ⟨-, rfl⟩ := List.append_eq_nil_iff.1 hnil.symm
    exact absurd (accepts_nil.1 haccepts) (by decide)
  | cons c cs =>
    rw [isLiteral_cons]
    by_cases hminus : c = '-'
    · subst hminus
      constructor
      · rintro ⟨first, hfirst, hrest⟩
        obtain rfl := Option.some.inj hfirst
        exact ⟨['-'], cs, rfl, .inr rfl, hrest⟩
      · rintro ⟨sign, unsigned, hcs, rfl | rfl, haccepts⟩
        · -- No digits begin with a minus sign.
          obtain rfl : '-' :: cs = unsigned := hcs
          obtain ⟨next, hnext, -⟩ := accepts_cons.1 haccepts
          exact absurd hnext (by simp [State.step?])
        · obtain ⟨-, rfl⟩ := List.cons.inj hcs
          exact ⟨.sign, rfl, haccepts⟩
    · -- Without a minus sign the literal begins as it goes on after one.
      have hstart : start? c = State.step? .sign c := by
        rw [start?, if_neg hminus]
        rfl
      rw [hstart, ← accepts_cons]
      constructor
      · intro h
        exact ⟨[], c :: cs, rfl, .inl rfl, h⟩
      · rintro ⟨sign, unsigned, hcs, rfl | rfl, haccepts⟩
        · obtain rfl : c :: cs = unsigned := hcs
          exact haccepts
        · exact absurd (List.cons.inj hcs).1 hminus

end DeviceScope.Number
