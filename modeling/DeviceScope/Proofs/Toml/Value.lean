import DeviceScope.Proofs.Text.Run
import DeviceScope.Toml.Document

/-!
# Written values

Two ways in which a value is written and read back: a text between quotation marks, when it holds
nothing that would have to be escaped (`Spells.quoted`), and a number in decimal
(`Spells.decimal`). What follows is the end of the line.
-/

namespace DeviceScope.Toml

/-! ### Texts between quotation marks -/

namespace Quoted

/-- **A character that stands for itself** in a string with escapes. -/
structure IsDirect (c : Char) : Prop where
  plain : isPlain c = true
  ne_mark : c ≠ '"'
  ne_escape : c ≠ '\\'

theorem isDirect_space : IsDirect ' ' := ⟨by decide, by decide, by decide⟩

theorem toNat_of_isAlphanum {c : Char} (h : c.isAlphanum = true) :
    0x20 ≤ c.toNat ∧ c.toNat < 0x7F := by
  -- Each of the three runs of letters and digits lies between the two.
  have hrun : ∀ first last : Char, first.val ≤ c.val ∧ c.val ≤ last.val →
      0x20 ≤ first.toNat → last.toNat < 0x7F → 0x20 ≤ c.toNat ∧ c.toNat < 0x7F :=
    fun first last hrun hfirst hlast =>
      ⟨Nat.le_trans hfirst (UInt32.le_iff_toNat_le.1 hrun.1),
        Nat.lt_of_le_of_lt (UInt32.le_iff_toNat_le.1 hrun.2) hlast⟩
  rcases Bool.or_eq_true_iff.1 h with hletter | hdigit
  · rcases Bool.or_eq_true_iff.1 hletter with hupper | hlower
    · exact hrun 'A' 'Z' (of_decide_eq_true hupper) (by decide) (by decide)
    · have hbounds := Bool.and_eq_true_iff.1 hlower
      exact hrun 'a' 'z' (hbounds.imp of_decide_eq_true of_decide_eq_true) (by decide) (by decide)
  · have hbounds := Bool.and_eq_true_iff.1 hdigit
    exact hrun '0' '9' (hbounds.imp of_decide_eq_true of_decide_eq_true) (by decide) (by decide)

theorem isDirect_of_isAlphanum {c : Char} (h : c.isAlphanum = true) : IsDirect c where
  plain := by
    have hrange := toNat_of_isAlphanum h
    simp only [isPlain, Bool.or_eq_true, Bool.and_eq_true, decide_eq_true_eq]
    omega
  ne_mark := by
    rintro rfl
    exact absurd h (by decide)
  ne_escape := by
    rintro rfl
    exact absurd h (by decide)

variable {c : Char} {text : List Char}

theorem basic?_cons (h : IsDirect c) (rest : List Char) :
    basic? (c :: rest) = push c (basic? rest) := by
  rw [basic?.eq_def]
  split
  case h_1 heq => exact absurd heq (List.cons_ne_nil c rest)
  case h_2 heq => exact absurd (List.cons.inj heq).1 h.ne_mark
  case h_7 heq =>
    obtain ⟨rfl, rfl⟩ := List.cons.inj heq
    exact if_pos h.plain
  all_goals
    next heq => exact absurd (List.cons.inj heq).1 h.ne_escape

theorem basic?_append (h : ∀ c ∈ text, IsDirect c) (rest : List Char) :
    basic? (text ++ '"' :: rest) = some (text, rest) := by
  induction text with
  | nil => rfl
  | cons c text ih =>
    have htext := ih fun d hd => h d (List.mem_cons_of_mem c hd)
    rw [List.cons_append, basic?_cons (h c List.mem_cons_self), htext]
    rfl

/-- A text of which no character is a quotation mark does not open a string over several lines. -/
theorem take?_append (h : ∀ c ∈ text, IsDirect c) (hsome : text ≠ []) (rest : List Char) :
    take? ('"' :: (text ++ '"' :: rest)) = some (text, rest) := by
  obtain ⟨c, cs, rfl⟩ := List.exists_cons_of_ne_nil hsome
  rw [take?.eq_def]
  split
  case h_1 heq =>
    have hfirst : c = '"' := (List.cons.inj (List.cons.inj heq).2).1
    exact absurd hfirst (h c List.mem_cons_self).ne_mark
  case h_2 heq =>
    rw [← (List.cons.inj heq).2]
    exact basic?_append h rest
  case h_3 heq => exact absurd (List.cons.inj heq).1 (by decide)
  case h_4 heq => exact absurd (List.cons.inj heq).1 (by decide)
  case h_5 hmark _ _ => exact absurd rfl (hmark _)

end Quoted

/-! ### Numbers in decimal -/

namespace Scalar

theorem digit?_of_isDigit {c : Char} (h : c.isDigit = true) :
    digit? 10 c = some (c.toNat - '0'.toNat) := by
  have hnine := (Char.isDigit_iff_toNat.1 h).2
  have hten : '9'.toNat = '0'.toNat + 9 := rfl
  rw [digit?, if_pos h]
  exact if_pos (by omega)

theorem digits?_of_isDigit {c : Char} {cs : List Char} (h : ∀ d ∈ c :: cs, d.isDigit = true) :
    digits? 10 (c :: cs) = some ((c :: cs).map fun d => d.toNat - '0'.toNat) := by
  induction cs generalizing c with
  | nil =>
    rw [digits?, digit?_of_isDigit (h c List.mem_cons_self)]
    rfl
  | cons d ds ih =>
    have hd : d.isDigit = true := h d (List.mem_cons_of_mem c List.mem_cons_self)
    have hmark : d ≠ '_' := by
      rintro rfl
      exact absurd hd (by decide)
    have hrest := ih fun e he => h e (List.mem_cons_of_mem c he)
    rw [digits?, digit?_of_isDigit (h c List.mem_cons_self), hrest]
    · rfl
    · exact List.cons_ne_nil d ds
    · exact fun rest heq => hmark (List.cons.inj heq).1

theorem ofDigits_map (cs : List Char) :
    ofDigits 10 (cs.map fun d => d.toNat - '0'.toNat) = Decimal.value cs := by
  have hfrom : ∀ init, (cs.map fun d => d.toNat - '0'.toNat).foldl (· * 10 + ·) init =
      Nat.ofDigitChars 10 cs init := by
    induction cs with
    | nil => exact fun _ => rfl
    | cons c cs ih =>
      intro init
      rw [List.map_cons, List.foldl_cons, ih, Nat.ofDigitChars_cons, Nat.mul_comm]
  exact hfrom 0

theorem decimal?_digits (n : Nat) : decimal? (Decimal.digits n) = some n := by
  obtain ⟨c, cs, hdigits⟩ := List.exists_cons_of_ne_nil (Decimal.digits_ne_nil n)
  have hall : ∀ d ∈ c :: cs, d.isDigit = true := fun d hd =>
    Decimal.isDigit_of_mem_digits (hdigits ▸ hd)
  have hvalue : ofDigits 10 ((c :: cs).map fun d => d.toNat - '0'.toNat) = n := by
    rw [ofDigits_map, ← hdigits, Decimal.value_digits]
  rw [decimal?, hdigits, digits?_of_isDigit hall]
  split
  case h_1 d heq =>
    rw [Option.some.inj heq] at hvalue
    exact congrArg some ((Nat.zero_add d).symm.trans hvalue)
  case h_2 rest hmany heq =>
    -- A zero stands in front of a written number only if nothing follows it.
    cases cs with
    | nil => exact absurd (List.cons.inj (Option.some.inj heq)).2.symm hmany
    | cons d ds =>
      have hlow := (Char.isDigit_iff_toNat.1 (hall c List.mem_cons_self)).1
      have hnone : c.toNat - '0'.toNat = 0 := (List.cons.inj (Option.some.inj heq)).1
      have hzero : c = '0' := Char.toNat_inj.1 (by omega)
      exact absurd hzero (Decimal.ne_zero_of_digits_eq hdigits)
  case h_3 heq => rw [← Option.some.inj heq, hvalue]
  case h_4 heq => exact absurd heq (Option.some_ne_none _)

theorem bounded?_natCast {n : Nat} (h : n < Nat.pow 2 128) :
    bounded? (n : Int) = some (.integer n) := by
  have hlow : -(Nat.pow 2 127 : Int) ≤ n := by
    have : (0 : Int) ≤ (Nat.pow 2 127 : Int) := Int.natCast_nonneg _
    omega
  have hhigh : (n : Int) < (Nat.pow 2 128 : Int) := Int.ofNat_lt.2 h
  exact if_pos ⟨hlow, hhigh⟩

theorem digits_append_ne_cons {c : Char} (h : c.isDigit = false) (n : Nat)
    (rest cs : List Char) : Decimal.digits n ++ rest ≠ c :: cs := by
  intro heq
  obtain ⟨d, ds, hdigits, hdigit⟩ := Decimal.exists_digits_eq_cons n
  rw [hdigits, List.cons_append] at heq
  rw [(List.cons.inj heq).1, h] at hdigit
  exact absurd hdigit (by decide)

theorem digits_ne_cons {c : Char} (h : c.isDigit = false) (n : Nat) (cs : List Char) :
    Decimal.digits n ≠ c :: cs := by
  intro heq
  exact digits_append_ne_cons h n [] cs ((List.append_nil _).trans heq)

theorem sign_digits (n : Nat) : sign (Decimal.digits n) = (false, Decimal.digits n) := by
  rw [sign.eq_def]
  split
  case h_1 heq | h_2 heq => exact absurd heq (digits_ne_cons rfl n _)
  case h_3 => rfl

theorem integer?_digits {n : Nat} (h : n < Nat.pow 2 128) :
    integer? (Decimal.digits n) = some (.integer n) := by
  rw [integer?.eq_def]
  split
  case h_1 heq | h_2 heq | h_3 heq =>
    -- The letter of another base is no digit.
    have hdigit := Decimal.isDigit_of_mem_digits
      (heq ▸ List.mem_cons_of_mem _ List.mem_cons_self)
    exact absurd hdigit (by decide)
  case h_4 =>
    rw [sign_digits]
    dsimp only
    rw [decimal?_digits, Option.bind_some, if_neg (by decide), bounded?_natCast h]

theorem ofWord?_digits {n : Nat} (h : n < Nat.pow 2 128) :
    ofWord? (Decimal.digits n) = some (.integer n) := by
  rw [ofWord?, if_neg (digits_ne_cons rfl n _), if_neg (digits_ne_cons rfl n _),
    integer?_digits h]
  rfl

/-- Digits are a word, which ends with the line. -/
theorem takeWord_digits (n : Nat) (rest : List Char) :
    takeWord (Decimal.digits n ++ '\n' :: rest) = (Decimal.digits n, '\n' :: rest) := by
  have hword : ∀ c ∈ Decimal.digits n, isWordChar c = true := by
    intro c hc
    have halnum : c.isAlphanum = true := by
      rw [Char.isAlphanum, Decimal.isDigit_of_mem_digits hc, Bool.or_true]
    simp only [isWordChar, halnum, Bool.true_or]
  have hend : Run.EndsAt isWordChar ('\n' :: rest) := Run.endsAt_cons (by decide)
  rw [takeWord, Run.takeWhile_append hword hend, Run.dropWhile_append hword hend]
  rfl

end Scalar

/-! ### Values on a line -/

theorem dropBlanks_cons {c : Char} (hspace : c ≠ ' ') (htab : c ≠ '\t') (cs : List Char) :
    dropBlanks (c :: cs) = c :: cs := by
  refine List.dropWhile_cons_of_neg ?_
  rw [Bool.or_eq_true, decide_eq_true_eq, decide_eq_true_eq]
  exact not_or.2 ⟨hspace, htab⟩

/-- **Characters spell a value** where they stand alone up to the end of the line. -/
structure Spells (text : List Char) (value : Value) : Prop where
  /-- They do not begin with a blank, which would be passed over. -/
  front : ∀ rest, dropBlanks (text ++ '\n' :: rest) = text ++ '\n' :: rest
  taken : ∀ rest, takeValue? maxNesting (text ++ '\n' :: rest) = some (value, '\n' :: rest)

theorem Spells.quoted {text : List Char} (h : ∀ c ∈ text, Quoted.IsDirect c) (hsome : text ≠ []) :
    Spells ('"' :: (text ++ ['"'])) (.string (String.ofList text)) where
  front _ := dropBlanks_cons (by decide) (by decide) _
  taken rest := by
    rw [List.cons_append, List.append_assoc, List.singleton_append, takeValue?.eq_def]
    dsimp only
    rw [Quoted.take?_append h hsome]
    rfl

theorem Spells.decimal {n : Nat} (h : n < Nat.pow 2 128) :
    Spells (Decimal.digits n) (.integer n) where
  front rest := by
    obtain ⟨c, cs, hdigits, hdigit⟩ := Decimal.exists_digits_eq_cons n
    rw [hdigits]
    refine dropBlanks_cons ?_ ?_ _ <;>
      · rintro rfl
        exact absurd hdigit (by decide)
  taken rest := by
    rw [takeValue?.eq_def]
    dsimp only
    split
    case h_1 heq | h_2 heq | h_3 heq | h_4 heq =>
      exact absurd heq (Scalar.digits_append_ne_cons rfl n _ _)
    case h_5 =>
      rw [Scalar.takeWord_digits]
      dsimp only
      rw [Scalar.ofWord?_digits h]
      rfl

end DeviceScope.Toml
