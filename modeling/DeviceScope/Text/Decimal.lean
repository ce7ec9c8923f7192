/-!
# Numbers in decimal

Numbers as their decimal digits, and back. `value_digits` says that reading undoes writing;
`digits` writes no leading zero and `padded` writes as many as fill the width.
-/

namespace DeviceScope.Decimal

/-- The decimal digits of a number, without leading zeros. -/
def digits (n : Nat) : List Char := Nat.toDigits 10 n

/-- The number that a run of decimal digits denotes. -/
def value (cs : List Char) : Nat := Nat.ofDigitChars 10 cs 0

/-- The decimal digits of a number, filled up with leading zeros to at least `width` places. -/
def padded (width n : Nat) : List Char :=
  List.replicate (width - (digits n).length) '0' ++ digits n

/-- Reads a run of digits, which has to be the whole text and may not be empty. -/
def read? (cs : List Char) : Option Nat :=
  if !cs.isEmpty && cs.all Char.isDigit then some (value cs) else none

def text (n : Nat) : String := String.ofList (digits n)

/-- The integer as a text: a minus sign before the digits of a negative one. -/
def intText (n : Int) : String :=
  String.ofList (if n < 0 then '-' :: digits n.natAbs else digits n.natAbs)

@[simp] theorem value_digits (n : Nat) : value (digits n) = n :=
  Nat.ofDigitChars_ten_toDigits

theorem digits_ne_nil (n : Nat) : digits n ≠ [] := Nat.toDigits_ne_nil

theorem isDigit_of_mem_digits {n : Nat} {c : Char} (h : c ∈ digits n) : c.isDigit = true :=
  Nat.isDigit_of_mem_toDigits (by decide) (by decide) h

@[simp] theorem value_padded (width n : Nat) : value (padded width n) = n := by
  rw [padded, value, Nat.ofDigitChars_append, Nat.ofDigitChars_replicate_zero]
  exact value_digits n

theorem isDigit_of_mem_padded {width n : Nat} {c : Char} (h : c ∈ padded width n) :
    c.isDigit = true := by
  rcases List.mem_append.1 h with h | h
  · rw [List.eq_of_mem_replicate h]; rfl
  · exact isDigit_of_mem_digits h

/-- A number that fits fills its places exactly. -/
theorem length_padded {width n : Nat} (hwidth : 0 < width) (h : n < Nat.pow 10 width) :
    (padded width n).length = width := by
  have hlength : (digits n).length ≤ width :=
    (Nat.length_toDigits_le_iff (by decide) hwidth).2 h
  rw [padded, List.length_append, List.length_replicate]
  omega

/-- Zeros behind the digits multiply. -/
theorem value_append_zeros (cs : List Char) (count : Nat) :
    value (cs ++ List.replicate count '0') = value cs * Nat.pow 10 count := by
  rw [value, Nat.ofDigitChars_append, Nat.ofDigitChars_replicate_zero, Nat.mul_comm]
  rfl

/-- A run of digits denotes a number that fits in their places. -/
theorem value_lt {cs : List Char} (h : ∀ c ∈ cs, c.isDigit = true) :
    value cs < Nat.pow 10 cs.length := by
  -- Behind what has been read so far each digit adds one place.
  have hplaces : ∀ init, Nat.ofDigitChars 10 cs init < Nat.pow 10 cs.length * (init + 1) := by
    induction cs with
    | nil =>
      intro init
      rw [Nat.ofDigitChars_nil]
      show init < 1 * (init + 1)
      omega
    | cons c cs ih =>
      intro init
      have hdigit := (Char.isDigit_iff_toNat.1 (h c List.mem_cons_self)).2
      have hnine : '9'.toNat = '0'.toNat + 9 := rfl
      have hrest := ih (fun d hd => h d (List.mem_cons_of_mem c hd))
        (10 * init + (c.toNat - '0'.toNat))
      rw [Nat.ofDigitChars_cons]
      refine Nat.lt_of_lt_of_le hrest ?_
      show _ ≤ Nat.pow 10 cs.length * 10 * (init + 1)
      rw [Nat.mul_assoc]
      exact Nat.mul_le_mul_left _ (by omega)
  have hlt := hplaces 0
  rwa [Nat.zero_add, Nat.mul_one] at hlt

/-- A written number begins with a digit. -/
theorem exists_digits_eq_cons (n : Nat) : ∃ c cs, digits n = c :: cs ∧ c.isDigit = true := by
  obtain ⟨c, cs, hdigits⟩ := List.exists_cons_of_ne_nil (digits_ne_nil n)
  exact ⟨c, cs, hdigits, isDigit_of_mem_digits (hdigits ▸ List.mem_cons_self)⟩

/-- No needless zero stands in front of the digits of a number. -/
theorem ne_zero_of_digits_eq {n : Nat} {c d : Char} {cs : List Char}
    (h : digits n = c :: d :: cs) : c ≠ '0' := by
  intro hzero
  -- Without the zero the same number would have fewer places than it takes.
  have hvalue : n = value (d :: cs) := by
    rw [← value_digits n, h, hzero]
    rfl
  have hlt : n < Nat.pow 10 (d :: cs).length :=
    hvalue ▸ value_lt fun e he => isDigit_of_mem_digits (h ▸ List.mem_cons_of_mem c he)
  have hlength : (digits n).length ≤ (d :: cs).length :=
    (Nat.length_toDigits_le_iff (by decide) (Nat.succ_pos _)).2 hlt
  rw [h] at hlength
  exact Nat.not_succ_le_self _ hlength

@[simp] theorem read?_digits (n : Nat) : read? (digits n) = some n := by
  have hall : (digits n).all Char.isDigit = true :=
    List.all_eq_true.2 fun c hc => isDigit_of_mem_digits hc
  have hne : (digits n).isEmpty = false := by
    simpa [List.isEmpty_eq_false_iff] using digits_ne_nil n
  simp [read?, hall, hne]

end DeviceScope.Decimal
