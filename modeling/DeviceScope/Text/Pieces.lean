/-!
# The pieces of a text

A mark cuts a text into pieces, one more than there are marks. With a mark between any two of
them the pieces make up the text again (`join_ofText`).
-/

namespace DeviceScope.Pieces

/-- The pieces of a text between marks. -/
def ofText (mark : Char) : List Char → List (List Char)
  | [] => [[]]
  | c :: cs =>
    if c = mark then [] :: ofText mark cs
    else
      match ofText mark cs with
      | [] => [[c]]
      | piece :: rest => (c :: piece) :: rest

/-- Pieces with a mark between any two of them. -/
def join (mark : Char) : List (List Char) → List Char
  | [] => []
  | [piece] => piece
  | piece :: rest => piece ++ mark :: join mark rest

theorem ofText_ne_nil (mark : Char) : ∀ cs, ofText mark cs ≠ []
  | [] => by simp [ofText]
  | c :: cs => by
    unfold ofText
    split
    · simp
    · split <;> simp

/-- The pieces make up the text. -/
@[simp] theorem join_ofText (mark : Char) (cs : List Char) : join mark (ofText mark cs) = cs := by
  induction cs with
  | nil => rfl
  | cons c cs ih =>
    unfold ofText
    split
    · next h =>
      subst h
      cases hp : ofText c cs with
      | nil => exact absurd hp (ofText_ne_nil c cs)
      | cons piece rest => rw [hp] at ih; simp [join, ih]
    · split
      · next hp => exact absurd hp (ofText_ne_nil mark cs)
      · next piece rest hp =>
        rw [hp] at ih
        cases rest with
        | nil => simpa [join] using ih
        | cons next rest => simpa [join] using ih

/-- Two texts with a mark between them have the pieces of both. -/
theorem ofText_append (mark : Char) (front back : List Char) :
    ofText mark (front ++ mark :: back) = ofText mark front ++ ofText mark back := by
  induction front with
  | nil => simp [ofText]
  | cons c cs ih =>
    rw [List.cons_append, ofText, ofText, ih]
    split
    · rfl
    · cases hp : ofText mark cs with
      | nil => exact absurd hp (ofText_ne_nil mark cs)
      | cons piece rest => rfl

/-- A text without a mark is one piece. -/
theorem ofText_of_not_mem {mark : Char} {cs : List Char} (h : mark ∉ cs) :
    ofText mark cs = [cs] := by
  induction cs with
  | nil => rfl
  | cons c cs ih =>
    rw [List.mem_cons, not_or] at h
    rw [ofText, if_neg fun heq => h.1 heq.symm, ih h.2]

end DeviceScope.Pieces
