/-!
# Runs of characters

Readers take a run of characters off the front of a text: all that are of one kind, up to the first
that is not. A run that is followed by nothing of the kind (`Run.EndsAt`) is taken as a whole
(`Run.takeWhile_append`, `Run.dropWhile_append`).
-/

namespace DeviceScope.Run

variable {α : Type} {p : α → Bool} {run rest : List α}

/-- **A run ends where the rest begins**: the rest is empty, or it begins with something else. -/
def EndsAt (p : α → Bool) (rest : List α) : Prop := ∀ a ∈ rest.head?, p a = false

theorem endsAt_nil : EndsAt p [] := fun _ h => absurd h (by simp)

theorem endsAt_cons {a : α} (h : p a = false) : EndsAt p (a :: rest) := by
  intro b hb
  rw [List.head?_cons, Option.mem_some_iff] at hb
  exact hb ▸ h

theorem takeWhile_append (hrun : ∀ a ∈ run, p a = true) (hrest : EndsAt p rest) :
    (run ++ rest).takeWhile p = run := by
  rw [List.takeWhile_append_of_pos hrun]
  cases rest with
  | nil => rw [List.takeWhile_nil, List.append_nil]
  | cons a rest =>
    rw [List.takeWhile_cons_of_neg (by rw [hrest a rfl]; decide), List.append_nil]

theorem dropWhile_append (hrun : ∀ a ∈ run, p a = true) (hrest : EndsAt p rest) :
    (run ++ rest).dropWhile p = rest := by
  rw [List.dropWhile_append_of_pos hrun]
  cases rest with
  | nil => rfl
  | cons a rest => exact List.dropWhile_cons_of_neg (by rw [hrest a rfl]; decide)

end DeviceScope.Run
