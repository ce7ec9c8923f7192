import DeviceScope.Fault
import DeviceScope.Identity.Basic
import DeviceScope.Time.Span

/-!
# Listings

A listing shows all identities of a directory page by page. It is opened on what the directory
holds at that moment, and nothing that happens to the directory later changes it.
-/

namespace DeviceScope

/-- The rest of a listing. -/
structure Listing where
  /-- The pages still to come. -/
  pages : List (List Identity)
  /-- How many pages have been served. -/
  served : Nat
  /-- The page, counted from zero, at which the listing breaks off, and the error. -/
  failure : Option (Nat × DirectoryError)
  /-- How long each page takes. -/
  delay : Option Span
  /-- The page, counted from zero, at which whoever fetches it crashes. -/
  crash : Option Nat
  deriving DecidableEq, Inhabited

/-- Cuts a list into pieces of `size`, which has to be positive; the last piece may be shorter. -/
def pagesOf {α : Type} (size : Nat) (positive : 0 < size) : List α → List (List α)
  | [] => []
  | item :: rest =>
    (item :: rest).take size :: pagesOf size positive ((item :: rest).drop size)
termination_by list => list.length
decreasing_by simp [List.length_drop]; omega

namespace Listing

/-- Whether there is anything to come: a page, or the failure. -/
def hasNext (listing : Listing) : Bool :=
  !listing.pages.isEmpty || listing.failure.any fun failure => listing.served ≤ failure.1

/-- The next page and the rest of the listing. Beyond the last page, pages are empty; after a
failure nothing is left. -/
def next (listing : Listing) : Except DirectoryError (List Identity) × Listing :=
  let turn := { listing with pages := listing.pages.tail, served := listing.served + 1 }
  match listing.failure with
  | some (page, error) =>
    if page = listing.served then (.error error, { listing with pages := [], failure := none })
    else (.ok (listing.pages.head?.getD []), turn)
  | none => (.ok (listing.pages.head?.getD []), turn)

/-- Whether fetching the next page crashes. -/
def crashes (listing : Listing) : Bool := listing.crash = some listing.served

/-- How many pages are to come before nothing is left. -/
def remaining (listing : Listing) : Nat :=
  match listing.failure with
  | some (page, _) =>
    if listing.served ≤ page then page - listing.served + 1 else listing.pages.length
  | none => listing.pages.length

/-- Something is left exactly as long as pages remain. -/
theorem hasNext_iff (listing : Listing) : listing.hasNext = true ↔ 0 < listing.remaining := by
  unfold hasNext remaining
  cases listing.failure with
  | none => simp [List.length_pos_iff]
  | some failure =>
    simp only [Option.any_some, Bool.or_eq_true, decide_eq_true_eq]
    split
    · next h => simp [h]
    · next h => simp [h, List.length_pos_iff]

/-- Each page brings the end nearer. -/
theorem remaining_next_lt {listing : Listing} (h : listing.hasNext = true) :
    listing.next.2.remaining < listing.remaining := by
  have hpos := (hasNext_iff listing).1 h
  unfold next remaining at *
  cases hf : listing.failure with
  | none =>
    simp only [hf] at hpos ⊢
    rw [List.length_tail]
    omega
  | some failure =>
    obtain ⟨page, error⟩ := failure
    simp only [hf] at hpos ⊢
    by_cases hs : page = listing.served
    · simp [hs]
    · simp only [hs, if_false, List.length_tail]
      split at hpos <;> split <;> omega

/-- Fetches pages until nothing is left or one fails. -/
def drain (listing : Listing) : List (Except DirectoryError (List Identity)) :=
  if h : listing.hasNext then
    match hn : listing.next with
    | (.ok page, rest) =>
      have : rest.remaining < listing.remaining := by
        have := remaining_next_lt h
        rw [hn] at this
        exact this
      .ok page :: rest.drain
    | (.error error, _) => [.error error]
  else []
termination_by listing.remaining

end Listing

end DeviceScope
