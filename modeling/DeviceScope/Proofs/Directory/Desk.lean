import DeviceScope.Proofs.Directory.History

/-!
# Listings side by side

A directory and all listings that were opened on it (`Desk`). Whatever happens to the directory, and
whichever listings are opened and fetched from meanwhile, what a listing gives depends on nothing
but how often something was fetched from it (`Desk.run_of_getElem?`), and shows the directory as it
was when the listing was opened (`Desk.listings_show_what_was_held`).
-/

namespace DeviceScope

/-- A directory, and the listings that were opened on it, the first one first. -/
structure Desk where
  directory : Directory
  listings : List Listing

namespace Desk

/-- What happens at a desk. -/
inductive Event where
  /-- Something is done to the directory. -/
  | act (act : Directory.Act)
  | openListing
  /-- The next page is fetched from the listing of this number. -/
  | fetch (number : Nat)
  deriving DecidableEq

/-- An empty directory on which no listing was opened. -/
def blank : Desk := ⟨.empty, []⟩

def after (desk : Desk) : Event → Desk
  | .act act => { desk with directory := desk.directory.after act }
  | .openListing =>
    let (opened, directory) := desk.directory.openListing?
    ⟨directory, desk.listings ++ opened.toList⟩
  | .fetch number =>
    { desk with listings := desk.listings.modify number fun listing => listing.next.2 }

/-- What an event gives of the listing of a number. -/
def given (desk : Desk) (number : Nat) : Event → List (Except DirectoryError (List Identity))
  | .fetch other =>
    if other = number then (desk.listings[number]?.map fun listing => listing.next.1).toList else []
  | .act _ | .openListing => []

/-- The desk after events, one after another. -/
def run (desk : Desk) (events : List Event) : Desk := events.foldl after desk

/-- What was fetched from the listing of a number in the course of events. -/
def fetched (desk : Desk) (number : Nat) :
    List Event → List (Except DirectoryError (List Identity))
  | [] => []
  | event :: events => desk.given number event ++ (desk.after event).fetched number events

/-! ### One listing among others -/

/-- An event that is not a fetch from a listing leaves it as it is, and gives nothing of it. -/
theorem after_of_ne {desk : Desk} {number : Nat} {listing : Listing} {event : Event}
    (h : desk.listings[number]? = some listing) (hne : event ≠ .fetch number) :
    (desk.after event).listings[number]? = some listing ∧ desk.given number event = [] := by
  cases event with
  | act act => exact ⟨h, rfl⟩
  | openListing =>
    refine ⟨?_, rfl⟩
    obtain ⟨hlt, -⟩ := List.getElem?_eq_some_iff.1 h
    exact (List.getElem?_append_left hlt).trans h
  | fetch other =>
    have hother : other ≠ number := fun heq => hne (congrArg Event.fetch heq)
    refine ⟨?_, if_neg hother⟩
    exact (List.getElem?_modify_ne _ _ hother).trans h

/-- A fetch from a listing gives its next page. -/
theorem after_fetch {desk : Desk} {number : Nat} {listing : Listing}
    (h : desk.listings[number]? = some listing) :
    (desk.after (.fetch number)).listings[number]? = some listing.next.2 ∧
      desk.given number (.fetch number) = [listing.next.1] := by
  constructor
  · show (desk.listings.modify number _)[number]? = _
    rw [List.getElem?_modify_eq, h]
    rfl
  · rw [given, if_pos rfl, h]
    rfl

/-- **A listing among others** gives what it would give alone. -/
theorem run_of_getElem? {desk : Desk} {number : Nat} {listing : Listing}
    (h : desk.listings[number]? = some listing) (events : List Event) :
    (desk.run events).listings[number]? = some (listing.advance (events.count (.fetch number))) ∧
      desk.fetched number events = listing.answers (events.count (.fetch number)) := by
  -- Both the desk and the listing change on the way, so the induction is for all of them.
  induction events generalizing desk listing with
  | nil => exact ⟨h, rfl⟩
  | cons event events ih =>
    by_cases hevent : event = .fetch number
    · subst hevent
      obtain ⟨hnext, hgiven⟩ := after_fetch h
      obtain ⟨hlistings, hfetched⟩ := ih hnext
      rw [List.count_cons_self, fetched, hgiven, hfetched]
      exact ⟨hlistings, rfl⟩
    · obtain ⟨hsame, hgiven⟩ := after_of_ne h hevent
      obtain ⟨hlistings, hfetched⟩ := ih hsame
      rw [List.count_cons_of_ne hevent, fetched, hgiven, hfetched]
      exact ⟨hlistings, rfl⟩

/-! ### The directory at a desk -/

/-- The directory is one in memory, and no listing of it crashes. -/
structure Sound (desk : Desk) : Prop where
  inMemory : desk.directory.InMemory
  crashesNext : desk.directory.crashesNext = false

theorem Sound.openListing?_eq {desk : Desk} (h : desk.Sound) :
    desk.directory.openListing? = (some desk.directory.listing,
      { desk.directory with listings := desk.directory.listings + 1 }) := by
  simp [Directory.openListing?, h.inMemory.reachable, h.crashesNext]

theorem Sound.after {desk : Desk} (h : desk.Sound) (event : Event) : (desk.after event).Sound := by
  cases event with
  | act act =>
    refine ⟨h.inMemory.after act, ?_⟩
    cases act with
    | lookup key =>
      -- Only the opening of a listing uses up a crash, and looking up counts and no more.
      show (desk.directory.lookup key).2.crashesNext = false
      rw [Directory.lookup, h.inMemory.reachable]
      exact h.crashesNext
    | _ => exact h.crashesNext
  | openListing =>
    refine ⟨h.inMemory.openListing, ?_⟩
    show desk.directory.openListing?.2.crashesNext = false
    rw [h.openListing?_eq]
    exact h.crashesNext
  | fetch number => exact ⟨h.inMemory, h.crashesNext⟩

theorem Sound.run {desk : Desk} (h : desk.Sound) (events : List Event) :
    (desk.run events).Sound := by
  induction events generalizing desk with
  | nil => exact h
  | cons event events ih => exact ih (h.after event)

theorem sound_blank : blank.Sound := ⟨.empty, rfl⟩

/-- The number of identities on a page that an event asks for. -/
def Event.pageSize? : Event → Option Nat
  | .act action => action.pageSize?
  | .openListing | .fetch _ => none

theorem pageSize_after (desk : Desk) (event : Event) :
    (desk.after event).directory.pageSize =
      (event.pageSize?.map (max · 1)).getD desk.directory.pageSize := by
  cases event with
  | act act => exact desk.directory.pageSize_after act
  | openListing =>
    show desk.directory.openListing?.2.pageSize = desk.directory.pageSize
    rw [Directory.openListing?]
    split
    · rfl
    · split <;> rfl
  | fetch number => rfl

/-- **The page size is the last one that was asked for**, but at least one, and as it was at first
if none was. A listing that is opened is cut into pages of this size. -/
theorem pageSize_run (desk : Desk) (events : List Event) :
    (desk.run events).directory.pageSize =
      ((events.filterMap Event.pageSize?).getLast?.map (max · 1)).getD desk.directory.pageSize := by
  induction events generalizing desk with
  | nil => rfl
  | cons event events ih =>
    refine (ih (desk.after event)).trans ?_
    rw [pageSize_after]
    cases hsize : event.pageSize? with
    | none =>
      rw [List.filterMap_cons_none hsize]
      rfl
    | some size =>
      -- This size counts unless another one follows.
      rw [List.filterMap_cons_some hsize, List.getLast?_cons]
      cases (events.filterMap Event.pageSize?).getLast? <;> rfl

/-- The listing that is opened is that of what the directory holds. -/
theorem Sound.getElem?_openListing {desk : Desk} (h : desk.Sound) :
    (desk.after .openListing).listings[desk.listings.length]? = some desk.directory.listing := by
  show (desk.listings ++ desk.directory.openListing?.1.toList)[desk.listings.length]? = _
  rw [h.openListing?_eq]
  exact List.getElem?_concat_length

/-- **A listing shows what was held when it was opened**, whatever happened before and happens
after, to the directory and to other listings.

It gives the pages of what the directory held, if it was not to break off; otherwise it gives as
many as come before the page at which it was to, empty ones after the last, and the failure. Fetched
from as long as something is left, it comes to its end with just this; something is left until all
of it was fetched, and empty pages are all that is fetched then. -/
theorem listings_show_what_was_held (before : List Event) :
    let desk := blank.run before
    let number := desk.listings.length
    let failure := desk.directory.listingFailure
    ∃ pages, desk.directory.Paged pages ∧
      desk.directory.listing.drain = Listing.given pages failure ∧
      ∀ events : List Event,
        let opened := desk.after .openListing
        let fetches := events.count (.fetch number)
        let whole := Listing.given pages failure
        opened.fetched number events =
            whole.take fetches ++ List.replicate (fetches - whole.length) (.ok []) ∧
          ∃ rest, (opened.run events).listings[number]? = some rest ∧
            (rest.hasNext = true ↔ fetches < whole.length) := by
  intro desk number failure
  have hsound : desk.Sound := sound_blank.run before
  have hcome := Directory.toCome_listing hsound.inMemory.reachable
  refine ⟨_, hsound.inMemory.paged, (Listing.drain_eq_toCome _).trans hcome, ?_⟩
  intro events opened fetches whole
  -- The directory plays no part from here on: the listing is told by the count of fetches alone.
  obtain ⟨hrest, hfetched⟩ := run_of_getElem? hsound.getElem?_openListing events
  rw [Listing.answers_eq, hcome] at hfetched
  refine ⟨hfetched, _, hrest, ?_⟩
  rw [Listing.hasNext_advance, hcome]

end Desk

end DeviceScope
