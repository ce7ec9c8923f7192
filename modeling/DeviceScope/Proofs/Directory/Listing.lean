import DeviceScope.Directory.Basic

/-!
# Walking through a listing

`Listing.Walked` — pages were fetched from a listing, one after another, and this is what is left of
it. Nothing is passed over and nothing is shown twice: what was fetched and what is left make up
what the listing shows (`Walked.pages_eq`), and when nothing is left everything was fetched
(`Walked.flatten_eq`). A directory's own listing shows its identities in the order of their ids,
however long its pages are (`Directory.flatten_pages_listing`).

What is left of a listing is told by the number of pages that it has served (`Listing.Left`). The
pages that were served are the first ones, and they show the identities that come first
(`Directory.flatten_take_listing`).
-/

namespace DeviceScope

theorem flatten_pagesOf {α : Type} (size : Nat) (positive : 0 < size) (list : List α) :
    (pagesOf size positive list).flatten = list := by
  fun_induction pagesOf size positive list with
  | case1 => rfl
  | case2 item rest ih => rw [List.flatten_cons, ih, List.take_append_drop]

/-- **The first pages** show what comes first in the list: each of them `size`, as far as there
are. -/
theorem flatten_take_pagesOf {α : Type} (size : Nat) (positive : 0 < size) (list : List α)
    (count : Nat) :
    ((pagesOf size positive list).take count).flatten = list.take (count * size) := by
  fun_induction pagesOf size positive list generalizing count with
  | case1 => rw [List.take_nil, List.take_nil, List.flatten_nil]
  | case2 item rest ih =>
    cases count with
    | zero => rw [Nat.zero_mul, List.take_zero, List.take_zero, List.flatten_nil]
    | succ count =>
      rw [List.take_succ_cons, List.flatten_cons, ih, Nat.succ_mul, Nat.add_comm, List.take_add]

/-- As many pages are filled as it takes, the last one perhaps in part. -/
theorem length_pagesOf {α : Type} (size : Nat) (positive : 0 < size) (list : List α) :
    (pagesOf size positive list).length = (list.length + size - 1) / size := by
  fun_induction pagesOf size positive list with
  | case1 =>
    rw [List.length_nil, List.length_nil, Nat.div_eq_of_lt (by omega)]
  | case2 item rest ih =>
    rw [List.length_cons, ih, List.length_drop, List.length_cons]
    -- Without its first page the list is shorter by a page, or there was only this one.
    have hlast : rest.length + 1 + size - 1 = rest.length + size := by omega
    rw [hlast, Nat.add_div_right _ positive, Nat.succ_inj]
    by_cases hfull : size ≤ rest.length + 1
    · rw [Nat.sub_add_cancel hfull, Nat.add_sub_cancel]
    · rw [Nat.div_eq_of_lt (by omega), Nat.div_eq_of_lt (by omega)]

namespace Listing

/-- **Pages were fetched** from `opened`, and `rest` is left of it. -/
inductive Walked (opened : Listing) : List (List Identity) → Listing → Prop where
  /-- No page was fetched yet. -/
  | opened : Walked opened [] opened
  /-- One more page. -/
  | fetched {taken : List (List Identity)} {before rest : Listing} {page : List Identity} :
    Walked opened taken before → before.hasNext = true → before.next = (.ok page, rest) →
    Walked opened (taken ++ [page]) rest

/-- **Nothing is wrong with a listing**: it does not break off, and no page of it crashes. -/
structure IsSound (listing : Listing) : Prop where
  failure_eq : listing.failure = none
  crash_eq : listing.crash = none

theorem crashes_eq_false {listing : Listing} (h : listing.crash = none) :
    listing.crashes = false := by
  rw [crashes, h]
  rfl

/-- **A page that is fetched** is the first one that is left, and the listing does not break off
there. -/
theorem of_next_ok {listing rest : Listing} {page : List Identity}
    (h : listing.next = (.ok page, rest)) :
    page = listing.pages.head?.getD [] ∧
      rest = { listing with pages := listing.pages.tail, served := listing.served + 1 } ∧
      ∀ failure, listing.failure = some failure → failure.1 ≠ listing.served := by
  rw [next] at h
  split at h
  · next broken error hfailure =>
    split at h
    · exact absurd (Prod.mk.inj h).1 (by simp)
    · next hlater =>
      obtain ⟨hpage, hrest⟩ := Prod.mk.inj h
      refine ⟨(Except.ok.inj hpage).symm, hrest.symm, ?_⟩
      intro failure heq
      rw [hfailure] at heq
      rwa [← Option.some.inj heq]
  · next hnone =>
    obtain ⟨hpage, hrest⟩ := Prod.mk.inj h
    refine ⟨(Except.ok.inj hpage).symm, hrest.symm, ?_⟩
    intro failure heq
    rw [hnone] at heq
    exact absurd heq (by simp)

/-- A listing that breaks off does so at the page at which it was to. -/
theorem of_next_error {listing rest : Listing} {error : DirectoryError}
    (h : listing.next = (.error error, rest)) : listing.failure = some (listing.served, error) := by
  rw [next] at h
  split at h
  · next page failure hfailure =>
    split at h
    · next hpage =>
      rw [hfailure, hpage, Except.error.inj (Prod.mk.inj h).1]
    · exact absurd (Prod.mk.inj h).1 (by simp)
  · exact absurd (Prod.mk.inj h).1 (by simp)

theorem flatten_pages_of_next {listing rest : Listing} {page : List Identity}
    (h : listing.next = (.ok page, rest)) : listing.pages.flatten = page ++ rest.pages.flatten := by
  obtain ⟨rfl, rfl, -⟩ := of_next_ok h
  cases listing.pages with
  | nil => rfl
  | cons first others => rfl

/-- **What was fetched and what is left** make up what the listing shows. -/
theorem Walked.pages_eq {opened rest : Listing} {taken : List (List Identity)}
    (h : Walked opened taken rest) :
    taken.flatten ++ rest.pages.flatten = opened.pages.flatten := by
  induction h with
  | opened => rfl
  | fetched _ _ hnext ih =>
    rw [← ih, flatten_pages_of_next hnext, List.flatten_append, List.flatten_singleton,
      List.append_assoc]

/-- When nothing is left, no page is. -/
theorem pages_eq_nil_of_hasNext {listing : Listing} (h : listing.hasNext = false) :
    listing.pages = [] := by
  rw [hasNext, Bool.or_eq_false_iff] at h
  simpa using h.1

/-- **A listing that was walked to its end was fetched whole.** -/
theorem Walked.flatten_eq {opened rest : Listing} {taken : List (List Identity)}
    (h : Walked opened taken rest) (hend : rest.hasNext = false) :
    taken.flatten = opened.pages.flatten := by
  have hpages := h.pages_eq
  rwa [pages_eq_nil_of_hasNext hend, List.flatten_nil, List.append_nil] at hpages

/-- What was fetched is part of what the listing shows. -/
theorem Walked.mem_of_mem {opened rest : Listing} {taken : List (List Identity)}
    (h : Walked opened taken rest) {identity : Identity} (hmem : identity ∈ taken.flatten) :
    identity ∈ opened.pages.flatten := by
  rw [← h.pages_eq]
  exact List.mem_append_left _ hmem

/-! ### How many pages were served -/

/-- **What is left of a listing**, by the number of pages that it has served. -/
structure Left (opened rest : Listing) : Prop where
  pages_eq : rest.pages = opened.pages.drop rest.served
  failure_eq : rest.failure = opened.failure
  delay_eq : rest.delay = opened.delay
  crash_eq : rest.crash = opened.crash
  /-- The page at which the listing breaks off is still to come. -/
  served_le : ∀ failure, opened.failure = some failure → rest.served ≤ failure.1
  /-- The pages that were served and those that remain are all that there are to be. -/
  served_add_remaining : rest.served + rest.remaining = opened.remaining

/-- When a page is fetched, one less remains. -/
theorem Left.next {opened before rest : Listing} {page : List Identity} (h : Left opened before)
    (hmore : before.hasNext = true) (hnext : before.next = (.ok page, rest)) :
    Left opened rest := by
  obtain ⟨-, rfl, hlater⟩ := of_next_ok hnext
  have hserved : ∀ failure, opened.failure = some failure → before.served + 1 ≤ failure.1 := by
    intro failure hfailure
    have hle := h.served_le failure hfailure
    have hne := hlater failure (h.failure_eq.trans hfailure)
    omega
  refine ⟨?_, h.failure_eq, h.delay_eq, h.crash_eq, hserved, ?_⟩
  · show before.pages.tail = _
    rw [h.pages_eq, List.tail_drop]
  · rw [← h.served_add_remaining]
    have hpos := (hasNext_iff before).1 hmore
    rw [← h.failure_eq] at hserved
    unfold remaining at hpos ⊢
    -- Up to the failure the pages are counted by number, and without one by what is there.
    cases hfailure : before.failure with
    | none =>
      rw [hfailure] at hpos
      dsimp only at hpos ⊢
      rw [List.length_tail]
      omega
    | some failure =>
      have hbelow := hserved failure hfailure
      dsimp only
      rw [if_pos hbelow, if_pos (by omega)]
      omega

theorem Walked.left {opened rest : Listing} {taken : List (List Identity)}
    (h : Walked opened taken rest) (hserved : opened.served = 0) : Left opened rest := by
  induction h with
  | opened =>
    refine ⟨?_, rfl, rfl, rfl, ?_, ?_⟩
    · rw [hserved, List.drop_zero]
    · intro failure _
      rw [hserved]
      exact Nat.zero_le _
    · rw [hserved, Nat.zero_add]
  | fetched _ hmore hnext ih => exact ih.next hmore hnext

/-- What was fetched is what the pages show that were served. -/
theorem Walked.flatten_eq_take {opened rest : Listing} {taken : List (List Identity)}
    (h : Walked opened taken rest) (hserved : opened.served = 0) :
    taken.flatten = (opened.pages.take rest.served).flatten := by
  have hpages := h.pages_eq
  rw [(h.left hserved).pages_eq] at hpages
  -- The pages that are left are the same on both sides.
  have hparts : (opened.pages.take rest.served).flatten ++ (opened.pages.drop rest.served).flatten =
      opened.pages.flatten := by
    rw [← List.flatten_append, List.take_append_drop]
  exact List.append_cancel_right (hpages.trans hparts.symm)

/-- A listing that does not break off takes as many pages as it has. -/
theorem remaining_of_failure_eq_none {listing : Listing} (h : listing.failure = none) :
    listing.remaining = listing.pages.length := by
  rw [remaining, h]

/-- A listing that breaks off does so when as many pages were served. -/
theorem remaining_of_failure_eq_some {listing : Listing} {page : Nat} {error : DirectoryError}
    (h : listing.failure = some (page, error)) (hserved : listing.served = 0) :
    listing.remaining = page + 1 := by
  rw [remaining, h, hserved]
  rfl

end Listing

namespace Directory

/-- **A listing shows the identities of the directory**, whatever the size of its pages. -/
theorem flatten_pages_listing {directory : Directory} (h : directory.reachable = true) :
    directory.listing.pages.flatten = directory.identities.values := by
  rw [listing, if_pos h]
  exact flatten_pagesOf _ _ _

/-- The first pages show the identities that come first. -/
theorem flatten_take_listing {directory : Directory} (h : directory.reachable = true)
    (count : Nat) :
    (directory.listing.pages.take count).flatten =
      directory.identities.values.take (count * directory.pageSize) := by
  rw [listing, if_pos h]
  exact flatten_take_pagesOf _ _ _ _

/-- The number of pages that a listing takes: as many as are filled, or up to the one at which it
breaks off. -/
def fetches (directory : Directory) : Nat :=
  match directory.listingFailure with
  | some (page, _) => page + 1
  | none => (directory.identities.size + directory.pageSize - 1) / directory.pageSize

theorem remaining_listing {directory : Directory} (h : directory.reachable = true) :
    directory.listing.remaining = directory.fetches := by
  rw [listing, if_pos h, fetches]
  split
  · next page error hfailure => exact Listing.remaining_of_failure_eq_some hfailure rfl
  · next hfailure =>
    rw [Listing.remaining_of_failure_eq_none hfailure, length_pagesOf, Ledger.values,
      List.length_map, Ledger.size]

/-- A listing that is opened is the listing of what the directory holds at this moment. -/
theorem eq_listing_of_openListing? {directory later : Directory} {opened : Listing}
    (h : directory.openListing? = (some opened, later)) : opened = directory.listing := by
  rw [openListing?] at h
  split at h
  · exact (Option.some.inj (Prod.mk.inj h).1).symm
  · split at h
    · exact absurd (Prod.mk.inj h).1 (by simp)
    · exact (Option.some.inj (Prod.mk.inj h).1).symm

end Directory

end DeviceScope
