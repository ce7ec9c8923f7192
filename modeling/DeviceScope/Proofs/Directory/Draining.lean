import DeviceScope.Proofs.Directory.Memory
import DeviceScope.Proofs.Text.Utf8

/-!
# Draining a listing

What fetching from a listing gives, one page after another until nothing is left, is written down in
advance (`Listing.toCome`): the pages, or, if the listing is to break off, as many pages as come
before, empty ones after the last, and the failure. Each fetch takes the first of it
(`Listing.next_of_toCome_eq_cons`), something is left exactly as long as this is not all
(`Listing.hasNext_eq`), and so draining gives just this (`Listing.drain_eq_toCome`).

The pages are those of what the directory holds (`Directory.Paged`): in the order of the bytes of
the ids, each page full but the last.
-/

namespace DeviceScope

/-! ### Full pages -/

theorem ne_nil_of_mem_pagesOf {α : Type} (size : Nat) (positive : 0 < size) (list : List α) :
    ∀ page ∈ pagesOf size positive list, page ≠ [] := by
  fun_induction pagesOf size positive list with
  | case1 => exact fun _ hmem => absurd hmem List.not_mem_nil
  | case2 item rest ih =>
    intro page hmem
    rcases List.mem_cons.1 hmem with rfl | hmem
    · rw [ne_eq, List.take_eq_nil_iff]
      rintro (rfl | hnil)
      · exact Nat.lt_irrefl 0 positive
      · exact List.cons_ne_nil _ _ hnil
    · exact ih page hmem

theorem length_le_of_mem_pagesOf {α : Type} (size : Nat) (positive : 0 < size) (list : List α) :
    ∀ page ∈ pagesOf size positive list, page.length ≤ size := by
  fun_induction pagesOf size positive list with
  | case1 => exact fun _ hmem => absurd hmem List.not_mem_nil
  | case2 item rest ih =>
    intro page hmem
    rcases List.mem_cons.1 hmem with rfl | hmem
    · exact List.length_take_le _ _
    · exact ih page hmem

/-- All pages but the last one are full. -/
theorem length_eq_of_mem_dropLast_pagesOf {α : Type} (size : Nat) (positive : 0 < size)
    (list : List α) : ∀ page ∈ (pagesOf size positive list).dropLast, page.length = size := by
  fun_induction pagesOf size positive list with
  | case1 => exact fun _ hmem => absurd hmem List.not_mem_nil
  | case2 item rest ih =>
    intro page hmem
    -- If another page follows, the first one does not take in everything.
    rcases hlater : (item :: rest).drop size with _ | ⟨next, others⟩
    · rw [hlater, pagesOf] at hmem
      exact absurd hmem List.not_mem_nil
    · have hmore : pagesOf size positive ((item :: rest).drop size) ≠ [] := by
        rw [hlater, pagesOf]
        exact List.cons_ne_nil _ _
      rw [List.dropLast_cons_of_ne_nil hmore] at hmem
      rcases List.mem_cons.1 hmem with rfl | hmem
      · have hlength := congrArg List.length hlater
        simp only [List.length_drop, List.length_cons] at hlength
        rw [List.length_take, List.length_cons]
        omega
      · exact ih page hmem

namespace Listing

/-! ### What is to come -/

/-- **What fetching gives** until nothing is left: the pages, or, if the listing breaks off, as many
as come before, empty ones after the last page, and the failure. -/
def given (pages : List (List Identity)) :
    Option (Nat × DirectoryError) → List (Except DirectoryError (List Identity))
  | none => pages.map .ok
  | some (page, error) =>
    (pages.take page).map .ok ++ (List.replicate (page - pages.length) (.ok []) ++ [.error error])

/-- What fetching from the rest of a listing gives. A failure that was passed over never comes. -/
def toCome (listing : Listing) : List (Except DirectoryError (List Identity)) :=
  match listing.failure with
  | none => given listing.pages none
  | some (page, error) =>
    given listing.pages
      (if listing.served ≤ page then some (page - listing.served, error) else none)

/-- Something is left exactly as long as there is something to come. -/
theorem hasNext_eq (listing : Listing) : listing.hasNext = !listing.toCome.isEmpty := by
  obtain ⟨pages, served, failure, delay⟩ := listing
  unfold hasNext toCome given
  rcases failure with _ | ⟨page, error⟩
  · cases pages <;> rfl
  · by_cases hserved : served ≤ page
    · simp [hserved]
    · cases pages <;> simp [hserved]

/-- When nothing is to come, fetching gives an empty page, and still nothing is to come. -/
theorem next_of_toCome_eq_nil {listing : Listing} (h : listing.toCome = []) :
    listing.next.1 = .ok [] ∧ listing.next.2.toCome = [] := by
  obtain ⟨pages, served, failure, delay⟩ := listing
  unfold toCome given at h
  rcases failure with _ | ⟨page, error⟩
  · obtain rfl := List.map_eq_nil_iff.1 h
    exact ⟨rfl, rfl⟩
  · by_cases hserved : served ≤ page
    · simp [hserved] at h
    · simp only [hserved, if_false, List.map_eq_nil_iff] at h
      subst h
      have hne : page ≠ served := by omega
      have hpassed : ¬ served + 1 ≤ page := by omega
      simp [next, toCome, given, hne, hpassed]

/-- **A fetch takes the first of what is to come.** -/
theorem next_of_toCome_eq_cons {listing : Listing}
    {first : Except DirectoryError (List Identity)}
    {others : List (Except DirectoryError (List Identity))} (h : listing.toCome = first :: others) :
    listing.next.1 = first ∧ listing.next.2.toCome = others := by
  obtain ⟨pages, served, failure, delay⟩ := listing
  rcases failure with _ | ⟨page, error⟩
  · -- Without a failure the pages come one after another.
    obtain ⟨head, tail, rfl, rfl, rfl⟩ := List.map_eq_cons_iff.1 h
    exact ⟨rfl, rfl⟩
  · unfold toCome at h
    dsimp only at h
    by_cases hserved : served ≤ page
    · rw [if_pos hserved] at h
      rcases Nat.lt_or_eq_of_le hserved with hlater | rfl
      · -- The failure comes later: a page comes before it, or an empty one.
        obtain ⟨between, hbetween⟩ : ∃ between, page - served = between + 1 :=
          ⟨page - served - 1, by omega⟩
        have hne : page ≠ served := by omega
        have hrest : page - (served + 1) = between := by omega
        rw [hbetween] at h
        cases pages with
        | nil =>
          obtain ⟨rfl, rfl⟩ := List.cons.inj h
          simp [next, toCome, given, hne, Nat.succ_le_of_lt hlater, hrest]
        | cons head tail =>
          rw [given, List.length_cons, Nat.add_sub_add_right] at h
          obtain ⟨rfl, rfl⟩ := List.cons.inj h
          simp [next, toCome, given, hne, Nat.succ_le_of_lt hlater, hrest]
      · -- The failure comes now, and after it nothing does.
        rw [Nat.sub_self, given, List.take_zero, Nat.zero_sub] at h
        obtain ⟨rfl, rfl⟩ := List.cons.inj h
        simp [next, toCome, given]
    · -- The failure was passed over.
      rw [if_neg hserved] at h
      obtain ⟨head, tail, rfl, rfl, rfl⟩ := List.map_eq_cons_iff.1 h
      have hne : page ≠ served := by omega
      have hpassed : ¬ served + 1 ≤ page := by omega
      simp [next, toCome, given, hne, hpassed]

/-- After a failure nothing is to come. -/
theorem toCome_of_next_error {listing rest : Listing} {error : DirectoryError}
    (h : listing.next = (.error error, rest)) : rest.toCome = [] := by
  rw [next, of_next_error h] at h
  dsimp only at h
  rw [if_pos rfl] at h
  obtain rfl := (Prod.mk.inj h).2
  rfl

/-- **Draining a listing gives what was to come.** -/
theorem drain_eq_toCome (listing : Listing) : listing.drain = listing.toCome := by
  -- Whether something is left is decided by what is to come, so the cases of draining are told by
  -- the first of it.
  fun_induction drain listing with
  | case1 listing hmore page rest hnext _ ih =>
    cases hcome : listing.toCome with
    | nil => simp [hasNext_eq, hcome] at hmore
    | cons first others =>
      obtain ⟨hfirst, hothers⟩ := next_of_toCome_eq_cons hcome
      rw [hnext] at hfirst hothers
      rw [ih, ← hfirst, ← hothers]
  | case2 listing hmore error rest hnext =>
    cases hcome : listing.toCome with
    | nil => simp [hasNext_eq, hcome] at hmore
    | cons first others =>
      obtain ⟨hfirst, hothers⟩ := next_of_toCome_eq_cons hcome
      rw [hnext] at hfirst hothers
      rw [← hfirst, ← hothers, toCome_of_next_error hnext]
  | case3 listing hend =>
    rw [hasNext_eq] at hend
    have hnothing : listing.toCome = [] := by simpa using hend
    exact hnothing.symm

/-! ### One fetch after another -/

/-- The listing after so many fetches. -/
def advance (listing : Listing) : Nat → Listing
  | 0 => listing
  | count + 1 => listing.next.2.advance count

/-- What so many fetches give. -/
def answers (listing : Listing) : Nat → List (Except DirectoryError (List Identity))
  | 0 => []
  | count + 1 => listing.next.1 :: listing.next.2.answers count

theorem toCome_advance (listing : Listing) (count : Nat) :
    (listing.advance count).toCome = listing.toCome.drop count := by
  induction count generalizing listing with
  | zero => rfl
  | succ count ih =>
    rw [advance, ih]
    cases hcome : listing.toCome with
    | nil => rw [(next_of_toCome_eq_nil hcome).2, List.drop_nil, List.drop_nil]
    | cons first others => rw [(next_of_toCome_eq_cons hcome).2, List.drop_succ_cons]

/-- Something is left until everything that was to come has come. -/
theorem hasNext_advance (listing : Listing) (count : Nat) :
    (listing.advance count).hasNext = true ↔ count < listing.toCome.length := by
  rw [hasNext_eq, toCome_advance]
  simp

/-- **So many fetches** give as much of what was to come, and then empty pages. -/
theorem answers_eq (listing : Listing) (count : Nat) :
    listing.answers count =
      listing.toCome.take count ++
        List.replicate (count - listing.toCome.length) (.ok []) := by
  induction count generalizing listing with
  | zero => rw [List.take_zero, Nat.zero_sub]; rfl
  | succ count ih =>
    rw [answers, ih]
    cases hcome : listing.toCome with
    | nil =>
      -- Past the end each fetch adds one empty page.
      obtain ⟨hfirst, hothers⟩ := next_of_toCome_eq_nil hcome
      rw [hfirst, hothers, List.take_nil, List.take_nil, List.length_nil, Nat.sub_zero,
        Nat.sub_zero, List.replicate_succ]
      rfl
    | cons first others =>
      obtain ⟨hfirst, hothers⟩ := next_of_toCome_eq_cons hcome
      rw [hfirst, hothers, List.take_succ_cons, List.length_cons, Nat.add_sub_add_right,
        List.cons_append]

end Listing

namespace Directory

/-- **The pages of what a directory holds**: all its identities, each once, in ascending order of
the bytes of their ids. Every page but the last one is full, and none is empty. -/
structure Paged (directory : Directory) (pages : List (List Identity)) : Prop where
  mem_iff : ∀ identity,
    identity ∈ pages.flatten ↔ directory.identities.get? identity.id = some identity
  ascending : (pages.flatten.map fun identity => Utf8.encode identity.id.toList).Pairwise (· < ·)
  full : ∀ page ∈ pages.dropLast, page.length = directory.pageSize
  length_le : ∀ page ∈ pages, page.length ≤ directory.pageSize
  ne_nil : ∀ page ∈ pages, page ≠ []

theorem pages_listing {directory : Directory} (h : directory.reachable = true) :
    directory.listing.pages =
      pagesOf directory.pageSize directory.pageSize_pos directory.identities.values := by
  rw [listing, if_pos h]

/-- A listing has the pages of what the directory holds. -/
theorem InMemory.paged {directory : Directory} (h : directory.InMemory) :
    directory.Paged directory.listing.pages where
  mem_iff identity := h.mem_listing_iff
  ascending := by
    have hkeys := directory.identities.pairwise_keys
    rw [← h.keyedBy.map_values_eq_keys, List.pairwise_map] at hkeys
    rw [flatten_pages_listing h.reachable, List.pairwise_map]
    exact hkeys.imp fun hlt => Utf8.encode_lt_encode (String.lt_iff.1 hlt)
  full := by
    rw [pages_listing h.reachable]
    exact length_eq_of_mem_dropLast_pagesOf _ _ _
  length_le := by
    rw [pages_listing h.reachable]
    exact length_le_of_mem_pagesOf _ _ _
  ne_nil := by
    rw [pages_listing h.reachable]
    exact ne_nil_of_mem_pagesOf _ _ _

/-- What is to come of a listing that is opened on a directory. -/
theorem toCome_listing {directory : Directory} (h : directory.reachable = true) :
    directory.listing.toCome =
      Listing.given directory.listing.pages directory.listingFailure := by
  rw [listing, if_pos h, Listing.toCome]
  cases directory.listingFailure <;> rfl

end Directory

end DeviceScope
