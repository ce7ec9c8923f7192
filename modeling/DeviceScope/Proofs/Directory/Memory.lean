import DeviceScope.Proofs.Directory.Listing
import DeviceScope.Proofs.Ledger

/-!
# Directories in memory

`Directory.InMemory` — the directories that come about in memory, by identities that come and go, by
settings and by requests. They can be reached, and keep every identity under its own id, so a
listing shows each id at most once (`Directory.InMemory.nodup_ids`).
-/

namespace DeviceScope.Directory

/-- **A directory in memory**: it begins empty, and all else is done to it by these operations. -/
inductive InMemory : Directory → Prop where
  | empty : InMemory .empty
  | upsert {directory : Directory} (identity : Identity) :
    InMemory directory → InMemory (directory.upsert identity)
  | remove {directory : Directory} (id : String) :
    InMemory directory → InMemory (directory.remove id)
  | markInvalid {directory : Directory} (id : String) :
    InMemory directory → InMemory (directory.markInvalid id)
  | setPageSize {directory : Directory} (size : Nat) :
    InMemory directory → InMemory (directory.setPageSize size)
  /-- Failures and delays are injected, or taken back. -/
  | inject {directory : Directory} (lookupFailure : Option DirectoryError)
      (listingFailure : Option (Nat × DirectoryError)) (pageDelay lookupDelay : Option Span)
      (crashesNext : Bool) (pageCrash : Option Nat) :
    InMemory directory →
    InMemory { directory with
      lookupFailure, listingFailure, pageDelay, lookupDelay, crashesNext, pageCrash }
  | lookup {directory : Directory} (key : Identity.Key) :
    InMemory directory → InMemory (directory.lookup key).2
  | openListing {directory : Directory} :
    InMemory directory → InMemory directory.openListing?.2

namespace InMemory

variable {directory : Directory}

theorem reachable (h : InMemory directory) : directory.reachable = true := by
  induction h with
  | empty => rfl
  | lookup key _ ih =>
    rw [Directory.lookup]
    split <;> exact ih
  | openListing _ ih =>
    rw [openListing?]
    split
    · exact ih
    · split <;> exact ih
  | _ => assumption

/-- Every identity is kept under its own id. -/
theorem keyedBy (h : InMemory directory) : directory.identities.KeyedBy Identity.id := by
  -- Identities are put under their own ids, and all else takes some away or leaves them alone.
  induction h with
  | empty => exact Ledger.keyedBy_empty
  | upsert identity _ ih => exact ih.insert identity
  | remove id _ ih => exact ih.erase id
  | markInvalid id _ ih => exact ih.erase id
  | setPageSize size _ ih => exact ih
  | inject _ _ _ _ _ _ _ ih => exact ih
  | lookup key _ ih =>
    rw [Directory.lookup]
    split <;> exact ih
  | openListing _ ih =>
    rw [openListing?]
    split
    · exact ih
    · split <;> exact ih

/-- An id that is stated to be out of scope has no identity. -/
theorem get?_eq_none_of_invalid (h : InMemory directory) {id : String}
    (hinvalid : directory.invalid.contains id = true) : directory.identities.get? id = none := by
  -- An identity that comes takes the statement back, and the statement takes the identity away.
  induction h with
  | empty => rfl
  | @upsert directory identity _ ih =>
    have herased : (directory.invalid.erase identity.id).contains id = true := hinvalid
    rw [Ledger.contains_erase, Bool.and_eq_true, decide_eq_true_iff] at herased
    obtain ⟨hne, hbefore⟩ := herased
    show (directory.identities.insert identity.id identity).get? id = none
    rw [Ledger.get?_insert_of_ne _ _ hne]
    exact ih hbefore
  | @remove directory other _ ih =>
    have herased : (directory.invalid.erase other).contains id = true := hinvalid
    rw [Ledger.contains_erase, Bool.and_eq_true, decide_eq_true_iff] at herased
    obtain ⟨hne, hbefore⟩ := herased
    show (directory.identities.erase other).get? id = none
    rw [Ledger.get?_erase, if_neg hne]
    exact ih hbefore
  | @markInvalid directory other _ ih =>
    have hinserted : (directory.invalid.insert other ()).contains id = true := hinvalid
    rw [Ledger.contains_insert, Bool.or_eq_true, decide_eq_true_iff] at hinserted
    show (directory.identities.erase other).get? id = none
    rw [Ledger.get?_erase]
    by_cases hid : id = other
    · rw [if_pos hid]
    · rw [if_neg hid]
      exact ih (hinserted.resolve_left hid)
  | setPageSize size _ ih => exact ih hinvalid
  | inject _ _ _ _ _ _ _ ih => exact ih hinvalid
  | lookup key _ ih =>
    rw [Directory.lookup] at hinvalid ⊢
    split at hinvalid
    · next hreachable =>
      rw [if_pos hreachable]
      exact ih hinvalid
    · next hreachable =>
      rw [if_neg hreachable]
      exact ih hinvalid
  | @openListing directory hmemory ih =>
    have hsame : directory.openListing?.2.identities = directory.identities ∧
        directory.openListing?.2.invalid = directory.invalid := by
      unfold openListing?
      split
      · exact ⟨rfl, rfl⟩
      · split <;> exact ⟨rfl, rfl⟩
    rw [hsame.2] at hinvalid
    rw [hsame.1]
    exact ih hinvalid

/-- **What a listing shows**: the identities that are kept, each of them under its own id. -/
theorem mem_listing_iff (h : InMemory directory) {identity : Identity} :
    identity ∈ directory.listing.pages.flatten ↔
      directory.identities.get? identity.id = some identity := by
  rw [flatten_pages_listing h.reachable]
  exact h.keyedBy.mem_values_iff

/-- No id is shown twice. -/
theorem nodup_ids (h : InMemory directory) :
    (directory.listing.pages.flatten.map Identity.id).Nodup := by
  rw [flatten_pages_listing h.reachable]
  exact h.keyedBy.nodup_map_values

/-- As many identities are shown as are kept. -/
theorem length_listing (h : InMemory directory) :
    directory.listing.pages.flatten.length = directory.identities.size := by
  rw [flatten_pages_listing h.reachable, Ledger.values, List.length_map, Ledger.size]

end InMemory

end DeviceScope.Directory
