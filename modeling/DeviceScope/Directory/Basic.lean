import DeviceScope.Directory.Listing
import DeviceScope.Ledger

/-!
# Directories

The directory says which identities are in scope, one by one (`Directory.lookup`) or all of them
page by page (`Directory.listing`). It may answer a look-up with the statement that an id is out of
scope. Failures and delays can be injected, and a directory may be out of reach altogether, in
which case nothing that is asked arrives there. Asking for a listing, or for a page of it, may even
bring down whoever asks.
-/

namespace DeviceScope

/-- A directory of identities. -/
structure Directory where
  /-- The identities by id. -/
  identities : Ledger Identity
  /-- The ids that are stated to be out of scope. -/
  invalid : Ledger Unit
  /-- The error with which every look-up fails. -/
  lookupFailure : Option DirectoryError
  /-- The page at which new listings break off, and the error. -/
  listingFailure : Option (Nat × DirectoryError)
  /-- The number of identities on a page. -/
  pageSize : Nat
  /-- A page holds at least one. -/
  pageSize_pos : 0 < pageSize
  /-- How long each page of a new listing takes. -/
  pageDelay : Option Span
  /-- How long a look-up takes. -/
  lookupDelay : Option Span
  /-- Whether opening the next listing crashes. -/
  crashesNext : Bool
  /-- The page at which new listings crash. -/
  pageCrash : Option Nat
  /-- Whether the directory can be reached. -/
  reachable : Bool
  /-- The number of look-ups that were asked for. -/
  lookups : Nat
  /-- The number of listings that were opened. -/
  listings : Nat
  deriving DecidableEq

namespace Directory

/-- A directory that holds nothing and lists a hundred identities on a page. -/
def empty : Directory :=
  ⟨∅, ∅, none, none, 100, by decide, none, none, false, none, true, 0, 0⟩

instance : Inhabited Directory := ⟨empty⟩

def offline : Directory := { empty with reachable := false }

def offlineError : DirectoryError := .unavailable "directory not reachable from the inspector"

/-- Takes an identity in, in place of an earlier one of the same id. -/
def upsert (directory : Directory) (identity : Identity) : Directory :=
  { directory with
    identities := directory.identities.insert identity.id identity
    invalid := directory.invalid.erase identity.id }

def ofList (identities : List Identity) : Directory := identities.foldl upsert empty

/-- Forgets an identity. -/
def remove (directory : Directory) (id : String) : Directory :=
  { directory with
    identities := directory.identities.erase id
    invalid := directory.invalid.erase id }

/-- Forgets an identity and states that its id is out of scope. -/
def markInvalid (directory : Directory) (id : String) : Directory :=
  { directory with
    identities := directory.identities.erase id
    invalid := directory.invalid.insert id () }

/-- Sets the number of identities on a page, which is at least one. -/
def setPageSize (directory : Directory) (size : Nat) : Directory :=
  { directory with pageSize := max size 1, pageSize_pos := Nat.le_max_right size 1 }

/-- What the directory answers when it is asked for an id. -/
def answer (directory : Directory) (id : String) : Except DirectoryError (Option Identity) :=
  if !directory.reachable then .error offlineError
  else
    match directory.lookupFailure with
    | some error => .error error
    | none =>
      if directory.invalid.contains id then .error (.invalidState id "Device not in scope")
      else .ok (directory.identities.get? id)

/-- Asks for what a key names. -/
def lookup (directory : Directory) (key : Identity.Key) :
    Except DirectoryError (Option Identity) × Directory :=
  (directory.answer key.text,
    if directory.reachable then { directory with lookups := directory.lookups + 1 } else directory)

/-- The listing of what the directory holds now. -/
def listing (directory : Directory) : Listing :=
  if directory.reachable then
    ⟨pagesOf directory.pageSize directory.pageSize_pos directory.identities.values, 0,
      directory.listingFailure, directory.pageDelay, directory.pageCrash⟩
  else ⟨[], 0, some (0, offlineError), none, none⟩

/-- Opens a listing; `none` when this crashes. -/
def openListing? (directory : Directory) : Option Listing × Directory :=
  if !directory.reachable then (some directory.listing, directory)
  else if directory.crashesNext then (none, { directory with crashesNext := false })
  else (some directory.listing, { directory with listings := directory.listings + 1 })

/-- How long the answer to a look-up takes. -/
def lookupWait (directory : Directory) : Option Span :=
  if directory.reachable then directory.lookupDelay else none

end Directory

end DeviceScope
