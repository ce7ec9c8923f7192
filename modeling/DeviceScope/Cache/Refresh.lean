import DeviceScope.Cache.Basic
import DeviceScope.Directory.Basic

/-!
# Refreshing records

A refresh asks the directory for one id and writes down the answer (`Cache.settle`). An identity
is written as in scope; that there is none, or that the id is stated to be out of scope, is
written as such. Any other error says nothing about the id, and the record stays as it is: while
the directory cannot be reached, decisions are those of the last records.

A refresh has two halves, since the answer may take a while: `Cache.countLookup` when the question
is asked, and `Cache.conclude` when the answer is there. `Cache.refresh` is both at once.
-/

namespace DeviceScope

variable {σ : Type}

/-- What a refresh has done to a record. -/
inductive RefreshOutcome where
  /-- The record holds the identity from the directory. -/
  | inScope
  /-- The record says that the id is out of scope. -/
  | outOfScope
  /-- The directory or the store has failed, and the record is as it was. -/
  | retained
  deriving DecidableEq, Repr, Inhabited

/-- How many refreshes ended in which way. -/
structure RefreshSummary where
  inScope : Nat
  outOfScope : Nat
  retained : Nat
  deriving DecidableEq, Repr

namespace RefreshSummary

def none : RefreshSummary := ⟨0, 0, 0⟩

/-- Counts one more refresh. -/
def add (summary : RefreshSummary) : RefreshOutcome → RefreshSummary
  | .inScope => { summary with inScope := summary.inScope + 1 }
  | .outOfScope => { summary with outOfScope := summary.outOfScope + 1 }
  | .retained => { summary with retained := summary.retained + 1 }

end RefreshSummary

namespace Cache

/-- Counts a look-up that is being started. -/
def countLookup (cache : Cache σ) : Cache σ := { cache with lookups := cache.lookups + 1 }

variable [KeyValueStore σ]

/-- Writes down what the directory has answered for an id. -/
def settle (cache : Cache σ) (id : String) (answer : Except DirectoryError (Option Identity))
    (now : Timestamp) : Except ScopeError RefreshOutcome × Cache σ :=
  match answer with
  | .ok (some identity) =>
    let written := cache.applyUpdate identity now
    (written.1.map fun _ => .inScope, written.2)
  | .ok none | .error (.invalidState _ _) =>
    let written := cache.applyRemoval id now
    (written.1.map fun _ => .outOfScope, written.2)
  | .error error => (.error (.directory error), cache)

/-- Ends a refresh with the answer of the directory. A failure is counted and goes no further. -/
def conclude (cache : Cache σ) (id : String) (answer : Except DirectoryError (Option Identity))
    (now : Timestamp) : RefreshOutcome × Cache σ :=
  match cache.settle id answer now with
  | (.ok outcome, cache) => (outcome, cache)
  | (.error _, cache) => (.retained, { cache with retained := cache.retained + 1 })

/-- Refreshes an id from a directory that answers at once. -/
def refresh (cache : Cache σ) (directory : Directory) (id : String) (now : Timestamp) :
    RefreshOutcome × Cache σ × Directory :=
  let (answer, directory) := directory.lookup (.parse id)
  let (outcome, cache) := cache.countLookup.conclude id answer now
  (outcome, cache, directory)

/-- Refreshes ids one after another. A failure does not keep the others from it. -/
def refreshMany (cache : Cache σ) (directory : Directory) (ids : List String) (now : Timestamp) :
    RefreshSummary × Cache σ × Directory :=
  ids.foldl (fun (summary, cache, directory) id =>
    let (outcome, cache, directory) := cache.refresh directory id now
    (summary.add outcome, cache, directory)) (.none, cache, directory)

/-- The identity under an id. If `refreshIfAbsent`, an id without a record is refreshed first. -/
def get (cache : Cache σ) (directory : Directory) (id : String) (refreshIfAbsent : Bool)
    (now : Timestamp) : Option Identity × Cache σ × Directory :=
  if refreshIfAbsent && (cache.record? id).isNone then
    let (_, cache, directory) := cache.refresh directory id now
    (cache.identity? id, cache, directory)
  else (cache.identity? id, cache, directory)

/-- Decides whether an id may connect. If `refreshIfStale`, an id whose record is missing or too
old is refreshed first. -/
def verify (cache : Cache σ) (directory : Directory) (id : String) (refreshIfStale : Bool)
    (now : Timestamp) : Except ScopeError Identity × Cache σ × Directory :=
  if refreshIfStale && cache.isStale id now then
    let (_, cache, directory) := cache.refresh directory id now
    (cache.decide id, cache, directory)
  else (cache.decide id, cache, directory)

end Cache

end DeviceScope
