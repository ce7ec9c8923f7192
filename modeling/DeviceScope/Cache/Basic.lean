import DeviceScope.Config.Basic
import DeviceScope.Notifier
import DeviceScope.Record.Form
import DeviceScope.Store.Basic

/-!
# The cache

A cache keeps a record for every id that it has learned something about, in memory and in a store.
All its changes go through `Cache.write`, which first puts the record into the store and, only if
that succeeds, takes it into memory and tells the subscribers: memory and store never disagree.
What the subscribers are told follows from the record before and the record after
(`announcement?`).

No record is ever forgotten: that an id is out of scope is itself a record.
-/

namespace DeviceScope

variable {σ : Type}

/-- What is announced when a record takes the place of another: that an identity was replaced by a
different one, or that one which could connect has left. -/
def announcement? (old : Option Record) (new : Record) : Option Change :=
  match old.bind Record.identity?, new.entry with
  | none, _ => none
  | some before, .present after => if before = after then none else some (.updated after)
  | some before, .absent => if before.isEnabled then some (.removed new.id) else none

/-- The records of all ids that something is known about. -/
structure Cache (σ : Type) where
  /-- Where the records are kept. -/
  store : σ
  /-- The records by id. -/
  records : Ledger Record
  notifier : Notifier
  /-- The age beyond which a record is looked up again when a decision asks for it. -/
  refreshDelay : Span
  /-- The number of records that were found in the store at the beginning. -/
  bootstrapped : Nat
  /-- The number of entries of the store that were no records. -/
  skipped : Nat
  /-- The number of look-ups that were started. -/
  lookups : Nat
  /-- The number of refreshes that failed and left the record as it was. -/
  retained : Nat

namespace Cache

/-- Takes in an entry of the store, or counts it if it is no record. -/
def takeEntry (found : Ledger Record × Nat) (entry : String × String) : Ledger Record × Nat :=
  match Record.decode entry.1 entry.2 with
  | .ok record => (found.1.insert entry.1 record, found.2)
  | .error _ => (found.1, found.2 + 1)

/-- The records among the entries of a store, and the number of the other entries. -/
def bootstrap (entries : List (String × String)) : Ledger Record × Nat :=
  entries.foldl takeEntry (∅, 0)

/-- A cache over a store that holds records already. -/
def create [KeyValueStore σ] (store : σ) (config : Config) : Except ScopeError (Cache σ) :=
  match config.validate with
  | .error error => .error (.configuration error)
  | .ok () =>
    match KeyValueStore.entries store with
    | .error error => .error (.store error)
    | .ok entries =>
      let found := bootstrap entries
      .ok {
        store
        records := found.1
        notifier := .ofCapacity config.capacity.toNat
        refreshDelay := config.refreshDelay
        bootstrapped := found.1.size
        skipped := found.2
        lookups := 0
        retained := 0 }

/-! ### Looking -/

def record? (cache : Cache σ) (id : String) : Option Record := cache.records.get? id

/-- The identity that is held under an id. -/
def identity? (cache : Cache σ) (id : String) : Option Identity :=
  (cache.record? id).bind Record.identity?

/-- The ids of the records that hold an identity, in ascending order. -/
def presentIds (cache : Cache σ) : List String :=
  (cache.records.values.filter fun record => record.entry.isPresent).map Record.id

/-- Decides by the record alone whether an id may connect. -/
def decide (cache : Cache σ) (id : String) : Except ScopeError Identity :=
  match cache.identity? id with
  | none => .error (.outOfScope id)
  | some identity => if identity.isEnabled then .ok identity else .error (.disabled id)

/-- Whether a decision that asks for it has the id looked up first: there is no record, or it is
too old. -/
def isStale (cache : Cache σ) (id : String) (now : Timestamp) : Bool :=
  (cache.record? id).all fun record => record.isStaleAt cache.refreshDelay now

/-- Numbers of records and of what has happened to them. -/
structure Stats where
  records : Nat
  present : Nat
  enabled : Nat
  absent : Nat
  bootstrapped : Nat
  skipped : Nat
  lookups : Nat
  retained : Nat
  deriving DecidableEq, Repr

/-- The numbers as they are now. -/
def stats (cache : Cache σ) : Stats :=
  let entries := cache.records.values.map Record.entry
  let present := entries.countP Entry.isPresent
  ⟨entries.length, present, entries.countP Entry.isEnabled, entries.length - present,
    cache.bootstrapped, cache.skipped, cache.lookups, cache.retained⟩

/-! ### Writing -/

def announce (notifier : Notifier) : Option Change → Notifier
  | some change => notifier.send change
  | none => notifier

/-- Writes a record, to the store and then to memory. If the store fails, nothing changes. -/
def write [KeyValueStore σ] (cache : Cache σ) (record : Record) :
    Except ScopeError Unit × Cache σ :=
  match record.encode with
  | .error error => (.error error, cache)
  | .ok text =>
    match KeyValueStore.put cache.store record.id text with
    | (.error error, store) => (.error (.store error), { cache with store })
    | (.ok (), store) =>
      -- Only now that the store has the record may it be seen.
      (.ok (), { cache with
        store
        records := cache.records.insert record.id record
        notifier := announce cache.notifier (announcement? (cache.record? record.id) record) })

/-- Writes down that an identity is in scope. -/
def applyUpdate [KeyValueStore σ] (cache : Cache σ) (identity : Identity) (now : Timestamp) :
    Except ScopeError Unit × Cache σ :=
  cache.write (.present identity now)

/-- Writes down that an id is out of scope. -/
def applyRemoval [KeyValueStore σ] (cache : Cache σ) (id : String) (now : Timestamp) :
    Except ScopeError Unit × Cache σ :=
  cache.write (.absent id now)

end Cache

end DeviceScope
