import DeviceScope.Rehearsal.Medium
import DeviceScope.Service.Run

/-!
# Rehearsals

A rehearsal drives a gateway through a sequence of events: calls, changes of its directory,
failures of its store, the passing of time, and restarts, in which the gateway is taken down and a
new one is set up over the same medium. Where the gateway could not be set up, there is none until
the next restart; the directory, the medium and the clock are always there.

Subscribers and watchers of a gateway that was taken down stay, and learn that it is gone.
-/

namespace DeviceScope

/-- The store of a gateway in a rehearsal. -/
abbrev Staged := Guarded Backing

/-- Why a gateway could not be set up. -/
inductive SetupError where
  /-- The store could not be opened. -/
  | store (error : StoreError)
  /-- The cache could not be created. -/
  | scope (error : ScopeError)

/-- A gateway that is up, or what there is without one. -/
inductive Gateway where
  | up (run : Run Staged)
  | down (clock : Int) (directory : Directory) (medium : Guarded Medium)

namespace Gateway

def clock : Gateway → Int
  | .up run => run.world.clock
  | .down clock _ _ => clock

def directory : Gateway → Directory
  | .up run => run.world.directory
  | .down _ directory _ => directory

def medium : Gateway → Guarded Medium
  | .up run =>
    let guarded := run.world.cache.store
    ⟨.ofBacking guarded.store, guarded.refusedKeys, guarded.refusesWalks⟩
  | .down _ _ medium => medium

def withDirectory (gateway : Gateway) (directory : Directory) : Gateway :=
  match gateway with
  | .up run => .up { run with world := { run.world with directory } }
  | .down clock _ medium => .down clock directory medium

def withMedium (gateway : Gateway) (medium : Guarded Medium) : Gateway :=
  match gateway with
  | .up run =>
    let store : Staged :=
      ⟨run.world.cache.store.store.withMedium medium.store, medium.refusedKeys, medium.refusesWalks⟩
    .up { run with world := { run.world with cache := { run.world.cache with store } } }
  | .down clock directory _ => .down clock directory medium

/-- Takes the gateway down. -/
def takeDown (gateway : Gateway) : Gateway := .down gateway.clock gateway.directory gateway.medium

/-- Sets up a gateway over the medium; gives the numbers of records that were found, and of
entries that were none. -/
def setUp (gateway : Gateway) (config : Config) : Except SetupError (Nat × Nat) × Gateway :=
  let medium := gateway.medium
  match medium.store.load with
  | .error error => (.error (.store error), gateway.takeDown)
  | .ok backing =>
    match Cache.create (σ := Staged) ⟨backing, medium.refusedKeys, medium.refusesWalks⟩ config with
    | .error error => (.error (.scope error), gateway.takeDown)
    | .ok cache =>
      (.ok (cache.bootstrapped, cache.skipped),
        .up (.ofWorld (.start gateway.clock gateway.directory cache config)))

end Gateway

/-- One that watches the phases of a service. -/
inductive Watcher where
  /-- It has seen this many publications. -/
  | live (seen : Nat)
  /-- The service is gone; this was its last phase. -/
  | gone (last : Phase)
  deriving DecidableEq, Repr

/-- A call that was begun under a name. -/
inductive NamedCall where
  | running (number : Nat)
  | ended (reply : Reply)

/-- A gateway with all that takes part in its rehearsal. -/
structure Rehearsal where
  gateway : Gateway
  /-- The settings of the gateway that was set up last. -/
  config : Config
  /-- How many steps are taken at most before something is broken off. -/
  patience : Nat
  /-- The notifiers of gateways that were taken down, for their subscribers. -/
  retired : Ledger Notifier
  watchers : Ledger Watcher
  calls : Ledger NamedCall

namespace Rehearsal

/-- Sets up the first gateway. -/
def begin (patience : Nat) (clock : Int) (directory : Directory) (medium : Medium)
    (config : Config) : Except SetupError (Nat × Nat) × Rehearsal :=
  let (result, gateway) := (Gateway.down clock directory ⟨medium, [], false⟩).setUp config
  (result, ⟨gateway, config, patience, ∅, ∅, ∅⟩)

/-- The gateway, if it is up. -/
def run? (rehearsal : Rehearsal) : Option (Run Staged) :=
  match rehearsal.gateway with
  | .up run => some run
  | .down _ _ _ => none

/-- Replaces the gateway that is up. -/
def withRun (rehearsal : Rehearsal) (run : Run Staged) : Rehearsal :=
  { rehearsal with gateway := .up run }

/-- Takes down what depends on the gateway: its subscribers will find it closed, its watchers find
it gone, and its calls are over. -/
def retire (rehearsal : Rehearsal) : Rehearsal :=
  match rehearsal.run? with
  | none => rehearsal
  | some run =>
    let notifier := run.world.cache.notifier.close
    { rehearsal with
      retired := notifier.cursors.keys.foldl (·.insert · notifier) rehearsal.retired
      watchers := .ofList (rehearsal.watchers.entries.map fun (name, watcher) =>
        (name, match watcher with
          | .live _ => .gone run.world.service.phase
          | .gone last => .gone last))
      calls := .ofList (rehearsal.calls.entries.map fun (name, call) =>
        (name, match call with
          | .running number => (run.reply? number).elim call .ended
          | .ended reply => .ended reply)) }

/-- Takes the gateway down and sets up a new one, with new settings if they are given. -/
def restart (rehearsal : Rehearsal) (config : Option Config) :
    Except SetupError (Nat × Nat) × Rehearsal :=
  let config := config.getD rehearsal.config
  let (result, gateway) := rehearsal.gateway.takeDown.setUp config
  (result, { rehearsal.retire with gateway, config })

/-- Lets time pass. -/
def advance (rehearsal : Rehearsal) (span : Span) : Rehearsal :=
  match rehearsal.gateway with
  | .up run => rehearsal.withRun (run.advance rehearsal.patience span)
  | .down clock directory medium =>
    { rehearsal with gateway := .down (clock + span.nanos) directory medium }

/-! ### Calls -/

def spawn (rehearsal : Rehearsal) (run : Run Staged) (name : String) (call : Call) : Rehearsal :=
  let (number, run) := run.spawn rehearsal.patience call
  { rehearsal with gateway := .up run, calls := rehearsal.calls.insert name (.running number) }

/-- What has become of a call: `some none` while it goes on. Its reply is given once. -/
def poll (rehearsal : Rehearsal) (name : String) : Option (Option Reply) × Rehearsal :=
  match rehearsal.calls.get? name with
  | none => (none, rehearsal)
  | some call =>
    let reply := match call with
      | .running number => rehearsal.run?.bind (·.reply? number)
      | .ended reply => some reply
    (some reply, if reply.isSome then
      { rehearsal with calls := rehearsal.calls.erase name } else rehearsal)

/-! ### Subscribers and watchers -/

/-- Changes the notifier of the gateway that is up. -/
def withNotifier (rehearsal : Rehearsal) (run : Run Staged) (notifier : Notifier) : Rehearsal :=
  rehearsal.withRun { run with world := { run.world with
    cache := { run.world.cache with notifier } } }

def subscribe (rehearsal : Rehearsal) (run : Run Staged) (name : String) : Rehearsal :=
  { rehearsal with retired := rehearsal.retired.erase name }.withNotifier run
    (run.world.cache.notifier.subscribe name)

/-- Ends a subscription. -/
def unsubscribe (rehearsal : Rehearsal) (run : Run Staged) (name : String) : Rehearsal :=
  { rehearsal with retired := rehearsal.retired.erase name }.withNotifier run
    (run.world.cache.notifier.unsubscribe name)

/-- What a subscriber receives; `none` for one that is not known. -/
def receive (rehearsal : Rehearsal) (name : String) (limit : Option Nat) :
    Option (List Receipt) × Rehearsal :=
  match rehearsal.retired.get? name with
  | some notifier =>
    let (receipts, notifier) := notifier.receiveAll name limit
    (some receipts, { rehearsal with retired := rehearsal.retired.insert name notifier })
  | none =>
    match rehearsal.run?.filter (·.world.cache.notifier.cursors.contains name) with
    | none => (none, rehearsal)
    | some run =>
      let (receipts, notifier) := run.world.cache.notifier.receiveAll name limit
      (some receipts, rehearsal.withNotifier run notifier)

/-- Begins to watch the phases of the service. -/
def watch (rehearsal : Rehearsal) (run : Run Staged) (name : String) : Rehearsal :=
  { rehearsal with
    watchers := rehearsal.watchers.insert name (.live run.world.service.published) }

/-- Whether a phase was published since one has looked last, and the phase; whether is not known
once the service is gone. -/
def look (rehearsal : Rehearsal) (name : String) : Option (Option Bool × Phase) × Rehearsal :=
  match rehearsal.watchers.get? name, rehearsal.run? with
  | some (.live seen), some run =>
    let published := run.world.service.published
    (some (some (published ≠ seen), run.world.service.phase),
      { rehearsal with watchers := rehearsal.watchers.insert name (.live published) })
  | some (.gone last), _ => (some (none, last), rehearsal)
  | _, _ => (none, rehearsal)

end Rehearsal

end DeviceScope
