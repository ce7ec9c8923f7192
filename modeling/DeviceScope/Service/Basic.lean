import DeviceScope.Config.Basic
import DeviceScope.Fault

/-!
# The refresh service

The service reconciles a cache with the directory, over and over. A reconciliation is a cycle, and
there is at most one at a time: whoever wants to run one waits for its turn (`Service.claimTurn`).
Between two cycles the loop of the service is parked until its time has come or somebody asks for
a cycle (`Service.requestRefresh`). Once the service is shutting down no cycle begins.

Whoever does something is known to the service by a number.
-/

namespace DeviceScope

/-- What the loop of the service does. -/
inductive Phase where
  /-- It has not been started. -/
  | idle
  /-- It walks through the listing of the directory. -/
  | listing
  /-- It writes down what the listing did not mention. -/
  | diffing
  /-- It is parked until the next cycle. -/
  | waiting
  /-- It has been shut down. -/
  | stopped
  deriving DecidableEq, Repr, Inhabited

def Phase.name : Phase → String
  | .idle => "idle"
  | .listing => "listing"
  | .diffing => "diffing"
  | .waiting => "waiting"
  | .stopped => "stopped"

/-- What one cycle has done. -/
structure Report where
  /-- The number of identities that were listed. -/
  listed : Nat
  /-- The number of ids that were marked absent since the listing did not mention them. -/
  removed : Nat
  /-- The number of writes that failed. -/
  failures : Nat
  deriving DecidableEq, Repr, Inhabited

/-- The report of a cycle that has done nothing. -/
def Report.none : Report := ⟨0, 0, 0⟩

/-- How a cycle ended. -/
inductive CycleOutcome where
  /-- The listing was walked through, and what it did not mention was marked absent. -/
  | completed (report : Report)
  /-- The listing broke off. Nothing was marked absent. -/
  | aborted (report : Report) (error : DirectoryError)
  /-- The listing took too long. Nothing was marked absent. -/
  | timedOut (report : Report)
  /-- The service was shutting down. Nothing was done. -/
  | cancelled
  deriving DecidableEq, Repr, Inhabited

namespace CycleOutcome

/-- What the cycle has done. -/
def report : CycleOutcome → Report
  | .completed report | .aborted report _ | .timedOut report => report
  | .cancelled => .none

/-- Whether the cycle came to its proper end. -/
def isCompleted : CycleOutcome → Bool
  | .completed _ => true
  | _ => false

end CycleOutcome

/-- What the service has done so far. -/
structure Service.Stats where
  cyclesStarted : Nat
  cyclesCompleted : Nat
  cyclesAborted : Nat
  cyclesTimedOut : Nat
  identitiesListed : Nat
  removalsApplied : Nat
  itemFailures : Nat
  wakeRequests : Nat
  deriving DecidableEq, Repr, Inhabited

/-- Counts a cycle that has ended. A cancelled one has not begun, and counts for nothing. -/
def Service.Stats.account (stats : Stats) (outcome : CycleOutcome) : Stats :=
  let report := outcome.report
  let stats := { stats with
    identitiesListed := stats.identitiesListed + report.listed
    removalsApplied := stats.removalsApplied + report.removed
    itemFailures := stats.itemFailures + report.failures }
  match outcome with
  | .completed _ => { stats with cyclesCompleted := stats.cyclesCompleted + 1 }
  | .aborted _ _ => { stats with cyclesAborted := stats.cyclesAborted + 1 }
  | .timedOut _ => { stats with cyclesTimedOut := stats.cyclesTimedOut + 1 }
  | .cancelled => stats

/-- The state of the refresh service. -/
structure Service where
  /-- The time between two cycles. -/
  refreshRate : Span
  /-- How long the listing of a cycle may take. -/
  cycleTimeout : Option Span
  phase : Phase
  /-- How often a phase was published. -/
  published : Nat
  shuttingDown : Bool
  /-- Who runs a cycle. -/
  turn : Option Nat
  /-- Who waits to run one, in the order in which they will. -/
  queue : List Nat
  /-- Whether a cycle was asked for while nobody was parked. -/
  permit : Bool
  /-- Who is parked, in the order in which they will be woken. -/
  parked : List Nat
  /-- Who was parked and has been woken. -/
  woken : List Nat
  stats : Service.Stats
  deriving DecidableEq

namespace Service

/-- A service that has not been started. -/
def ofConfig (config : Config) : Service where
  refreshRate := config.refreshRate
  cycleTimeout := config.cycleTimeout
  phase := .idle
  published := 0
  shuttingDown := false
  turn := none
  queue := []
  permit := false
  parked := []
  woken := []
  stats := ⟨0, 0, 0, 0, 0, 0, 0, 0⟩

/-- Publishes a phase. The last phase is never left. -/
def publish (service : Service) (phase : Phase) : Service :=
  if service.phase = .stopped ∨ service.phase = phase then service
  else { service with phase, published := service.published + 1 }

def stop (service : Service) : Service :=
  { service with phase := .stopped, published := service.published + 1 }

def shutdown (service : Service) : Service := { service with shuttingDown := true }

/-! ### Turns -/

/-- Takes the turn if nobody has it, or waits for it behind all others. -/
def claimTurn (service : Service) (who : Nat) : Service :=
  match service.turn with
  | none => { service with turn := some who }
  | some _ => { service with queue := service.queue ++ [who] }

/-- Passes the turn on to the one that has waited longest. -/
def passTurn (service : Service) : Service :=
  { service with turn := service.queue.head?, queue := service.queue.tail }

def beginCycle (service : Service) : Service :=
  let stats := { service.stats with cyclesStarted := service.stats.cyclesStarted + 1 }
  { service with stats }.publish .listing

/-- Counts a cycle that has ended and passes the turn on. -/
def endCycle (service : Service) (outcome : CycleOutcome) : Service :=
  { service with stats := service.stats.account outcome }.passTurn

/-! ### Waking -/

/-- Asks for a cycle. One that is parked is woken; if nobody is, the next one that would park goes
on at once. Asking again before that changes nothing. -/
def requestRefresh (service : Service) : Service :=
  let service := { service with
    stats := { service.stats with wakeRequests := service.stats.wakeRequests + 1 } }
  match service.parked with
  -- One permit is kept, however many requests there were.
  | [] => { service with permit := true }
  | who :: rest => { service with parked := rest, woken := service.woken ++ [who] }

/-- Parks one that waits for the next cycle. -/
def park (service : Service) (who : Nat) : Service :=
  { service with parked := service.parked ++ [who] }

/-- Lets one that was parked go. -/
def unpark (service : Service) (who : Nat) : Service :=
  { service with
    parked := service.parked.filter (· ≠ who)
    woken := service.woken.filter (· ≠ who) }

end Service

end DeviceScope
