import DeviceScope.Cache.Refresh
import DeviceScope.Service.Cycle

/-!
# Tasks

What goes on at the same time in a gateway: calls from outside, the loop of the refresh service,
and the supervisor that starts the loop and starts it again should it crash. A task is known by
its number, and each is a machine of a few stages. It rests where it has to wait, for an answer of
the directory, for its turn to run a cycle, or for the clock, and wherever another task may come
between: before it takes hold of the records.

A write to the store, the record that it leaves and the notification of it are one step. The records
are let go of before the notification is sent, but nothing is waited for in between, so no other
task comes between the two as long as tasks take turns only where they wait. Threads that run tasks
side by side and interrupt them anywhere are left out.
-/

namespace DeviceScope

/-- A request to the gateway. -/
inductive Call where
  /-- The identity under an id, looked up first if asked for and nothing is known. -/
  | get (id : String) (refreshIfAbsent : Bool)
  /-- Whether an id may connect, looked up first if asked for and little is known. -/
  | verify (id : String) (refreshIfStale : Bool)
  | refresh (id : String)
  | refreshMany (ids : List String)
  | update (identity : Identity)
  | removal (id : String)
  | runCycle
  deriving DecidableEq, Repr, Inhabited

/-- The reply to a request. -/
inductive Reply where
  | got (identity : Option Identity)
  | verified (decision : Except ScopeError Identity)
  | refreshed (outcome : RefreshOutcome)
  | refreshedMany (summary : RefreshSummary)
  | written (result : Except ScopeError Unit)
  | ranCycle (outcome : CycleOutcome)
  /-- The request has crashed. -/
  | crashed

/-- What is to be done once the directory has answered for an id. -/
inductive Purpose where
  | get
  | verify
  | refresh
  /-- Go on with the rest of the ids. -/
  | refreshMany (rest : List String) (summary : RefreshSummary)
  deriving DecidableEq, Repr

/-- How far one that wants to run a cycle has come. -/
inductive CycleStage where
  /-- It waits for its turn. -/
  | queued
  /-- It walks through the listing. -/
  | walking (cycle : Cycle)
  /-- It marks absent what is gone. -/
  | marking (report : Report) (gone : List String)
  deriving DecidableEq

/-- How far a call has come. -/
inductive CallStage where
  | begun (call : Call)
  /-- The directory was asked for an id; the answer will be there when it is due. -/
  | asking (id : String) (purpose : Purpose) (due : Option Int)
  /-- The directory has answered. -/
  | heard (id : String) (purpose : Purpose) (answer : Except DirectoryError (Option Identity))
  /-- The answer was written down, as far as it could be. -/
  | concluded (id : String) (purpose : Purpose) (outcome : RefreshOutcome)
  | cycling (stage : CycleStage)
  | done (reply : Reply)

/-- How far the loop of the service has come. -/
inductive LoopStage where
  /-- It is about to run a cycle. -/
  | top
  | cycling (stage : CycleStage)
  /-- It has run a cycle. -/
  | rest
  /-- It is parked until it is woken or its time has come. -/
  | parked (due : Int)
  | done

/-- How far the supervisor has come. -/
inductive SupervisorStage where
  | begun
  /-- It looks after the loop whenever its time has come. -/
  | watching (due : Int) (loop : Option Nat)
  /-- It waits for the loop to end. -/
  | joining (loop : Option Nat)
  | done

/-- Something that goes on in the gateway. -/
inductive Task where
  | call (stage : CallStage)
  | loop (stage : LoopStage)
  | supervisor (stage : SupervisorStage)

/-- Whether the task has come to its end. -/
def Task.isDone : Task → Bool
  | .call (.done _) | .loop .done | .supervisor .done => true
  | _ => false

/-- When the cycle can go on at the latest, if that is up to the clock. -/
def CycleStage.alarm? : CycleStage → Option Int
  | .walking cycle => cycle.alarm?
  | _ => none

/-- When the task can go on at the latest, if that is up to the clock. -/
def Task.alarm? : Task → Option Int
  | .call (.asking _ _ due) => due
  | .call (.cycling stage) | .loop (.cycling stage) => stage.alarm?
  | .loop (.parked due) | .supervisor (.watching due _) => some due
  | _ => none

end DeviceScope
