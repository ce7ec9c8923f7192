import DeviceScope.Service.World

/-!
# Running a gateway

A `Run` decides which of the tasks that can go on does so: the one that went on last, as long as
it can, and otherwise the one that has rested longest. Nothing else is up to it; all that happens
is a sequence of steps of the `World`.

The clock moves only when no task can go on, from one alarm to the next. A run is given so much
patience: the number of steps after which it is broken off at the latest.
-/

namespace DeviceScope

variable {σ : Type}

/-- A gateway with the order in which its tasks go on. -/
structure Run (σ : Type) where
  world : World σ
  /-- The tasks that have not come to their end, the one that has rested longest first. -/
  order : List Nat
  /-- The task that went on last. -/
  current : Option Nat

namespace Run

/-- A gateway in which nothing goes on. -/
def ofWorld (world : World σ) : Run σ := ⟨world, List.range world.tasks.length, none⟩

/-- Puts new tasks at the end of the order, and drops those that are done. -/
def reorder (run : Run σ) (world : World σ) : Run σ :=
  let new := (List.range (world.tasks.length - run.world.tasks.length)).map
    (· + run.world.tasks.length)
  { run with world, order := (run.order ++ new).filter fun who => !world.isDone who }

/-- Changes the gateway from outside. -/
def modify (run : Run σ) (change : World σ → World σ) : Run σ :=
  { run.reorder (change run.world) with current := none }

/-- The task that goes on next. -/
def next? (run : Run σ) : Option Nat :=
  match run.current.filter run.world.isReady with
  | some who => some who
  | none => run.order.find? run.world.isReady

variable [KeyValueStore σ]

/-- Lets a task go on. -/
def step (run : Run σ) (who : Nat) : Run σ :=
  let run := { run with order := run.order.filter (· ≠ who) ++ [who], current := some who }
  run.reorder (run.world.step who)

/-- Lets tasks go on until none can. -/
def settle : Nat → Run σ → Run σ
  | 0, run => run
  | patience + 1, run =>
    match run.next? with
    | some who => settle patience (run.step who)
    | none => { run with current := none }

/-- Moves the clock, and lets tasks go on. -/
def moveTo (patience : Nat) (run : Run σ) (clock : Int) : Run σ :=
  settle patience { run with world := { run.world with clock } }

/-- Moves the clock from alarm to alarm, up to a target and to the target itself. -/
def advanceTo (patience : Nat) (target : Int) : Nat → Run σ → Run σ
  | 0, run => run.moveTo patience target
  | alarms + 1, run =>
    match run.world.alarm?.filter (· ≤ target) with
    | some alarm => advanceTo patience target alarms (run.moveTo patience alarm)
    | none => run.moveTo patience target

/-- Moves the clock on. -/
def advance (patience : Nat) (run : Run σ) (span : Span) : Run σ :=
  advanceTo patience (run.world.clock + span.nanos) patience run

/-- Changes the gateway from outside, and lets tasks go on. -/
def act (patience : Nat) (run : Run σ) (change : World σ → World σ) : Run σ :=
  settle patience (run.modify change)

/-- Begins a call among all that goes on; gives its number. -/
def spawn (patience : Nat) (run : Run σ) (call : Call) : Nat × Run σ :=
  (run.world.tasks.length, run.act patience (·.begin call))

/-- The reply of a call that has come to its end. -/
def reply? (run : Run σ) (who : Nat) : Option Reply :=
  match run.world.tasks[who]? with
  | some (.call (.done reply)) => some reply
  | _ => none

/-- Moves the clock from alarm to alarm until a call has come to its end. -/
def await (patience : Nat) (who : Nat) : Nat → Run σ → Run σ
  | 0, run => run
  | alarms + 1, run =>
    if run.world.isDone who then run
    else
      match run.world.alarm? with
      | some alarm => await patience who alarms (run.moveTo patience alarm)
      | none => run

/-- Calls and waits for the reply. -/
def call (patience : Nat) (run : Run σ) (call : Call) : Option Reply × Run σ :=
  let (who, run) := run.spawn patience call
  let run := run.await patience who patience
  (run.reply? who, run)

end Run

end DeviceScope
