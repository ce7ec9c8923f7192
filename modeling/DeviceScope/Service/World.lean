import DeviceScope.Service.Task

/-!
# A gateway at work

A `World` is a gateway with its directory, its cache, its refresh service and all that goes on in
it, at one moment of its clock. `World.isReady` says which tasks can go on, and `World.step` lets
one of them do so until it has to wait, or until another one may come between; a step writes one
record at most. Any task that is ready may be the next, so what holds of every sequence of steps
holds whatever their order.

The clock counts nanoseconds since the beginning of 1970 and stands still during a step. It has no
last moment, so every wait is over when its time has passed.
-/

namespace DeviceScope

variable {σ : Type}

/-- A gateway and all that goes on in it. -/
structure World (σ : Type) where
  clock : Int
  directory : Directory
  cache : Cache σ
  service : Service
  /-- The tasks by their numbers. -/
  tasks : List Task

namespace World

/-- The gateway over a cache, with nothing going on. -/
def start (clock : Int) (directory : Directory) (cache : Cache σ) (config : Config) : World σ :=
  ⟨clock, directory, cache, .ofConfig config, []⟩

/-- The time on the clock as it is written into records. -/
def now (world : World σ) : Timestamp := .utc world.clock

/-- Whether a task has come to its end. -/
def isDone (world : World σ) (number : Nat) : Bool := world.tasks[number]?.all Task.isDone

/-! ### What can go on -/

/-- Whether one that wants to run a cycle can go on. -/
def isCycleReady (world : World σ) (who : Nat) : CycleStage → Bool
  | .queued => world.service.turn = some who
  | .walking cycle => cycle.isReady world.clock
  | .marking _ _ => true

/-- Whether a task of this number can go on. -/
def isTaskReady (world : World σ) (who : Nat) : Task → Bool
  | .call (.begun _) => true
  | .call (.asking _ _ due) => due.all (· ≤ world.clock)
  | .call (.heard _ _ _) | .call (.concluded _ _ _) => true
  | .call (.cycling stage) | .loop (.cycling stage) => world.isCycleReady who stage
  | .call (.done _) => false
  | .loop .top | .loop .rest => true
  | .loop (.parked due) =>
    who ∈ world.service.woken || due ≤ world.clock || world.service.shuttingDown
  | .loop .done => false
  | .supervisor .begun => true
  | .supervisor (.watching due _) => due ≤ world.clock || world.service.shuttingDown
  | .supervisor (.joining loop) => loop.all world.isDone
  | .supervisor .done => false

/-- Whether a task can go on. -/
def isReady (world : World σ) (who : Nat) : Bool :=
  world.tasks[who]?.any (world.isTaskReady who)

/-! ### From outside -/

/-- Puts a task to the others. -/
def add (world : World σ) (task : Task) : World σ := { world with tasks := world.tasks ++ [task] }

/-- Begins a call; its number is the number of tasks before. -/
def begin (world : World σ) (call : Call) : World σ := world.add (.call (.begun call))

def startService (world : World σ) : World σ := world.add (.supervisor .begun)

/-- Asks the service for a cycle. -/
def requestRefresh (world : World σ) : World σ :=
  { world with service := world.service.requestRefresh }

def shutdown (world : World σ) : World σ := { world with service := world.service.shutdown }

/-- When the first task that waits for the clock can go on. -/
def alarm? (world : World σ) : Option Int := (world.tasks.filterMap Task.alarm?).min?

/-! ### Steps -/

def setTask (world : World σ) (who : Nat) (task : Task) : World σ :=
  { world with tasks := world.tasks.set who task }

/-- How a step of a cycle came out. -/
inductive CycleStep where
  | goesOn (stage : CycleStage)
  | ended (outcome : CycleOutcome)
  | crashed

def endCycle (world : World σ) (outcome : CycleOutcome) : CycleStep × World σ :=
  (.ended outcome, { world with service := world.service.endCycle outcome })

/-- Begins a cycle, unless the service is shutting down. -/
def beginCycle (world : World σ) : CycleStep × World σ :=
  if world.service.shuttingDown then world.endCycle .cancelled
  else
    let service := world.service.beginCycle
    match world.directory.openListing? with
    | (some listing, directory) =>
      (.goesOn (.walking (.start listing service.cycleTimeout world.clock)),
        { world with service, directory })
    -- The cycle was counted, but it is not under way: the next one may have its turn.
    | (none, directory) => (.crashed, { world with service := service.passTurn, directory })

/-- Turns to the next page, or to what is gone if there is none. -/
def fetch (world : World σ) (cycle : Cycle) : CycleStep × World σ :=
  if !cycle.listing.hasNext then
    -- The listing is over, so the deadline no longer matters.
    (.goesOn (.marking cycle.report (cycle.gone world.cache)),
      { world with service := world.service.publish .diffing })
  -- A page that arrives at the deadline is in time.
  else if cycle.hasPage world.clock then
    -- Nothing is counted of a cycle that crashes, and the next one may have its turn.
    if cycle.listing.crashes then (.crashed, { world with service := world.service.passTurn })
    else
      match cycle.listing.next with
      | (.error error, _) => world.endCycle (.aborted cycle.report error)
      | (.ok page, listing) =>
        (.goesOn (.walking ({ cycle with listing, page }.resume world.clock)), world)
  else world.endCycle (.timedOut cycle.report)

variable [KeyValueStore σ]

/-- Goes on with a listing: writes down the next identity of the page, or fetches another page. -/
def walk (world : World σ) (cycle : Cycle) : CycleStep × World σ :=
  match cycle.page with
  | [] => world.fetch cycle
  | identity :: page =>
    let (cycle, cache) := { cycle with page }.takeIn world.cache identity world.now
    (.goesOn (.walking (cycle.resume world.clock)), { world with cache })

/-- Goes on with what is gone: marks the next id absent, or ends. -/
def mark (world : World σ) (report : Report) (gone : List String) : CycleStep × World σ :=
  match gone with
  | [] => world.endCycle (.completed report)
  | id :: gone =>
    let (report, cache) := Cycle.markAbsent report world.cache id world.now
    (.goesOn (.marking report gone), { world with cache })

def cycleStep (world : World σ) : CycleStage → CycleStep × World σ
  | .queued => world.beginCycle
  | .walking cycle => world.walk cycle
  | .marking report gone => world.mark report gone

/-- Asks the directory for an id. -/
def ask (world : World σ) (id : String) (purpose : Purpose) : CallStage × World σ :=
  (.asking id purpose (world.directory.lookupWait.map fun wait => world.clock + wait.nanos),
    { world with cache := world.cache.countLookup })

/-- Asks the directory for the first of several ids. -/
def askMany (world : World σ) (ids : List String) (summary : RefreshSummary) :
    CallStage × World σ :=
  match ids with
  | [] => (.done (.refreshedMany summary), world)
  | id :: rest => world.ask id (.refreshMany rest summary)

def beginCall (world : World σ) (who : Nat) : Call → CallStage × World σ
  | .get id refreshIfAbsent =>
    if refreshIfAbsent && (world.cache.record? id).isNone then world.ask id .get
    else (.done (.got (world.cache.identity? id)), world)
  | .verify id refreshIfStale =>
    if refreshIfStale && world.cache.isStale id world.now then world.ask id .verify
    else (.done (.verified (world.cache.decide id)), world)
  | .refresh id => world.ask id .refresh
  | .refreshMany ids => world.askMany ids .none
  | .update identity =>
    let (result, cache) := world.cache.applyUpdate identity world.now
    (.done (.written result), { world with cache })
  | .removal id =>
    let (result, cache) := world.cache.applyRemoval id world.now
    (.done (.written result), { world with cache })
  | .runCycle => (.cycling .queued, { world with service := world.service.claimTurn who })

/-- Hears what the directory answers. -/
def hear (world : World σ) (id : String) (purpose : Purpose) : CallStage × World σ :=
  let (answer, directory) := world.directory.lookup (.parse id)
  (.heard id purpose answer, { world with directory })

/-- Writes down what the directory has answered. -/
def conclude (world : World σ) (id : String) (purpose : Purpose)
    (answer : Except DirectoryError (Option Identity)) : CallStage × World σ :=
  let (outcome, cache) := world.cache.conclude id answer world.now
  (.concluded id purpose outcome, { world with cache })

/-- Goes on with a call once the answer was written down. -/
def proceed (world : World σ) (id : String) (purpose : Purpose) (outcome : RefreshOutcome) :
    CallStage × World σ :=
  match purpose with
  | .get => (.done (.got (world.cache.identity? id)), world)
  | .verify => (.done (.verified (world.cache.decide id)), world)
  | .refresh => (.done (.refreshed outcome), world)
  | .refreshMany rest summary => world.askMany rest (summary.add outcome)

def callStep (world : World σ) (who : Nat) : CallStage → CallStage × World σ
  | .begun call => world.beginCall who call
  | .asking id purpose _ => world.hear id purpose
  | .heard id purpose answer => world.conclude id purpose answer
  | .concluded id purpose outcome => world.proceed id purpose outcome
  | .cycling stage =>
    match world.cycleStep stage with
    | (.goesOn stage, world) => (.cycling stage, world)
    | (.ended outcome, world) => (.done (.ranCycle outcome), world)
    | (.crashed, world) => (.done .crashed, world)
  | .done reply => (.done reply, world)

/-- Goes on with the loop of the service. One that is woken at the end of its period is taken to go
on because it was woken. Were it the period, the wake would be handed on, to the same effect as a
request that follows at once. -/
def loopStep (world : World σ) (who : Nat) : LoopStage → LoopStage × World σ
  | .top =>
    if world.service.shuttingDown then (.done, world)
    else (.cycling .queued, { world with service := world.service.claimTurn who })
  | .cycling stage =>
    match world.cycleStep stage with
    | (.goesOn stage, world) => (.cycling stage, world)
    | (.ended _, world) => (.rest, world)
    | (.crashed, world) => (.done, world)
  | .rest =>
    if world.service.shuttingDown then (.done, world)
    else
      let service := world.service.publish .waiting
      -- A cycle that was asked for meanwhile is run at once.
      if service.permit then (.top, { world with service := { service with permit := false } })
      else
        (.parked (world.clock + service.refreshRate.nanos),
          { world with service := service.park who })
  | .parked _ => (.top, { world with service := world.service.unpark who })
  | .done => (.done, world)

/-- How late the supervisor may look after the loop without any effect on when it does so next. -/
def leeway : Int := 5000000

/-- When the supervisor looks after the loop the next time. If it comes later than it should, it
counts from now on. -/
def nextTick (world : World σ) (due : Int) : Int :=
  (if due + leeway < world.clock then world.clock else due) + world.service.refreshRate.nanos

/-- Goes on with the supervisor. The loop that it starts is put to the other tasks. -/
def supervisorStep (world : World σ) : SupervisorStage → SupervisorStage × World σ
  | .begun =>
    if world.service.shuttingDown then (.joining none, world)
    else (.watching world.clock none, world)
  | .watching due loop =>
    if world.service.shuttingDown then (.joining loop, world)
    else
      let due := world.nextTick due
      if loop.all world.isDone then
        (.watching due (some world.tasks.length), world.add (.loop .top))
      else (.watching due loop, world)
  | .joining _ => (.done, { world with service := world.service.stop })
  | .done => (.done, world)

/-- Lets a task go on until it has to wait, or another one may come between. -/
def step (world : World σ) (who : Nat) : World σ :=
  match world.tasks[who]? with
  | none => world
  | some (.call stage) =>
    let (stage, world) := world.callStep who stage
    world.setTask who (.call stage)
  | some (.loop stage) =>
    let (stage, world) := world.loopStep who stage
    world.setTask who (.loop stage)
  | some (.supervisor stage) =>
    let (stage, world) := world.supervisorStep stage
    world.setTask who (.supervisor stage)

/-- The number of supervisors that have come to their end. -/
def stoppedSupervisors (world : World σ) : Nat :=
  world.tasks.countP fun
    | .supervisor .done => true
    | _ => false

end World

end DeviceScope
