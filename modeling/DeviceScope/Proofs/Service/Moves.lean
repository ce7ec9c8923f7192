import DeviceScope.Proofs.Service.Cycle
import DeviceScope.Service.World

/-!
# What a step does

The steps of a cycle, of the loop and of the supervisor, each told by all that it can do and when:
`World.CycleMoves`, `World.LoopMoves` and `World.SupervisorMoves` have one constructor for every way
through the step, with the conditions under which it is taken and the world that it leaves. Nothing
else happens (`World.cycleMoves`, `World.loopMoves`, `World.supervisorMoves`), so whatever is to be
known of a step is known by cases on these relations.
-/

namespace DeviceScope

variable {σ : Type}

namespace Service

/-! ### What an operation of the service leaves alone -/

/-- To publish a phase changes nothing but the phase, and how often one was published. -/
theorem publish_eq (service : Service) (phase : Phase) :
    service.publish phase = { service with
      phase := (service.publish phase).phase
      published := (service.publish phase).published } := by
  unfold publish
  split <;> rfl

/-- To claim the turn changes nothing but the turn and the queue. -/
theorem claimTurn_eq (service : Service) (who : Nat) :
    service.claimTurn who = { service with
      turn := (service.claimTurn who).turn
      queue := (service.claimTurn who).queue } := by
  unfold claimTurn
  split <;> rfl

/-- To ask for a cycle is counted, and changes nothing else but who waits for one. -/
theorem requestRefresh_eq (service : Service) :
    service.requestRefresh = { service with
      stats := { service.stats with wakeRequests := service.stats.wakeRequests + 1 }
      permit := service.requestRefresh.permit
      parked := service.requestRefresh.parked
      woken := service.requestRefresh.woken } := by
  unfold requestRefresh
  dsimp only
  split <;> rfl

section

variable (service : Service) (phase : Phase) (who : Nat)

theorem turn_publish : (service.publish phase).turn = service.turn := by
  rw [publish_eq]

theorem queue_publish : (service.publish phase).queue = service.queue := by
  rw [publish_eq]

theorem stats_publish : (service.publish phase).stats = service.stats := by
  rw [publish_eq]

theorem shuttingDown_publish : (service.publish phase).shuttingDown = service.shuttingDown := by
  rw [publish_eq]

theorem permit_publish : (service.publish phase).permit = service.permit := by
  rw [publish_eq]

theorem refreshRate_publish : (service.publish phase).refreshRate = service.refreshRate := by
  rw [publish_eq]

theorem cycleTimeout_publish : (service.publish phase).cycleTimeout = service.cycleTimeout := by
  rw [publish_eq]

theorem stats_claimTurn : (service.claimTurn who).stats = service.stats := by
  rw [claimTurn_eq]

theorem shuttingDown_claimTurn : (service.claimTurn who).shuttingDown = service.shuttingDown := by
  rw [claimTurn_eq]

theorem phase_claimTurn : (service.claimTurn who).phase = service.phase := by
  rw [claimTurn_eq]

theorem published_claimTurn : (service.claimTurn who).published = service.published := by
  rw [claimTurn_eq]

theorem turn_requestRefresh : service.requestRefresh.turn = service.turn := by
  rw [requestRefresh_eq]

theorem queue_requestRefresh : service.requestRefresh.queue = service.queue := by
  rw [requestRefresh_eq]

theorem phase_requestRefresh : service.requestRefresh.phase = service.phase := by
  rw [requestRefresh_eq]

theorem published_requestRefresh : service.requestRefresh.published = service.published := by
  rw [requestRefresh_eq]

theorem shuttingDown_requestRefresh :
    service.requestRefresh.shuttingDown = service.shuttingDown := by
  rw [requestRefresh_eq]

theorem refreshRate_requestRefresh : service.requestRefresh.refreshRate = service.refreshRate := by
  rw [requestRefresh_eq]

theorem cycleTimeout_requestRefresh :
    service.requestRefresh.cycleTimeout = service.cycleTimeout := by
  rw [requestRefresh_eq]

theorem cyclesStarted_requestRefresh :
    service.requestRefresh.stats.cyclesStarted = service.stats.cyclesStarted := by
  rw [requestRefresh_eq]

end

end Service

namespace World

variable [KeyValueStore σ]

/-! ### Cycles -/

/-- **What the step of a cycle does**, and when. -/
inductive CycleMoves (world : World σ) : CycleStage → CycleStep × World σ → Prop where
  /-- The service is shutting down, so the cycle does not begin. -/
  | cancelled (hshut : world.service.shuttingDown = true) :
    CycleMoves world .queued (world.endCycle .cancelled)
  /-- The cycle begins with the listing of what the directory holds now. -/
  | began {directory : Directory} (hrunning : world.service.shuttingDown = false)
    (hopened : world.directory.openListing? = (some world.directory.listing, directory)) :
    CycleMoves world .queued
      (.goesOn (.walking
          (.start world.directory.listing world.service.cycleTimeout world.clock)),
        { world with service := world.service.beginCycle, directory })
  /-- Opening the listing crashes. -/
  | crashed {directory : Directory} (hrunning : world.service.shuttingDown = false)
    (hopened : world.directory.openListing? = (none, directory)) :
    CycleMoves world .queued
      (.crashed, { world with service := world.service.beginCycle.passTurn, directory })
  /-- The listing is over, and what is gone is settled. -/
  | closed {cycle : Cycle} (hpage : cycle.page = []) (hend : cycle.listing.hasNext = false) :
    CycleMoves world (.walking cycle)
      (.goesOn (.marking cycle.report (cycle.gone world.cache)),
        { world with service := world.service.publish .diffing })
  /-- Fetching the next page crashes. -/
  | fell {cycle : Cycle} (hpage : cycle.page = []) (hmore : cycle.listing.hasNext = true)
    (harrived : cycle.hasPage world.clock = true) (hcrashes : cycle.listing.crashes = true) :
    CycleMoves world (.walking cycle)
      (.crashed, { world with service := world.service.passTurn })
  /-- The next page has arrived. -/
  | fetched {cycle : Cycle} {page : List Identity} {rest : Listing} (hpage : cycle.page = [])
    (hmore : cycle.listing.hasNext = true) (harrived : cycle.hasPage world.clock = true)
    (hsound : cycle.listing.crashes = false)
    (hnext : cycle.listing.next = (.ok page, rest)) :
    CycleMoves world (.walking cycle)
      (.goesOn (.walking (Cycle.resume { cycle with listing := rest, page } world.clock)), world)
  /-- The listing breaks off. -/
  | brokeOff {cycle : Cycle} {error : DirectoryError} {rest : Listing} (hpage : cycle.page = [])
    (hmore : cycle.listing.hasNext = true) (harrived : cycle.hasPage world.clock = true)
    (hsound : cycle.listing.crashes = false)
    (hnext : cycle.listing.next = (.error error, rest)) :
    CycleMoves world (.walking cycle) (world.endCycle (.aborted cycle.report error))
  /-- The next page does not arrive in time. -/
  | tookLong {cycle : Cycle} (hpage : cycle.page = []) (hmore : cycle.listing.hasNext = true)
    (hwaits : cycle.hasPage world.clock = false) :
    CycleMoves world (.walking cycle) (world.endCycle (.timedOut cycle.report))
  /-- The next identity of the page is written down. -/
  | tookIn {cycle : Cycle} {identity : Identity} {page : List Identity}
    (hpage : cycle.page = identity :: page) :
    CycleMoves world (.walking cycle)
      (.goesOn (.walking
          (({ cycle with page }.takeIn world.cache identity world.now).1.resume world.clock)),
        { world with cache := (world.cache.write (.present identity world.now)).2 })
  /-- Nothing is left to be marked absent. -/
  | completed (report : Report) :
    CycleMoves world (.marking report []) (world.endCycle (.completed report))
  /-- The next id is marked absent. -/
  | marked (report : Report) (id : String) (gone : List String) :
    CycleMoves world (.marking report (id :: gone))
      (.goesOn (.marking (Cycle.markAbsent report world.cache id world.now).1 gone),
        { world with cache := (world.cache.write (.absent id world.now)).2 })

theorem cycleMoves_beginCycle (world : World σ) :
    world.CycleMoves .queued world.beginCycle := by
  rw [beginCycle]
  split
  · next hshut => exact .cancelled hshut
  · next hrunning =>
    have hrunning : world.service.shuttingDown = false := Bool.eq_false_iff.2 hrunning
    dsimp only
    split
    · next listing directory hopened =>
      -- The listing that was opened is that of what the directory holds.
      have hlisting : listing = world.directory.listing := by
        have hfirst := congrArg Prod.fst hopened
        rw [Directory.openListing?] at hfirst
        split at hfirst
        · exact (Option.some.inj hfirst).symm
        · split at hfirst
          · exact absurd hfirst (by simp)
          · exact (Option.some.inj hfirst).symm
      subst hlisting
      have htimeout : world.service.beginCycle.cycleTimeout = world.service.cycleTimeout :=
        Service.cycleTimeout_publish _ _
      rw [htimeout]
      exact .began hrunning hopened
    · next directory hopened => exact .crashed hrunning hopened

theorem cycleMoves_fetch (world : World σ) {cycle : Cycle} (hpage : cycle.page = []) :
    world.CycleMoves (.walking cycle) (world.fetch cycle) := by
  rw [fetch]
  split
  · next hend => exact .closed hpage (by simpa using hend)
  · next hmore =>
    have hmore : cycle.listing.hasNext = true := by simpa using hmore
    split
    · next harrived =>
      split
      · next hcrashes => exact .fell hpage hmore harrived hcrashes
      · next hsound =>
        have hsound : cycle.listing.crashes = false := Bool.eq_false_iff.2 hsound
        split
        · next error rest hnext => exact .brokeOff hpage hmore harrived hsound hnext
        · next page rest hnext => exact .fetched hpage hmore harrived hsound hnext
    · next hwaits => exact .tookLong hpage hmore (Bool.eq_false_iff.2 hwaits)

/-- **A cycle goes on** in one of these ways. -/
theorem cycleMoves (world : World σ) (stage : CycleStage) :
    world.CycleMoves stage (world.cycleStep stage) := by
  cases stage with
  | queued => exact cycleMoves_beginCycle world
  | walking cycle =>
    rw [cycleStep, walk]
    split
    · next hpage => exact cycleMoves_fetch world hpage
    · next identity page hpage =>
      have hcache : ({ cycle with page }.takeIn world.cache identity world.now).2 =
          (world.cache.write (.present identity world.now)).2 := by
        rw [Cycle.takeIn_eq]
      dsimp only
      rw [hcache]
      exact .tookIn hpage
  | marking report gone =>
    cases gone with
    | nil => exact .completed report
    | cons id gone =>
      have hcache : (Cycle.markAbsent report world.cache id world.now).2 =
          (world.cache.write (.absent id world.now)).2 := by
        rw [Cycle.markAbsent_eq]
      rw [cycleStep, mark]
      dsimp only
      rw [hcache]
      exact .marked report id gone

/-- Where a call comes to with a step of its cycle. -/
def CycleStep.callStage : CycleStep → CallStage
  | .goesOn stage => .cycling stage
  | .ended outcome => .done (.ranCycle outcome)
  | .crashed => .done .crashed

theorem callStep_cycling (world : World σ) (who : Nat) (stage : CycleStage) :
    world.callStep who (.cycling stage) =
      ((world.cycleStep stage).1.callStage, (world.cycleStep stage).2) := by
  rw [callStep]
  rcases world.cycleStep stage with ⟨_ | _ | _, later⟩ <;> rfl

/-! ### The loop -/

/-- Where the loop comes to with a step of its cycle. -/
def CycleStep.loopStage : CycleStep → LoopStage
  | .goesOn stage => .cycling stage
  | .ended _ => .rest
  | .crashed => .done

theorem loopStep_cycling (world : World σ) (who : Nat) (stage : CycleStage) :
    world.loopStep who (.cycling stage) =
      ((world.cycleStep stage).1.loopStage, (world.cycleStep stage).2) := by
  rw [loopStep]
  rcases world.cycleStep stage with ⟨_ | _ | _, later⟩ <;> rfl

/-- **What a step of the loop does**, and when. -/
inductive LoopMoves (world : World σ) (who : Nat) : LoopStage → LoopStage × World σ → Prop where
  /-- The service is shutting down, so the loop ends before its next cycle. -/
  | leftTop (hshut : world.service.shuttingDown = true) : LoopMoves world who .top (.done, world)
  /-- It wants to run a cycle. -/
  | claimed (hrunning : world.service.shuttingDown = false) :
    LoopMoves world who .top
      (.cycling .queued, { world with service := world.service.claimTurn who })
  /-- It goes on with its cycle. -/
  | cycling {stage : CycleStage} {result : CycleStep × World σ}
    (h : world.CycleMoves stage result) :
    LoopMoves world who (.cycling stage) (result.1.loopStage, result.2)
  /-- The service is shutting down, so the loop ends after its cycle. -/
  | leftRest (hshut : world.service.shuttingDown = true) :
    LoopMoves world who .rest (.done, world)
  /-- A cycle was asked for meanwhile. -/
  | resumed (hrunning : world.service.shuttingDown = false)
    (hpermit : world.service.permit = true) :
    LoopMoves world who .rest
      (.top, { world with service := { world.service.publish .waiting with permit := false } })
  /-- It is parked until the next cycle. -/
  | parked (hrunning : world.service.shuttingDown = false)
    (hpermit : world.service.permit = false) :
    LoopMoves world who .rest
      (.parked (world.clock + world.service.refreshRate.nanos),
        { world with service := (world.service.publish .waiting).park who })
  /-- Its time has come, it was woken, or the service is shutting down. -/
  | unparked (due : Int) :
    LoopMoves world who (.parked due) (.top, { world with service := world.service.unpark who })
  | done : LoopMoves world who .done (.done, world)

/-- **The loop goes on** in one of these ways. -/
theorem loopMoves (world : World σ) (who : Nat) (stage : LoopStage) :
    world.LoopMoves who stage (world.loopStep who stage) := by
  cases stage with
  | top =>
    rw [loopStep]
    split
    · next hshut => exact .leftTop hshut
    · next hrunning => exact .claimed (Bool.eq_false_iff.2 hrunning)
  | cycling stage =>
    rw [loopStep_cycling]
    exact .cycling (world.cycleMoves stage)
  | rest =>
    rw [loopStep]
    split
    · next hshut => exact .leftRest hshut
    · next hrunning =>
      have hrunning : world.service.shuttingDown = false := Bool.eq_false_iff.2 hrunning
      dsimp only
      split
      · next hpermit =>
        rw [Service.permit_publish] at hpermit
        exact .resumed hrunning hpermit
      · next hpermit =>
        rw [Service.permit_publish] at hpermit
        rw [Service.refreshRate_publish]
        exact .parked hrunning (Bool.eq_false_iff.2 hpermit)
  | parked due => exact .unparked due
  | done => exact .done

/-! ### The supervisor -/

omit [KeyValueStore σ] in
/-- **What a step of the supervisor does**, and when. -/
inductive SupervisorMoves (world : World σ) :
    SupervisorStage → SupervisorStage × World σ → Prop where
  | began (hrunning : world.service.shuttingDown = false) :
    SupervisorMoves world .begun (.watching world.clock none, world)
  /-- The service is shutting down before a loop was started. -/
  | leftBegun (hshut : world.service.shuttingDown = true) :
    SupervisorMoves world .begun (.joining none, world)
  /-- There is no loop yet, or it has ended: another one is started. -/
  | started {due : Int} {loop : Option Nat} (hrunning : world.service.shuttingDown = false)
    (hdone : loop.all world.isDone = true) :
    SupervisorMoves world (.watching due loop)
      (.watching (world.nextTick due) (some world.tasks.length),
        world.add (.loop .top))
  | watched {due : Int} {loop : Option Nat} (hrunning : world.service.shuttingDown = false)
    (halive : loop.all world.isDone = false) :
    SupervisorMoves world (.watching due loop)
      (.watching (world.nextTick due) loop, world)
  /-- The service is shutting down, so the loop will end. -/
  | leftWatching {due : Int} {loop : Option Nat} (hshut : world.service.shuttingDown = true) :
    SupervisorMoves world (.watching due loop) (.joining loop, world)
  | stopped (loop : Option Nat) :
    SupervisorMoves world (.joining loop) (.done, { world with service := world.service.stop })
  | done : SupervisorMoves world .done (.done, world)

omit [KeyValueStore σ] in
/-- **The supervisor goes on** in one of these ways. -/
theorem supervisorMoves (world : World σ) (stage : SupervisorStage) :
    world.SupervisorMoves stage (world.supervisorStep stage) := by
  cases stage with
  | begun =>
    rw [supervisorStep]
    split
    · next hshut => exact .leftBegun hshut
    · next hrunning => exact .began (Bool.eq_false_iff.2 hrunning)
  | watching due loop =>
    rw [supervisorStep]
    split
    · next hshut => exact .leftWatching hshut
    · next hrunning =>
      have hrunning : world.service.shuttingDown = false := Bool.eq_false_iff.2 hrunning
      dsimp only
      split
      · next hdone => exact .started hrunning hdone
      · next halive => exact .watched hrunning (Bool.eq_false_iff.2 halive)
  | joining loop => exact .stopped loop
  | done => exact .done

end World

end DeviceScope
