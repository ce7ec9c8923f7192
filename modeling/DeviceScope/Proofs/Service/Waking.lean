import DeviceScope.Proofs.Service.Diary
import DeviceScope.Proofs.Service.Phases

/-!
# Who is parked and who is woken

Only four things happen to the loop, where nobody else runs cycles (`World.WakeMoves`): an event
leaves it alone together with those that wait (`World.Spares`), or asks for a cycle, or starts a
loop, or lets it go on. That the loop is woken at the end of its period is no fifth thing
(`World.elapse_cases`). Calls and the supervisor leave those that wait alone whatever they do
(`World.alike_callStep`, `World.alike_supervisorStep`), and so does every step of a cycle
(`World.alike_cycleStep`). What the diary tells of meanwhile, the statistics of the service count
(`World.Account.tallies`).
-/

namespace DeviceScope

variable {σ : Type}

namespace Service

/-- A request is kept where nobody is parked. -/
theorem requestRefresh_of_nil {service : Service} (h : service.parked = []) :
    service.requestRefresh.permit = true ∧ service.requestRefresh.parked = [] ∧
      service.requestRefresh.woken = service.woken := by
  simp [requestRefresh, h]

/-- A request wakes the first that is parked. -/
theorem requestRefresh_of_cons {service : Service} {who : Nat} {rest : List Nat}
    (h : service.parked = who :: rest) :
    service.requestRefresh.permit = service.permit ∧ service.requestRefresh.parked = rest ∧
      service.requestRefresh.woken = service.woken ++ [who] := by
  simp [requestRefresh, h]

/-- Hands on a wake that was of no use: the next one that is parked is woken, or a cycle is asked
for still. -/
def handOn (service : Service) : Service :=
  match service.parked with
  | [] => { service with permit := true }
  | who :: rest => { service with parked := rest, woken := service.woken ++ [who] }

/-- **A request is a wake that is handed on**, and counts. -/
theorem requestRefresh_eq_handOn (service : Service) :
    service.requestRefresh = { service.handOn with
      stats := { service.stats with wakeRequests := service.stats.wakeRequests + 1 } } := by
  rw [requestRefresh, handOn]
  cases service.parked <;> rfl

/-- What of a service is about waking. -/
structure Wakes where
  refreshRate : Span
  permit : Bool
  parked : List Nat
  woken : List Nat

def wakes (service : Service) : Wakes :=
  ⟨service.refreshRate, service.permit, service.parked, service.woken⟩

theorem wakes_publish (service : Service) (phase : Phase) :
    (service.publish phase).wakes = service.wakes := by
  unfold wakes
  rw [publish_eq]

theorem wakes_claimTurn (service : Service) (who : Nat) :
    (service.claimTurn who).wakes = service.wakes := by
  unfold wakes
  rw [claimTurn_eq]

/-- A cycle that has ended is no request. -/
theorem wakeRequests_account (stats : Stats) (outcome : CycleOutcome) :
    (stats.account outcome).wakeRequests = stats.wakeRequests := by
  unfold Stats.account
  cases outcome <;> rfl

end Service

namespace World

variable [FallibleStore σ]

/-! ### What a step leaves alone -/

/-- A cycle leaves the clock alone, and those that wait. -/
theorem alike_cycleStep (world : World σ) (stage : CycleStage) :
    (world.cycleStep stage).2.clock = world.clock ∧
      (world.cycleStep stage).2.service.wakes = world.service.wakes := by
  have hmoves := world.cycleMoves stage
  generalize world.cycleStep stage = result at hmoves
  cases hmoves with
  | began _ _ => exact ⟨rfl, Service.wakes_publish _ _⟩
  | crashed _ _ => exact ⟨rfl, Service.wakes_publish _ _⟩
  | closed _ _ => exact ⟨rfl, Service.wakes_publish _ _⟩
  | _ => exact ⟨rfl, rfl⟩

/-- So does a call. -/
theorem alike_callStep (world : World σ) (who : Nat) (stage : CallStage) :
    (world.callStep who stage).2.clock = world.clock ∧
      (world.callStep who stage).2.service.wakes = world.service.wakes := by
  have hturns := world.callTurns who stage
  generalize world.callStep who stage = result at hturns
  cases hturns with
  | claimed => exact ⟨rfl, Service.wakes_claimTurn _ _⟩
  | wentOn _ => exact alike_cycleStep world _
  | ended _ => exact alike_cycleStep world _
  | crashed _ => exact alike_cycleStep world _
  | _ => exact ⟨rfl, rfl⟩

omit [FallibleStore σ] in
/-- So does the supervisor. -/
theorem alike_supervisorStep (world : World σ) (stage : SupervisorStage) :
    (world.supervisorStep stage).2.clock = world.clock ∧
      (world.supervisorStep stage).2.service.wakes = world.service.wakes := by
  have hmoves := world.supervisorMoves stage
  generalize world.supervisorStep stage = result at hmoves
  cases hmoves with
  | _ => exact ⟨rfl, rfl⟩

theorem refreshRate_loopStep (world : World σ) (who : Nat) (stage : LoopStage) :
    (world.loopStep who stage).2.service.refreshRate = world.service.refreshRate := by
  have hmoves := world.loopMoves who stage
  generalize hresult : world.loopStep who stage = result at hmoves
  cases hmoves with
  | claimed _ => exact congrArg Service.Wakes.refreshRate (Service.wakes_claimTurn _ _)
  | @cycling stage _ _ =>
    rw [← hresult, snd_loopStep_cycling]
    exact congrArg Service.Wakes.refreshRate (alike_cycleStep world stage).2
  | resumed _ _ => exact Service.refreshRate_publish _ _
  | parked _ _ => exact Service.refreshRate_publish _ _
  | _ => rfl

/-! ### Woken at the end of the period -/

omit [FallibleStore σ] in
/-- The loop that is parked goes on because its period is over. If it has been woken as well, the
wake is handed on. -/
def elapse (world : World σ) (who : Nat) : World σ :=
  let service := world.service.unpark who
  let service := if who ∈ world.service.woken then service.handOn else service
  { world with service }.setTask who (.loop .top)

/-- **Which of the two it is makes no difference** if the loop has not been woken, and otherwise the
one of a request that follows at once, but for the number of requests. -/
theorem elapse_cases {world : World σ} {who : Nat} {due : Int}
    (htask : world.tasks[who]? = some (.loop (.parked due))) :
    (who ∉ world.service.woken ∧ world.elapse who = world.step who) ∨
      (who ∈ world.service.woken ∧ (world.step who).requestRefresh =
        { world.elapse who with service := { (world.elapse who).service with
          stats := { world.service.stats with
            wakeRequests := world.service.stats.wakeRequests + 1 } } }) := by
  have hstep : world.step who =
      { world with service := world.service.unpark who }.setTask who (.loop .top) := by
    rw [step, htask]
    rfl
  rw [hstep, elapse]
  by_cases hwoken : who ∈ world.service.woken
  · rw [if_pos hwoken]
    refine .inr ⟨hwoken, ?_⟩
    rw [requestRefresh, Service.requestRefresh_eq_handOn]
    rfl
  · rw [if_neg hwoken]
    exact .inl ⟨hwoken, rfl⟩

/-! ### What an event does to the loop -/

/-- **An event leaves the loop alone**, and those that wait, and enters nothing into the diary. -/
structure Spares (world : World σ) (event : Event σ) : Prop where
  moment : world.moment? event = none
  wakes : (world.after event).service.wakes = world.service.wakes
  clock : (world.after event).clock = world.clock ∨ event = .clock (world.after event).clock

/-- **What an event does to the loop**, where no call runs a cycle. -/
inductive WakeMoves (world : World σ) (event : Event σ) : Prop where
  | spared (h : world.Spares event)
    (hloops : ∀ (who : Nat) (stage : LoopStage),
      (world.after event).tasks[who]? = some (.loop stage) →
      world.tasks[who]? = some (.loop stage))
  /-- A cycle is asked for. -/
  | requested (hevent : event = .requestRefresh)
  /-- A loop is started. -/
  | spawned {supervisor : Nat} {due : Int} {loop : Option Nat} (h : world.Spares event)
    (hspawns : world.Spawns event supervisor due loop)
  /-- A loop goes on. -/
  | looped {who : Nat} {stage : LoopStage} (hevent : event = .goOn who)
    (htask : world.tasks[who]? = some (.loop stage)) (hnot : stage ≠ .done)

/-- A task that runs no cycle enters nothing into the diary. -/
theorem moment?_eq_none {world : World σ} {who : Nat} (hnone : world.isUnderWay who = false)
    (hlater : (world.step who).isUnderWay who = false) : world.moment? (.goOn who) = none := by
  unfold moment? after
  dsimp only
  rw [hnone, hlater]
  rfl

/-- **What a task enters into the diary** is told by the stage that it has come to, before and
after. -/
theorem moment?_of_task {world : World σ} {who : Nat} {task : Task}
    (htask : world.tasks[who]? = some task) :
    world.moment? (.goOn who) =
      (Mark.turned? (task.cycleStage?.any CycleStage.isUnderWay)
        ((world.nextTask who task).cycleStage?.any CycleStage.isUnderWay)).map
          (⟨·, world.clock⟩) := by
  have hnext : (world.step who).tasks[who]? = some (world.nextTask who task) := by
    rw [task_step, htask, Option.map_some]
  unfold moment? after
  dsimp only
  rw [isUnderWay_of_task htask, isUnderWay_of_task hnext]

/-- A loop that has come to its end stays there. -/
theorem step_of_done {world : World σ} {who : Nat}
    (htask : world.tasks[who]? = some (.loop .done)) : world.step who = world := by
  have hset : world.tasks.set who (.loop .done) = world.tasks := by
    obtain ⟨hlt, hget⟩ := List.getElem?_eq_some_iff.1 htask
    rw [← hget, List.set_getElem_self]
  rw [step_eq htask]
  show { world with tasks := world.tasks.set who (.loop .done) } = world
  rw [hset]

/-- Where nothing happens the loop is left alone. -/
theorem WakeMoves.of_step_eq {world : World σ} {who : Nat} (hsame : world.step who = world)
    (hidle : world.isUnderWay who = false) : world.WakeMoves (.goOn who) := by
  have hafter : world.after (.goOn who) = world := hsame
  refine .spared ⟨moment?_eq_none hidle (by rw [hsame]; exact hidle), ?_, .inl ?_⟩ ?_
  · rw [hafter]
  · rw [hafter]
  · rw [hafter]
    exact fun _ _ hloop => hloop

/-- No loop is started and none goes on when a call does. -/
theorem loop_of_call {world : World σ} {who other : Nat} {stage : CallStage} {later : LoopStage}
    (htask : world.tasks[who]? = some (.call stage))
    (hlater : (world.after (.goOn who)).tasks[other]? = some (.loop later)) :
    world.tasks[other]? = some (.loop later) := by
  rcases loop_after_cases hlater with
    ⟨heq, before, hbefore, -⟩ | ⟨-, hbefore⟩ | ⟨⟨supervisor, due, loop, hspawns⟩, -⟩
  · rw [← Event.goOn.inj heq, htask] at hbefore
    exact absurd hbefore (by simp)
  · exact hbefore
  · exact absurd (htask.symm.trans hspawns.task_of_goOn) (by simp)

/-- A supervisor leaves the loops alone, or starts one. -/
theorem wakeMoves_of_supervisor {world : World σ} {who : Nat} {stage : SupervisorStage}
    (htask : world.tasks[who]? = some (.supervisor stage)) : world.WakeMoves (.goOn who) := by
  obtain ⟨hclock, hwakes⟩ := world.alike_supervisorStep stage
  have hspares : world.Spares (.goOn who) :=
    ⟨moment?_of_task htask, by rw [after, service_step htask]; exact hwakes,
      .inl ((clock_step htask).trans hclock)⟩
  by_cases hspawns : ∃ supervisor due loop, world.Spawns (.goOn who) supervisor due loop
  · obtain ⟨supervisor, due, loop, hspawns⟩ := hspawns
    exact .spawned hspares hspawns
  · refine .spared hspares fun other later hlater => ?_
    rcases loop_after_cases hlater with ⟨heq, before, hbefore, -⟩ | ⟨-, hbefore⟩ | ⟨hnew, -⟩
    · rw [← Event.goOn.inj heq, htask] at hbefore
      exact absurd hbefore (by simp)
    · exact hbefore
    · exact absurd hnew hspawns

/-- A call that runs no cycle leaves the loop alone. -/
theorem wakeMoves_of_call {world : World σ} {who : Nat} {stage : CallStage}
    (htask : world.tasks[who]? = some (.call stage)) (hrunsNone : stage.runsCycle = false) :
    world.WakeMoves (.goOn who) := by
  obtain ⟨hclock, hwakes⟩ := world.alike_callStep who stage
  have hidle : ∀ stage : CallStage, stage.runsCycle = false →
      (Task.cycleStage? (.call stage)).any CycleStage.isUnderWay = false := by
    intro stage hstage
    cases stage with
    | cycling stage => exact absurd hstage (by simp [CallStage.runsCycle])
    | _ => rfl
  refine .spared ⟨?_, ?_, .inl ((clock_step htask).trans hclock)⟩ fun _ _ => loop_of_call htask
  · rw [moment?_of_task htask, hidle stage hrunsNone, nextTask,
      hidle _ (runsCycle_callStep who hrunsNone).1]
    rfl
  · rw [after, service_step htask]
    exact hwakes

/-- **Whatever happens to the loop** is one of these. -/
theorem wakeMoves {world : World σ}
    (hcalls : ∀ (who : Nat) (stage : CallStage), world.tasks[who]? = some (.call stage) →
      stage.runsCycle = false)
    (event : Event σ) : world.WakeMoves event := by
  -- Loops come only when a supervisor goes on.
  have hloops : (∀ who, event ≠ .goOn who) → ∀ (who : Nat) (stage : LoopStage),
      (world.after event).tasks[who]? = some (.loop stage) →
      world.tasks[who]? = some (.loop stage) := by
    intro hne who stage hlater
    rcases loop_after_cases hlater with ⟨heq, -⟩ | ⟨-, hbefore⟩ | ⟨hnew, -⟩
    · exact absurd heq (hne who)
    · exact hbefore
    · obtain ⟨supervisor, due, loop, hspawns⟩ := hnew
      exact absurd hspawns.event_eq (hne supervisor)
  cases event with
  | goOn who =>
    cases htask : world.tasks[who]? with
    | none =>
      refine .of_step_eq (step_of_none htask) ?_
      rw [isUnderWay, cycleStage?, htask]
      rfl
    | some task =>
      cases task with
      | call stage => exact wakeMoves_of_call htask (hcalls who stage htask)
      | supervisor stage => exact wakeMoves_of_supervisor htask
      | loop stage =>
        by_cases hdone : stage = .done
        · subst hdone
          exact .of_step_eq (step_of_done htask) (isUnderWay_of_task htask)
        · exact .looped rfl htask hdone
  | requestRefresh => exact .requested rfl
  | clock clock => exact .spared ⟨rfl, rfl, .inr rfl⟩ (hloops fun _ => by simp)
  | _ => exact .spared ⟨rfl, rfl, .inl rfl⟩ (hloops fun _ => by simp)

/-! ### What the statistics count -/

/-- **The statistics count what the diary tells of.** -/
structure Tallies (world later : World σ) (diary : Diary) : Prop where
  began : later.service.stats.cyclesStarted =
    world.service.stats.cyclesStarted + diary.tally .began
  requested : later.service.stats.wakeRequests =
    world.service.stats.wakeRequests + diary.tally .requested

omit [FallibleStore σ] in
theorem Tallies.of_stats_eq {world later : World σ} {diary : Diary}
    (hstats : later.service.stats = world.service.stats) (hbegan : diary.tally .began = 0)
    (hrequested : diary.tally .requested = 0) : Tallies world later diary where
  began := by rw [hstats, hbegan]; rfl
  requested := by rw [hstats, hrequested]; rfl

theorem tallies_of_cycleStage? {world : World σ} {who : Nat} {stage : CycleStage}
    (hstage : world.cycleStage? who = some stage) (hready : world.isReady who = true)
    (hcrash : ¬ world.Crashes who) :
    Tallies world (world.step who) (world.moment? (.goOn who)).toList := by
  have hmoment : world.moment? (.goOn who) =
      (Mark.turned? stage.isUnderWay
        (((world.step who).cycleStage? who).any CycleStage.isUnderWay)).map
          (⟨·, world.clock⟩) := by
    unfold moment?
    dsimp only
    rw [isUnderWay_eq hstage]
    rfl
  rw [cycleStage?_step_of_some hstage] at hmoment
  obtain ⟨task, hworld⟩ := exists_step_eq_of_cycleStage? hstage
  have hstats : (world.step who).service.stats = (world.cycleStep stage).2.service.stats := by
    rw [hworld]
    rfl
  -- The end of a cycle is counted under its outcome, not as a beginning.
  have hends : ∀ outcome, world.cycleStep stage = world.endCycle outcome →
      Tallies world (world.step who) (world.moment? (.goOn who)).toList := by
    intro outcome hended
    have hsame : (world.step who).service.stats = world.service.stats.account outcome := by
      rw [hstats, hended]
      rfl
    rw [hended] at hmoment
    rw [hmoment]
    constructor
    · rw [hsame, Service.cyclesStarted_account]
      cases stage.isUnderWay <;> rfl
    · rw [hsame, Service.wakeRequests_account]
      cases stage.isUnderWay <;> rfl
  have hmoves := world.cycleMoves stage
  generalize hresult : world.cycleStep stage = result at hmoves hmoment hstats hends
  have hgoesOn : ∀ later, result.1 = .goesOn later → stage.isUnderWay = true →
      result.2.service.stats = world.service.stats →
      Tallies world (world.step who) (world.moment? (.goOn who)).toList := by
    intro later hlater hunderWay hsame
    have hnone : world.moment? (.goOn who) = none := by
      rw [hmoment, hunderWay, hlater]
      rw [← hresult] at hlater
      rw [Option.any_some, isUnderWay_of_goesOn hlater]
      rfl
    rw [hnone]
    exact .of_stats_eq (hstats.trans hsame) rfl rfl
  cases hmoves with
  | cancelled _ => exact hends _ rfl
  | began _ _ =>
    have hcounted : (world.step who).service.stats = { world.service.stats with
        cyclesStarted := world.service.stats.cyclesStarted + 1 } :=
      hstats.trans (Service.stats_publish _ _)
    rw [hmoment]
    constructor <;> rw [hcounted] <;> rfl
  | crashed _ _ => exact absurd ⟨_, hstage, hready, by rw [hresult]⟩ hcrash
  | fell _ _ _ _ => exact absurd ⟨_, hstage, hready, by rw [hresult]⟩ hcrash
  | closed _ _ => exact hgoesOn _ rfl rfl (Service.stats_publish _ _)
  | fetched _ _ _ _ _ => exact hgoesOn _ rfl rfl rfl
  | brokeOff _ _ _ _ _ => exact hends _ rfl
  | tookLong _ _ _ => exact hends _ rfl
  | tookIn _ => exact hgoesOn _ rfl rfl rfl
  | completed _ => exact hends _ rfl
  | marked _ _ _ => exact hgoesOn _ rfl rfl rfl

/-- **The statistics go on counting**, whatever happens. -/
theorem tallies_after {world : World σ} {event : Event σ} (hadmits : world.Admits event)
    (hcrash : ∀ who, event = .goOn who → ¬ world.Crashes who) :
    Tallies world (world.after event) (world.moment? event).toList := by
  cases event with
  | goOn who =>
    cases hstage : world.cycleStage? who with
    | none =>
      have hidle : world.isUnderWay who = false := by rw [isUnderWay, hstage]; rfl
      rw [moment?_eq_none hidle (isUnderWay_step_of_none hstage)]
      exact .of_stats_eq (stepsAside_step hstage).stats_eq rfl rfl
    | some stage => exact tallies_of_cycleStage? hstage hadmits (hcrash who rfl)
  | requestRefresh =>
    constructor
    · exact Service.cyclesStarted_requestRefresh _
    · show world.service.requestRefresh.stats.wakeRequests = _
      rw [Service.requestRefresh_eq]
      rfl
  | _ => exact .of_stats_eq rfl rfl rfl

/-- **The statistics count what the diary tells of**, along every course. -/
theorem Account.tallies {allowed : World σ → Event σ → Prop} {start world : World σ}
    {diary : Diary} (h : Account allowed start diary world)
    (hcrash : ∀ world event, allowed world event → ∀ who, event = .goOn who → ¬ world.Crashes who) :
    Tallies start world diary := by
  induction h with
  | here => exact ⟨rfl, rfl⟩
  | next haccount hevent hadmits ih =>
    have hnext := tallies_after hadmits (hcrash _ _ hevent)
    constructor
    · rw [hnext.began, ih.began, Diary.tally_append, Nat.add_assoc]
    · rw [hnext.requested, ih.requested, Diary.tally_append, Nat.add_assoc]

end World

end DeviceScope
