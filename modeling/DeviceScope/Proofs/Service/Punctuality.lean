import DeviceScope.Proofs.Service.Ending
import DeviceScope.Proofs.Service.Refreshing
import DeviceScope.Proofs.Service.Timetable

/-!
# Cycles that end on time

A cycle that is run alone ends at a moment that is known beforehand, and in a way that is known
beforehand. It depends on how many pages the listing takes (`Directory.fetches`), how long each of
them takes (`Directory.pace`), and how long the listing may take: if the last page arrives in time
the cycle ends with it, and otherwise at the deadline (`World.Punctual`).

Time passes only while the task of the cycle waits (`World.patiently`). So along every such course
the cycle keeps to the timetable of the moment at which it was called for (`World.OnSchedule`,
`Course.onSchedule`), and it can always be carried to its end (`Course.exists_outcome`).
-/

namespace DeviceScope

variable {σ : Type}

namespace Directory

/-- How long each page of a new listing takes, in nanoseconds. -/
def pace (directory : Directory) : Nat := directory.pageDelay.elim 0 Span.nanos

theorem served_listing (directory : Directory) : directory.listing.served = 0 := by
  unfold listing
  split <;> rfl

theorem delay_listing {directory : Directory} (h : directory.reachable = true) :
    directory.listing.delay = directory.pageDelay := by
  rw [listing, if_pos h]

theorem failure_listing {directory : Directory} (h : directory.reachable = true) :
    directory.listing.failure = directory.listingFailure := by
  rw [listing, if_pos h]

theorem crash_listing {directory : Directory} (h : directory.pageCrash = none) :
    directory.listing.crash = none := by
  rw [listing]
  split
  · exact h
  · rfl

end Directory

/-- When nothing is left of the page, the cycle has taken in what the pages show that were
served. -/
theorem Cycle.Follows.written_eq_take {opened : Listing} {written : List Identity} {cycle : Cycle}
    (h : Cycle.Follows opened written cycle) (hserved : opened.served = 0)
    (hpage : cycle.page = []) :
    written = (opened.pages.take cycle.listing.served).flatten := by
  obtain ⟨taken, hwalked, htaken⟩ := h.fetched
  rw [hpage, List.append_nil] at htaken
  rw [← htaken]
  exact hwalked.flatten_eq_take hserved

namespace World

/-! ### Waiting for one task -/

/-- **The task waits** until this moment at least: it cannot go on, and its alarm is not before. -/
def Waits (world : World σ) (who : Nat) (clock : Int) : Prop :=
  world.isReady who = false ∧ world.clock ≤ clock ∧
    ∃ alarm, world.tasks[who]?.bind Task.alarm? = some alarm ∧ clock ≤ alarm

/-- **What happens while one task is waited for**: no other task goes on, the directory stays as it
is, the service is not shut down, and time passes only while the task waits. -/
def patiently (who : Nat) : World σ → Event σ → Prop := fun world event =>
  lone who world event ∧ event ≠ .shutdown ∧
    ∀ clock, event = .clock clock → world.Waits who clock

theorem patiently_goOn (who : Nat) (world : World σ) : patiently who world (.goOn who) :=
  ⟨lone_goOn who world, by simp, by simp⟩

/-- The timetable of a cycle that begins now. -/
def timetable (world : World σ) : Timetable :=
  ⟨world.clock, world.directory.listing, world.service.cycleTimeout⟩

theorem pace_timetable {world : World σ} (h : world.directory.reachable = true) :
    world.timetable.pace = world.directory.pace := by
  rw [Timetable.pace, Directory.pace, ← Directory.delay_listing h]
  rfl

/-- **A cycle can begin at once**: nobody else runs one, the service is not shutting down, and the
listing opens and does not crash later. -/
structure Vacant (world : World σ) : Prop where
  turn_eq : world.service.turn = none
  running : world.service.shuttingDown = false
  opens : world.directory.Opens
  pageCrash_eq : world.directory.pageCrash = none

/-- A cycle that was called for has not begun, and nothing stands in its way. -/
structure Pending (start world : World σ) (turn : Option Nat) : Prop where
  timetable_eq : world.timetable = start.timetable
  turn_eq : world.service.turn = turn
  running : world.service.shuttingDown = false

/-- **Where a cycle stands by its timetable** at each stage of the call that runs it, if the call
came in in `start`. -/
def OnSchedule (start : World σ) (log : List Attempt) (world : World σ) : CallStage → Prop
  | .begun _ => Pending start world none
  | .cycling .queued => Pending start world (some start.tasks.length)
  | .cycling (.walking cycle) => start.timetable.Keeps world.clock cycle
  | .cycling (.marking _ _) => start.timetable.Through world.clock
  | .done (.ranCycle outcome) => start.timetable.Ended log world.clock outcome
  | _ => False

/-! ### Step by step -/

section Steps

variable [FallibleStore σ]

/-- The clock stands still while a cycle goes on. -/
theorem clock_cycleStep (world : World σ) (stage : CycleStage) :
    (world.cycleStep stage).2.clock = world.clock := by
  have hmoves := world.cycleMoves stage
  generalize world.cycleStep stage = result at hmoves
  cases hmoves <;> rfl

variable {start world : World σ} {log : List Attempt}

omit [FallibleStore σ] in
/-- With nothing left of the page, the report is about what the pages show that were served. -/
theorem covers_of_standing {directory : Directory} {cycle : Cycle}
    (h : Standing start log directory (.cycling (.walking cycle))) (hpage : cycle.page = []) :
    cycle.report.Covers (start.directory.listing.pages.take cycle.listing.served).flatten log := by
  obtain ⟨written, hfollows, hlog, hfailures⟩ := h
  rw [← hfollows.written_eq_take (Directory.served_listing _) hpage]
  refine ⟨hlog, ?_⟩
  calc cycle.report
      = ⟨cycle.report.listed, cycle.report.removed, cycle.report.failures⟩ := rfl
    _ = ⟨written.length, 0, Attempt.failures log⟩ := by
      rw [hfollows.listed, hfollows.removed, hfailures]

/-- **A cycle that goes on** keeps to its timetable. -/
theorem OnSchedule.turn {stage later : CycleStage} {more : List Attempt} {next : World σ}
    (h : OnSchedule start log world (.cycling stage)) (hclock : next.clock = world.clock)
    (hstep : (world.cycleStep stage).1 = .goesOn later) :
    OnSchedule start more next (.cycling later) := by
  -- Under way nothing matters but the clock, which is the same.
  obtain ⟨clock, _, _, _, _⟩ := next
  obtain rfl : clock = world.clock := hclock
  have hmoves := world.cycleMoves stage
  generalize world.cycleStep stage = result at hmoves hstep
  cases hmoves with
  | began hrunning hopened =>
    obtain rfl := CycleStep.goesOn.inj hstep
    show start.timetable.Keeps world.clock _
    rw [← h.timetable_eq]
    exact Timetable.keeps_start world.timetable (Directory.served_listing _)
  | closed hpage hend =>
    obtain rfl := CycleStep.goesOn.inj hstep
    exact Timetable.Keeps.closed h hend
  | fetched hpage hmore harrived _ hnext =>
    obtain rfl := CycleStep.goesOn.inj hstep
    exact Timetable.Keeps.fetched h hpage hmore harrived hnext
  | tookIn hpage =>
    obtain rfl := CycleStep.goesOn.inj hstep
    exact Timetable.Keeps.tookIn h world.cache world.now hpage
  | marked report id gone =>
    obtain rfl := CycleStep.goesOn.inj hstep
    exact h
  | crashed _ _ => exact absurd hstep (by simp)
  | _ => exact absurd hstep (by simp [endCycle])

/-- **A cycle that ends** does so by its timetable. -/
theorem OnSchedule.ended {stage : CycleStage} {outcome : CycleOutcome}
    (h : OnSchedule start log world (.cycling stage))
    (hstanding : Standing start log world.directory (.cycling stage))
    (hready : world.isCycleReady start.tasks.length stage = true)
    (hstep : (world.cycleStep stage).1 = .ended outcome) :
    start.timetable.Ended log world.clock outcome := by
  have hmoves := world.cycleMoves stage
  generalize world.cycleStep stage = result at hmoves hstep
  -- There are four moves by which a cycle ends, and the service is not shutting down.
  cases hmoves with
  | cancelled hshut =>
    rw [h.running] at hshut
    exact absurd hshut (by decide)
  | brokeOff hpage hmore harrived _ hnext =>
    obtain rfl := CycleStep.ended.inj hstep
    obtain ⟨hfailure, hclock, hintime⟩ := Timetable.Keeps.brokeOff h hpage harrived hnext
    exact .aborted hfailure hclock hintime (covers_of_standing hstanding hpage)
  | @tookLong cycle hpage hmore hwaits =>
    obtain rfl := CycleStep.ended.inj hstep
    obtain ⟨span, htimeout, hclock, hserved, hlate⟩ :=
      Timetable.Keeps.tookLong h hpage hmore hwaits hready
    have hcovers := covers_of_standing hstanding hpage
    rw [hserved] at hcovers
    exact .timedOut htimeout hlate hclock hcovers
  | completed report =>
    obtain rfl := CycleStep.ended.inj hstep
    obtain ⟨shown, marked, -, haccounted⟩ := hstanding
    exact .completed h (by rw [haccounted.report_eq]; rfl)
  | _ => exact absurd hstep (by simp)

omit [FallibleStore σ] in
/-- A cycle that is on schedule walks through a listing that does not crash. -/
theorem OnSchedule.lasts {stage : CycleStage} (h : OnSchedule start log world (.cycling stage))
    (hvacant : start.Vacant) : stage.lasts = true := by
  cases stage with
  | walking cycle =>
    have hkeeps : start.timetable.Keeps world.clock cycle := h
    exact Option.isNone_iff_eq_none.2
      (hkeeps.left.crash_eq.trans (Directory.crash_listing hvacant.pageCrash_eq))
  | _ => rfl

/-- **A call that goes on** with its cycle is on schedule again. -/
theorem OnSchedule.step {stage : CallStage} (h : OnSchedule start log world stage)
    (hstanding : Standing start log world.directory stage) (hvacant : start.Vacant)
    (htask : world.tasks[start.tasks.length]? = some (.call stage))
    (hready : world.isReady start.tasks.length = true) :
    OnSchedule start (log ++ world.attempts (.goOn start.tasks.length))
      (world.step start.tasks.length) (world.callStep start.tasks.length stage).1 := by
  cases stage with
  | begun call =>
    cases call with
    | runCycle =>
      -- The turn is free, so the call has it at once.
      have hclaimed : world.service.claimTurn start.tasks.length =
          { world.service with turn := some start.tasks.length } := by
        rw [Service.claimTurn, h.turn_eq]
      have hnext : (world.step start.tasks.length).timetable = world.timetable ∧
          (world.step start.tasks.length).service =
            { world.service with turn := some start.tasks.length } := by
        rw [step_of_call htask, callStep, beginCall, hclaimed]
        exact ⟨rfl, rfl⟩
      refine ⟨hnext.1.trans h.timetable_eq, ?_, ?_⟩
      · rw [hnext.2]
      · rw [hnext.2]
        exact h.running
    | _ => exact absurd hstanding fun h => h
  | cycling stage =>
    rw [isReady_of_task htask] at hready
    have hclock : (world.step start.tasks.length).clock = world.clock := by
      rw [clock_step htask, nextWorld, callStep_cycling]
      exact clock_cycleStep world stage
    rw [callStep_cycling]
    cases hstep : (world.cycleStep stage).1 with
    | goesOn later => exact h.turn hclock hstep
    | ended outcome =>
      -- The last step writes nothing.
      show start.timetable.Ended _ (world.step start.tasks.length).clock outcome
      rw [hclock, attempts_goOn_of_call htask, callWrite?,
        cycleWrite?_of_ends (ends_of_ended hstep), Cache.attempts_none, List.append_nil]
      exact h.ended hstanding hready hstep
    | crashed =>
      -- Neither opening the listing crashes nor a page of it.
      have hlasts := h.lasts hvacant
      cases stage with
      | queued =>
        obtain ⟨-, hdirectory⟩ := hstanding
        have hopens := hvacant.opens
        rw [← hdirectory] at hopens
        exact absurd hstep (not_crashed_of_opens hopens hlasts)
      | _ => exact absurd hstep (not_crashed_of_lasts rfl hlasts)
  | done reply => exact absurd hready (not_isReady_of_done htask)
  | _ => exact absurd hstanding fun h => h

/-- While one task is waited for and does not go on, the clock moves or nothing changes that a
timetable depends on. -/
theorem of_patiently {who : Nat} {event : Event σ} (h : patiently who world event)
    (hevent : event ≠ .goOn who) :
    (∃ clock, event = .clock clock ∧ world.Waits who clock) ∨
      (world.after event).timetable = world.timetable ∧
        (world.after event).service.turn = world.service.turn ∧
        (world.after event).service.shuttingDown = world.service.shuttingDown := by
  obtain ⟨hlone, hshutdown, hclock⟩ := h
  cases event with
  | goOn other => exact absurd (congrArg Event.goOn (hlone.1 other rfl)) hevent
  | shutdown => exact absurd rfl hshutdown
  | clock clock => exact .inl ⟨clock, rfl, hclock clock rfl⟩
  | directory directory => exact absurd rfl (hlone.2 directory)
  | requestRefresh =>
    refine .inr ⟨?_, Service.turn_requestRefresh _, Service.shuttingDown_requestRefresh _⟩
    exact congrArg (Timetable.mk _ _) (Service.cycleTimeout_requestRefresh _)
  | _ => exact .inr ⟨rfl, rfl, rfl⟩

/-- While the task of the call does not go on, the cycle stays on schedule. -/
theorem OnSchedule.after_of_ne {stage : CallStage} {event : Event σ}
    (h : OnSchedule start log world stage)
    (htask : world.tasks[start.tasks.length]? = some (.call stage))
    (hallowed : patiently start.tasks.length world event)
    (hevent : event ≠ .goOn start.tasks.length) :
    OnSchedule start log (world.after event) stage := by
  rcases of_patiently hallowed hevent with
    ⟨clock, rfl, hwaits, hle, alarm, halarm, hbefore⟩ | ⟨htimetable, hturn, hrunning⟩
  · -- Time passes for a cycle that waits for a page, and for nothing else.
    rw [htask, Option.bind_some] at halarm
    rw [isReady_of_task htask] at hwaits
    cases stage with
    | cycling stage =>
      cases stage with
      | walking cycle => exact Timetable.Keeps.wait h hwaits hle halarm hbefore
      | _ => exact absurd halarm (by simp [Task.alarm?, CycleStage.alarm?])
    | asking id purpose due => exact absurd h fun h => h
    | _ => exact absurd halarm (by simp [Task.alarm?])
  · -- The timetable of the world is the same, and with it what the call waits for.
    have hpending : ∀ turn, Pending start world turn → Pending start (world.after event) turn :=
      fun turn h => ⟨htimetable.trans h.timetable_eq, hturn.trans h.turn_eq,
        hrunning.trans h.running⟩
    have hclock : (world.after event).clock = world.clock := congrArg Timetable.begun htimetable
    unfold OnSchedule at h ⊢
    rw [hclock]
    split at h
    · exact hpending _ h
    · exact hpending _ h
    · exact h
    · exact h
    · exact h
    · exact h

/-! ### Along a course -/

theorem Course.standing_of_task {stage : CallStage}
    (h : Course (patiently start.tasks.length) (start.begin .runCycle) log world)
    (hkeyed : start.cache.records.KeyedBy Record.id)
    (htask : world.tasks[start.tasks.length]? = some (.call stage)) :
    Standing start log world.directory stage := by
  obtain ⟨other, hother, hstanding⟩ := (h.mono fun _ _ hallowed => hallowed.1).standing hkeyed
  rw [htask] at hother
  rwa [Task.call.inj (Option.some.inj hother)]

/-- **A cycle that is waited for is on schedule** all along the way. -/
theorem Course.onSchedule
    (h : Course (patiently start.tasks.length) (start.begin .runCycle) log world)
    (hkeyed : start.cache.records.KeyedBy Record.id) (hvacant : start.Vacant) :
    ∃ stage, world.tasks[start.tasks.length]? = some (.call stage) ∧
      OnSchedule start log world stage := by
  induction h with
  | here => exact ⟨_, task_begin start .runCycle, rfl, hvacant.turn_eq, hvacant.running⟩
  | @next log world event hcourse hallowed hadmits ih =>
    obtain ⟨stage, htask, hschedule⟩ := ih
    by_cases hevent : event = .goOn start.tasks.length
    · subst hevent
      have hstanding := hcourse.standing_of_task hkeyed htask
      exact ⟨_, task_step_of_call htask, hschedule.step hstanding hvacant htask hadmits⟩
    · refine ⟨stage, task_after_of_ne hevent htask, ?_⟩
      rw [(attempts_of_lone hallowed.1 hevent).1, List.append_nil]
      exact hschedule.after_of_ne htask hallowed hevent

/-- A cycle that is under way goes on when its page has arrived or its deadline has come. -/
theorem exists_patiently_ready {who : Nat} {stage : CycleStage}
    (htask : world.tasks[who]? = some (.call (.cycling stage)))
    (hunderWay : stage.isUnderWay = true) :
    ∃ clock, Course (patiently who) world [] { world with clock } ∧
      { world with clock }.isCycleReady who stage = true := by
  cases stage with
  | queued => exact absurd hunderWay (by decide)
  | marking report gone => exact ⟨world.clock, .here, rfl⟩
  | walking cycle =>
    cases hwaits : cycle.isReady world.clock with
    | true => exact ⟨world.clock, .here, hwaits⟩
    | false =>
      obtain ⟨alarm, halarm, hle, hready⟩ := Cycle.exists_alarm hwaits
      have hwaiting : world.Waits who alarm := by
        refine ⟨(isReady_of_task htask).trans hwaits, hle, alarm, ?_, Int.le_refl _⟩
        rw [htask]
        exact halarm
      refine ⟨alarm, Course.here.tick alarm ⟨lone_clock who world alarm, by simp, ?_⟩, hready⟩
      rintro clock heq
      rwa [← Event.clock.inj heq]

/-- **A cycle that is under way comes to its end**, if it is waited for and its listing does not
crash. -/
theorem exists_outcome_of_isUnderWay {world : World σ} {who : Nat} (stage : CycleStage)
    (htask : world.tasks[who]? = some (.call (.cycling stage)))
    (hunderWay : stage.isUnderWay = true) (hlasts : stage.lasts = true) :
    ∃ log later outcome, Course (patiently who) world log later ∧
      later.outcome? who = some outcome := by
  obtain ⟨clock, hticked, hready⟩ := exists_patiently_ready htask hunderWay
  obtain ⟨hstepped, hnext⟩ := hticked.proceed (patiently_goOn who _) htask hready
  rw [callStep_cycling] at hnext
  cases hstep : ({ world with clock }.cycleStep stage).1 with
  | ended outcome =>
    rw [hstep] at hnext
    refine ⟨_, _, outcome, hstepped, ?_⟩
    rw [outcome?, hnext]
    rfl
  | crashed => exact absurd hstep (not_crashed_of_lasts hunderWay hlasts)
  | goesOn later =>
    -- One more step is done, and what is left is less.
    rw [hstep] at hnext
    obtain ⟨log, final, outcome, hfinal, houtcome⟩ :=
      exists_outcome_of_isUnderWay later hnext (isUnderWay_of_goesOn hstep)
        (lasts_of_goesOn hunderWay hlasts hstep)
    exact ⟨_, final, outcome, hstepped.trans hfinal, houtcome⟩
termination_by stage.rank
decreasing_by exact rank_lt_of_goesOn hstep

/-- A cycle that has its turn begins. -/
theorem exists_outcome_of_queued {world : World σ} {who : Nat}
    (htask : world.tasks[who]? = some (.call (.cycling .queued)))
    (hturn : world.service.turn = some who) (hrunning : world.service.shuttingDown = false)
    (hopens : world.directory.Opens) (hsound : world.directory.pageCrash = none) :
    ∃ log later outcome, Course (patiently who) world log later ∧
      later.outcome? who = some outcome := by
  obtain ⟨hstepped, hnext⟩ :=
    Course.here.proceed (patiently_goOn who world) htask (decide_eq_true hturn)
  rw [callStep_cycling] at hnext
  have hmoves := world.cycleMoves .queued
  have hcrashed : (world.cycleStep .queued).1 ≠ .crashed := not_crashed_of_opens hopens rfl
  generalize world.cycleStep .queued = result at hmoves hcrashed hnext
  cases hmoves with
  | cancelled hshut =>
    rw [hrunning] at hshut
    exact absurd hshut (by decide)
  | crashed _ _ => exact absurd rfl hcrashed
  | began _ _ =>
    obtain ⟨log, final, outcome, hfinal, houtcome⟩ := exists_outcome_of_isUnderWay _ hnext rfl
      (Option.isNone_iff_eq_none.2 (Directory.crash_listing hsound))
    exact ⟨_, final, outcome, hstepped.trans hfinal, houtcome⟩

/-- **Wherever a cycle stands that is waited for, it comes to its end** from there. -/
theorem Course.exists_outcome
    (h : Course (patiently start.tasks.length) (start.begin .runCycle) log world)
    (hkeyed : start.cache.records.KeyedBy Record.id) (hvacant : start.Vacant) :
    ∃ more later outcome, Course (patiently start.tasks.length) world more later ∧
      later.outcome? start.tasks.length = some outcome := by
  obtain ⟨stage, htask, hschedule⟩ := h.onSchedule hkeyed hvacant
  have hstanding := h.standing_of_task hkeyed htask
  cases stage with
  | begun call =>
    cases call with
    | runCycle =>
      -- It claims its turn, and then it stands where it waits for it.
      have hready : world.isTaskReady start.tasks.length (.call (.begun .runCycle)) = true := rfl
      obtain ⟨hclaimed, hqueued⟩ :=
        Course.here.proceed (patiently_goOn _ world) htask hready
      have hgoes := (isReady_of_task htask).trans hready
      have hpending := hschedule.step hstanding hvacant htask hgoes
      have hlater := h.goOn _ (patiently_goOn _ _) hgoes
      obtain ⟨-, hdirectory⟩ := hlater.standing_of_task hkeyed hqueued
      obtain ⟨more, later, outcome, hlater, houtcome⟩ := exists_outcome_of_queued hqueued
        hpending.turn_eq hpending.running (hdirectory ▸ hvacant.opens)
        (hdirectory ▸ hvacant.pageCrash_eq)
      exact ⟨_, later, outcome, hclaimed.trans hlater, houtcome⟩
    | _ => exact absurd hstanding fun h => h
  | cycling stage =>
    cases stage with
    | queued =>
      exact exists_outcome_of_queued htask hschedule.turn_eq hschedule.running
        (hstanding.2 ▸ hvacant.opens) (hstanding.2 ▸ hvacant.pageCrash_eq)
    | _ => exact exists_outcome_of_isUnderWay _ htask rfl (hschedule.lasts hvacant)
  | done reply =>
    cases reply with
    | ranCycle outcome =>
      refine ⟨[], world, outcome, .here, ?_⟩
      rw [outcome?, htask]
    | _ => exact absurd hschedule fun h => h
  | _ => exact absurd hstanding fun h => h

end Steps

/-! ### On time -/

/-- **The first identities of a directory were taken in**, in the order of their ids, and nothing
else has happened to the records. -/
structure TookFirst (directory : Directory) (count : Nat) (before after : Cache σ)
    (log : List Attempt) (report : Report) : Prop where
  /-- They were written one after another, and nothing else was. -/
  statement_eq : log.map Attempt.statement =
    (directory.identities.values.take count).map Identity.statement
  ordered : (directory.identities.values.map Identity.id).Pairwise (· < ·)
  listed_eq : report.listed = min directory.identities.size count
  removed_eq : report.removed = 0
  failures_eq : report.failures = Attempt.failures log
  /-- If its write failed, the record of an identity is what it was. -/
  taken : ∀ identity ∈ directory.identities.values.take count,
    ∃ attempt ∈ log, attempt.statement = identity.statement ∧
      after.record? identity.id =
        if attempt.succeeded then some attempt.record else before.record? identity.id
  untouched : ∀ id, (∀ identity ∈ directory.identities.values.take count, identity.id ≠ id) →
    after.record? id = before.record? id

/-- Whether all pages that a listing takes arrive before it has taken too long. -/
def ListsInTime (world : World σ) : Prop :=
  ∀ span, world.service.cycleTimeout = some span →
    world.directory.fetches * world.directory.pace ≤ span.nanos

/-- **A cycle has ended on time.** -/
structure Punctual (before : World σ) (log : List Attempt) (after : World σ)
    (outcome : CycleOutcome) : Prop where
  /-- If every page is in time, the cycle ends when the last one has arrived. -/
  clock_eq : before.ListsInTime →
    after.clock = before.clock + (before.directory.fetches * before.directory.pace : Nat)
  completed : before.ListsInTime → before.directory.listingFailure = none →
    ∃ report, outcome = .completed report ∧ report.listed = before.directory.identities.size
  aborted : before.ListsInTime →
    ∀ page error, before.directory.listingFailure = some (page, error) →
    ∃ report, outcome = .aborted report error ∧
      TookFirst before.directory (page * before.directory.pageSize) before.cache after.cache log
        report
  /-- If a page is not, the cycle ends at the deadline, with the pages that have arrived by then. -/
  timedOut : ∀ span, before.service.cycleTimeout = some span →
    span.nanos < before.directory.fetches * before.directory.pace →
    after.clock = before.clock + span.nanos ∧
      ∃ report, outcome = .timedOut report ∧
        TookFirst before.directory
          (span.nanos / before.directory.pace * before.directory.pageSize) before.cache after.cache
          log report
  /-- Where pages take no time or a listing may take any, no cycle takes too long. -/
  untimed : before.directory.pageDelay = none ∨ before.service.cycleTimeout = none →
    ∀ report, outcome ≠ .timedOut report

/-- What a report covers are the first identities, if the pages show these. -/
theorem tookFirst_of_covers {directory : Directory} {count : Nat} {before after : Cache σ}
    {log : List Attempt} {report : Report} (hmemory : directory.InMemory)
    (hafter : after.records = Attempt.replay before.records log)
    (h : report.Covers (directory.listing.pages.take count).flatten log) :
    TookFirst directory (count * directory.pageSize) before after log report := by
  obtain ⟨hstatement, hreport⟩ := h
  rw [Directory.flatten_take_listing hmemory.reachable] at hstatement hreport
  have hordered : (directory.identities.values.map Identity.id).Pairwise (· < ·) := by
    rw [hmemory.keyedBy.map_values_eq_keys]
    exact Ledger.pairwise_keys _
  -- The ids that were written are those of the first identities, so none of them twice.
  have hids : (log.map fun attempt => attempt.record.id) =
      (directory.identities.values.take (count * directory.pageSize)).map Identity.id := by
    have hfst := congrArg (List.map Prod.fst) hstatement
    rw [List.map_map, List.map_map] at hfst
    exact hfst
  have honce : (log.map fun attempt => attempt.record.id).Nodup := by
    rw [hids]
    exact hmemory.keyedBy.nodup_map_values.sublist ((List.take_sublist _ _).map _)
  refine ⟨hstatement, hordered, ?_, ?_, ?_, ?_, ?_⟩
  · rw [hreport, List.length_take, Nat.min_comm, Ledger.values, List.length_map, Ledger.size]
  · rw [hreport]
  · rw [hreport]
  · intro identity hmem
    have hwritten : identity.statement ∈ log.map Attempt.statement := by
      rw [hstatement]
      exact List.mem_map_of_mem hmem
    obtain ⟨attempt, hattempt, heq⟩ := List.mem_map.1 hwritten
    have hid : attempt.record.id = identity.id := congrArg Prod.fst heq
    refine ⟨attempt, hattempt, heq, ?_⟩
    rw [← hid, Cache.record?, hafter]
    exact Attempt.get?_replay_of_mem honce hattempt
  · intro id hother
    exact record?_of_forall_ne hstatement hafter hother

/-- **A cycle that has ended by its timetable** has ended on time. -/
theorem punctual_of_ended {before after : World σ} {log : List Attempt} {outcome : CycleOutcome}
    (hmemory : before.directory.InMemory)
    (hafter : after.cache.records = Attempt.replay before.cache.records log)
    (h : before.timetable.Ended log after.clock outcome) : Punctual before log after outcome := by
  have hreachable := hmemory.reachable
  have hpace := pace_timetable hreachable
  have hfetches : before.timetable.opened.remaining = before.directory.fetches :=
    Directory.remaining_listing hreachable
  have hfailures : before.timetable.opened.failure = before.directory.listingFailure :=
    Directory.failure_listing hreachable
  have harrival : ∀ count, before.timetable.arrival count =
      before.clock + (count * before.directory.pace : Nat) := by
    intro count
    rw [Timetable.arrival, hpace]
    rfl
  have hexcluded : ∀ span, before.service.cycleTimeout = some span →
      span.nanos < before.directory.fetches * before.directory.pace → ¬ before.ListsInTime :=
    fun span htimeout hlate hintime => Nat.not_le.2 hlate (hintime span htimeout)
  -- In each of the three ways to end, the other two are excluded.
  cases h with
  | @completed report hthrough hlisted =>
    have hnone := hfailures.symm.trans hthrough.failure_eq
    have hintime : before.ListsInTime := by
      intro span htimeout
      rw [← hfetches, ← hpace]
      exact hthrough.inTime span htimeout
    refine ⟨fun _ => ?_, fun _ _ => ?_, ?_, ?_, by simp⟩
    · rw [hthrough.clock_eq, hfetches, harrival]
    · exact ⟨report, rfl, hlisted.trans hmemory.length_listing⟩
    · intro _ page error hsome
      rw [hnone] at hsome
      exact absurd hsome (by simp)
    · intro span htimeout hlate
      exact absurd hintime (hexcluded span htimeout hlate)
  | @aborted report page error hfailure hclock hpages hcovers =>
    have hlast : before.directory.fetches = page + 1 := by
      rw [← hfetches]
      exact Listing.remaining_of_failure_eq_some hfailure (Directory.served_listing _)
    have hintime : before.ListsInTime := by
      intro span htimeout
      rw [hlast, ← hpace]
      exact hpages span htimeout
    rw [hfailures] at hfailure
    refine ⟨fun _ => ?_, fun _ hnone => ?_, ?_, ?_, by simp⟩
    · rw [hclock, harrival, hlast]
    · rw [hnone] at hfailure
      exact absurd hfailure (by simp)
    · intro _ other reason hsome
      obtain ⟨rfl, rfl⟩ := Prod.mk.inj (Option.some.inj (hfailure.symm.trans hsome))
      exact ⟨report, rfl, tookFirst_of_covers hmemory hafter hcovers⟩
    · intro span htimeout hlate
      exact absurd hintime (hexcluded span htimeout hlate)
  | @timedOut report span htimeout hlate hclock hcovers =>
    rw [hpace] at hcovers
    rw [hfetches, hpace] at hlate
    have hnot := hexcluded span htimeout hlate
    refine ⟨fun h => absurd h hnot, fun h => absurd h hnot, fun h => absurd h hnot, ?_, ?_⟩
    · intro other hsome _
      obtain rfl : span = other := Option.some.inj (htimeout.symm.trans hsome)
      exact ⟨hclock, report, rfl, tookFirst_of_covers hmemory hafter hcovers⟩
    · rintro (hdelay | hnone)
      · rw [Directory.pace, hdelay] at hlate
        exact absurd hlate (Nat.not_lt_zero _)
      · rw [show before.service.cycleTimeout = some span from htimeout] at hnone
        exact absurd hnone (by simp)

/-- **The timeout of a cycle is exact.** Let a gateway be in any state that can be reached, with any
directory in memory, in which a cycle can begin at once, and let timers reach as far as the cycle
looks ahead. Let a cycle be called for and waited for, whatever troubles befall the store. Then they
reach all moments that it waits for, from everywhere on the way it comes to its end, and whenever it
has ended, it has ended on time. -/
theorem cycle_timeout_is_exact [FallibleStore σ] {store : σ} {config : Config} {cache : Cache σ}
    (clock : Int) (directory : Directory) (hcreate : Cache.create store config = .ok cache)
    {earlier : List Attempt} {world : World σ}
    (hreached : Course anything (World.start clock directory cache config) earlier world)
    (hmemory : world.directory.InMemory) (hvacant : world.Vacant)
    (hhorizon : world.timetable.horizon ≤ lastMoment) {log : List Attempt} {later : World σ}
    (hwaited : Course (patiently world.tasks.length) (world.begin .runCycle) log later) :
    (∀ cycle, later.IsWalking world.tasks.length cycle → cycle.IsInReach) ∧
    (∃ more final outcome, Course (patiently world.tasks.length) later more final ∧
      final.outcome? world.tasks.length = some outcome) ∧
    ∀ outcome, later.outcome? world.tasks.length = some outcome →
      Punctual world log later outcome := by
  have hkeyed : world.cache.records.KeyedBy Record.id := by
    rw [hreached.records_eq]
    exact Attempt.keyedBy_replay (Cache.keyedBy_of_create hcreate) earlier
  -- Wherever the call is on its way, it is on schedule; all three statements are read off this.
  obtain ⟨stage, htask, hschedule⟩ := hwaited.onSchedule hkeyed hvacant
  refine ⟨fun cycle hwalking => ?_, hwaited.exists_outcome hkeyed hvacant,
    fun outcome houtcome => ?_⟩
  · rw [IsWalking, cycleStage?_of_task htask] at hwalking
    cases stage with
    | cycling stage =>
      obtain rfl : stage = .walking cycle := Option.some.inj hwalking
      exact Timetable.Keeps.isInReach hschedule hhorizon
    | _ => exact absurd hwalking (by simp [Task.cycleStage?])
  · rw [outcome?, htask] at houtcome
    split at houtcome
    · next found hdone =>
      obtain rfl : stage = .done (.ranCycle found) := Task.call.inj (Option.some.inj hdone)
      obtain rfl : found = outcome := Option.some.inj houtcome
      exact punctual_of_ended hmemory hwaited.records_eq hschedule
    · exact absurd houtcome (by simp)

/-- Of three pages that take half a second each, two arrive within one second. -/
theorem cycle_timeout_is_exact_at_deadline :
    ∃ (world later : World MemoryStore) (log : List Attempt),
      world.directory.identities.size = 3 ∧
      later.outcome? world.tasks.length = some (.timedOut ⟨2, 0, 0⟩) ∧
      later.clock = world.clock + 1000000000 ∧ later.cache.presentIds = ["a", "b"] ∧
      Punctual world log later (.timedOut ⟨2, 0, 0⟩) := by
  let device (id : String) : Identity := .ofDevice id "1" .none .enabled
  let held : Directory :=
    (((Directory.empty.upsert (device "a")).upsert (device "b")).upsert (device "c")).setPageSize 1
  let directory : Directory := { held with pageDelay := some (.ofMillis 500) }
  have hmemory : directory.InMemory :=
    ((((Directory.InMemory.empty.upsert _).upsert _).upsert _).setPageSize 1).inject none none
      (some (.ofMillis 500)) none false none
  let config : Config := { Config.standard with cycleTimeout := some (.ofMillis 1000) }
  let world : World MemoryStore := .start 0 directory .blank config
  have hcreate : Cache.create (.ofEntries ∅ : MemoryStore) config = .ok .blank := rfl
  have hreached : Course anything (World.start 0 directory .blank config) [] world := .here
  have hvacant : world.Vacant := ⟨rfl, rfl, by decide +kernel, rfl⟩
  -- Time passes until the next page arrives.
  have htick : ∀ (world : World MemoryStore) (clock : Int), world.isReady 0 = false →
      world.clock ≤ clock → world.tasks[0]?.bind Task.alarm? = some clock →
      patiently 0 world (.clock clock) := by
    intro world clock hwaits hle halarm
    refine ⟨lone_clock 0 world clock, by simp, ?_⟩
    rintro other heq
    rw [← Event.clock.inj heq]
    exact ⟨hwaits, hle, clock, halarm, Int.le_refl _⟩
  have hgoOn := patiently_goOn (σ := MemoryStore) 0
  -- The call claims its turn and opens the listing, and waits for the first page.
  let begun : World MemoryStore := ((world.begin .runCycle).step 0).step 0
  have hbegun : Course (patiently 0) (world.begin .runCycle) _ begun :=
    (Course.here.goOn 0 (hgoOn _) (by decide +kernel)).goOn 0 (hgoOn _) (by decide +kernel)
  have hwaited := hbegun.tick 500000000
    (htick _ _ (by decide +kernel) (by decide +kernel) (by decide +kernel))
  -- The first page arrives, and its identity is taken in.
  let first : World MemoryStore := ({ begun with clock := 500000000 }.step 0).step 0
  have hfirst : Course (patiently 0) (world.begin .runCycle) _ first :=
    (hwaited.goOn 0 (hgoOn _) (by decide +kernel)).goOn 0 (hgoOn _) (by decide +kernel)
  have hdeadline := hfirst.tick 1000000000
    (htick _ _ (by decide +kernel) (by decide +kernel) (by decide +kernel))
  -- The second page arrives at the deadline and counts; the third does not.
  let second : World MemoryStore := ({ first with clock := 1000000000 }.step 0).step 0
  have hsecond : Course (patiently 0) (world.begin .runCycle) _ second :=
    (hdeadline.goOn 0 (hgoOn _) (by decide +kernel)).goOn 0 (hgoOn _) (by decide +kernel)
  let later : World MemoryStore := second.step 0
  have hlater : Course (patiently 0) (world.begin .runCycle) _ later :=
    hsecond.goOn 0 (hgoOn _) (by decide +kernel)
  have houtcome : later.outcome? world.tasks.length = some (.timedOut ⟨2, 0, 0⟩) := by
    decide +kernel
  have hhorizon : world.timetable.horizon ≤ lastMoment := by decide +kernel
  have hpunctual := (cycle_timeout_is_exact 0 directory hcreate hreached hmemory hvacant hhorizon
    hlater).2.2 _ houtcome
  exact ⟨world, later, _, by decide +kernel, houtcome, by decide +kernel, by decide +kernel,
    hpunctual⟩

end World

end DeviceScope
