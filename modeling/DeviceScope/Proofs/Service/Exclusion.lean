import DeviceScope.Proofs.Cache.Presence
import DeviceScope.Proofs.Service.Answering
import DeviceScope.Proofs.Service.Ending
import DeviceScope.Proofs.Service.Supervision
import DeviceScope.Proofs.Service.Walking

/-!
# One cycle at a time, and none once the service is shutting down

Whatever happens to a gateway whose service is started once, at most one task is in the middle of a
cycle and at most one loop has not ended. Once the service is shutting down no cycle begins any more
(`World.beginsNone`), and whoever still calls for one is turned away (`World.turnsAway`); but a
cycle that is under way is carried on as if nothing had happened (`World.carriesOn`): every one of
its steps is the same whether the service is shutting down or not (`World.cycleStep_shutdown`).
When a listing crashes, as it is opened or at one of its pages, nothing but the turn is lost, which
goes to the next one (`World.recovers`). All of this together is `World.one_cycle_at_a_time`.
-/

namespace DeviceScope

variable {σ : Type}

namespace Service

theorem publish_shutdown (service : Service) (phase : Phase) :
    service.shutdown.publish phase = (service.publish phase).shutdown := by
  unfold publish
  by_cases h : service.phase = .stopped ∨ service.phase = phase
  · rw [if_pos h]
    exact if_pos h
  · rw [if_neg h]
    exact if_neg h

theorem requestRefresh_shutdown (service : Service) :
    service.shutdown.requestRefresh = service.requestRefresh.shutdown := by
  unfold requestRefresh shutdown
  dsimp only
  cases service.parked <;> rfl

/-- A cycle that has ended is not counted as begun. -/
theorem cyclesStarted_account (stats : Stats) (outcome : CycleOutcome) :
    (stats.account outcome).cyclesStarted = stats.cyclesStarted := by
  unfold Stats.account
  cases outcome <;> rfl

/-- Once stopped, always stopped. -/
theorem phase_publish_of_stopped {service : Service} (h : service.phase = .stopped)
    (phase : Phase) : (service.publish phase).phase = .stopped := by
  unfold publish
  rw [if_pos (.inl h)]
  exact h

theorem phase_beginCycle_of_stopped {service : Service} (h : service.phase = .stopped) :
    service.beginCycle.phase = .stopped := by
  unfold beginCycle
  exact phase_publish_of_stopped (by exact h) _

end Service

namespace World

/-- Whether the task is a call that wants to run a cycle and has not begun one. -/
def callsForCycle (world : World σ) (who : Nat) : Bool :=
  match world.tasks[who]? with
  | some (.call (.begun .runCycle)) | some (.call (.cycling .queued)) => true
  | _ => false

theorem callsForCycle_iff {world : World σ} {who : Nat} :
    world.callsForCycle who = true ↔ world.tasks[who]? = some (.call (.begun .runCycle)) ∨
      world.tasks[who]? = some (.call (.cycling .queued)) := by
  unfold callsForCycle
  constructor
  · intro h
    split at h
    · next htask => exact .inl htask
    · next htask => exact .inr htask
    · exact absurd h (by decide)
  · rintro (h | h) <;> rw [h]

variable [FallibleStore σ]

/-! ### Nobody begins a cycle any more -/

/-- **The event lets no cycle begin**: nobody finds itself in the middle of one that was not so
before, none is counted, and unless the directory is changed from outside it has opened no
listing. -/
structure BeginsNone (world : World σ) (event : Event σ) : Prop where
  isUnderWay : ∀ who, (world.after event).isUnderWay who = true → world.isUnderWay who = true
  cyclesStarted_eq : (world.after event).service.stats.cyclesStarted =
    world.service.stats.cyclesStarted
  listings_eq : (∀ directory, event ≠ .directory directory) →
    (world.after event).directory.listings = world.directory.listings

/-- A cycle that cannot begin is neither counted nor does it open a listing. -/
theorem cyclesStarted_cycleStep {world : World σ} (hshut : world.service.shuttingDown = true)
    (stage : CycleStage) :
    (world.cycleStep stage).2.service.stats.cyclesStarted = world.service.stats.cyclesStarted ∧
      (world.cycleStep stage).2.directory = world.directory := by
  have hmoves := world.cycleMoves stage
  generalize world.cycleStep stage = result at hmoves
  cases hmoves with
  | began hrunning _ => exact absurd (hshut.symm.trans hrunning) (by decide)
  | crashed hrunning _ => exact absurd (hshut.symm.trans hrunning) (by decide)
  | cancelled _ => exact ⟨Service.cyclesStarted_account _ _, rfl⟩
  | closed _ _ => exact ⟨congrArg _ (Service.stats_publish _ _), rfl⟩
  | brokeOff _ _ _ _ _ => exact ⟨Service.cyclesStarted_account _ _, rfl⟩
  | tookLong _ _ _ => exact ⟨Service.cyclesStarted_account _ _, rfl⟩
  | completed _ => exact ⟨Service.cyclesStarted_account _ _, rfl⟩
  | _ => exact ⟨rfl, rfl⟩

/-- **No cycle begins** once the service is shutting down. -/
theorem beginsNone {world : World σ} (hshut : world.service.shuttingDown = true)
    (event : Event σ) : world.BeginsNone event := by
  constructor
  case isUnderWay =>
    intro who hlater
    rcases isUnderWay_or_queued hlater with hbefore | ⟨rfl, hqueued⟩
    · exact hbefore
    · -- One that had waited for its turn was turned away.
      have hnone : (world.step who).cycleStage? who = none := by
        rw [cycleStage?_step_of_some hqueued, cycleStep, beginCycle, if_pos hshut]
        rfl
      unfold isUnderWay after at hlater
      dsimp only at hlater
      rw [hnone] at hlater
      exact absurd hlater (by decide)
  case cyclesStarted_eq =>
    cases event with
    | goOn who =>
      -- Only cycles are counted, and one that goes on now has begun before or is turned away.
      cases hstage : world.cycleStage? who with
      | none => exact congrArg _ (stepsAside_step hstage).stats_eq
      | some stage =>
        obtain ⟨task, hworld⟩ := exists_step_eq_of_cycleStage? hstage
        show (world.step who).service.stats.cyclesStarted = _
        rw [hworld]
        exact (cyclesStarted_cycleStep hshut stage).1
    | requestRefresh => exact Service.cyclesStarted_requestRefresh _
    | _ => rfl
  case listings_eq =>
    intro hinside
    cases event with
    | goOn who =>
      cases hstage : world.cycleStage? who with
      | none => exact (stepsAside_step hstage).listings_eq
      | some stage =>
        obtain ⟨task, hworld⟩ := exists_step_eq_of_cycleStage? hstage
        show (world.step who).directory.listings = _
        rw [hworld]
        exact congrArg _ (cyclesStarted_cycleStep hshut stage).2
    | directory directory => exact absurd rfl (hinside directory)
    | _ => rfl

/-- Once the service is shutting down it stays so. -/
theorem shuttingDown_after {world : World σ} (hshut : world.service.shuttingDown = true)
    (event : Event σ) : (world.after event).service.shuttingDown = true := by
  cases event with
  | goOn who =>
    cases hstage : world.cycleStage? who with
    | none => exact (stepsAside_step hstage).shuttingDown_eq.trans hshut
    | some stage =>
      obtain ⟨task, hworld⟩ := exists_step_eq_of_cycleStage? hstage
      show (world.step who).service.shuttingDown = true
      rw [hworld]
      exact (shuttingDown_cycleStep world stage).trans hshut
  | requestRefresh => exact (Service.shuttingDown_requestRefresh _).trans hshut
  | shutdown => rfl
  | _ => exact hshut

/-- As long as the service runs, it has run before. -/
theorem running_of_after {world : World σ} {event : Event σ}
    (h : (world.after event).service.shuttingDown = false) :
    world.service.shuttingDown = false := by
  rw [Bool.eq_false_iff]
  intro hshut
  exact absurd (shuttingDown_after hshut event) (by simp [h])

section Along

variable {allowed : World σ → Event σ → Prop} {start world : World σ} {log : List Attempt}

theorem Course.shuttingDown (h : Course allowed start log world)
    (hshut : start.service.shuttingDown = true) : world.service.shuttingDown = true :=
  h.invariant (P := fun world => world.service.shuttingDown = true) hshut
    fun _ event _ _ hworld => shuttingDown_after hworld event

/-- No more cycles are counted. -/
theorem Course.cyclesStarted_eq (h : Course allowed start log world)
    (hshut : start.service.shuttingDown = true) :
    world.service.stats.cyclesStarted = start.service.stats.cyclesStarted := by
  induction h with
  | here => rfl
  | next hcourse _ _ ih =>
    exact (beginsNone (hcourse.shuttingDown hshut) _).cyclesStarted_eq.trans ih

end Along

/-! ### Whoever calls for a cycle is turned away -/

/-- The call has not begun a cycle, or was turned away. -/
def CallStage.IsTurnedAway (stage : CallStage) : Prop :=
  stage = .begun .runCycle ∨ stage = .cycling .queued ∨ stage = .done (.ranCycle .cancelled)

/-- A call that is turned away changes no record and no statistic. -/
theorem callStep_of_isTurnedAway {world : World σ} (hshut : world.service.shuttingDown = true)
    (who : Nat) {stage : CallStage} (h : CallStage.IsTurnedAway stage) :
    CallStage.IsTurnedAway (world.callStep who stage).1 ∧
      (world.callStep who stage).2.cache = world.cache ∧
      (world.callStep who stage).2.service.stats = world.service.stats := by
  rcases h with rfl | rfl | rfl
  · exact ⟨.inr (.inl rfl), rfl, Service.stats_claimTurn _ _⟩
  · rw [callStep, cycleStep, beginCycle, if_pos hshut]
    exact ⟨.inr (.inr rfl), rfl, rfl⟩
  · exact ⟨.inr (.inr rfl), rfl, rfl⟩

/-- **The service turns everybody away.** -/
structure TurnsAway (world : World σ) : Prop where
  /-- No cycle begins any more. -/
  none_begins : ∀ more later, Course startsOnce world more later →
    later.service.stats.cyclesStarted = world.service.stats.cyclesStarted ∧
      ∀ event, later.BeginsNone event
  /-- Whoever calls for a cycle has no other reply than that it was cancelled (so its report tells
  of nothing), and until then changes no record and no statistic. -/
  refused : ∀ who, world.callsForCycle who = true →
    ∀ more later, Course startsOnce world more later →
      later.reply? who = some (.ranCycle .cancelled) ∨
        later.callsForCycle who = true ∧ (later.step who).cache = later.cache ∧
          (later.step who).service.stats = later.service.stats
  /-- It comes to have this reply. -/
  replied : ∀ who, world.callsForCycle who = true →
    ∃ more later, Course startsOnce world more later ∧
      later.reply? who = some (.ranCycle .cancelled)

omit [FallibleStore σ] in
theorem startsOnce_of_cyclesOnly (world : World σ) (event : Event σ)
    (h : cyclesOnly world event) : startsOnce world event := by
  rintro rfl
  rcases h with ⟨who, heq, -⟩ | ⟨clock, heq, -⟩
  · exact absurd heq (by simp)
  · exact absurd heq (by simp)

omit [FallibleStore σ] in
theorem startsOnce_of_ne {world : World σ} {event : Event σ} (h : event ≠ .startService) :
    startsOnce world event := fun heq => absurd heq h

theorem refused {world : World σ} (hshut : world.service.shuttingDown = true) {who : Nat}
    (hcalls : world.callsForCycle who = true) {more : List Attempt} {later : World σ}
    (hlater : Course startsOnce world more later) :
    later.reply? who = some (.ranCycle .cancelled) ∨
      later.callsForCycle who = true ∧ (later.step who).cache = later.cache ∧
        (later.step who).service.stats = later.service.stats := by
  obtain ⟨first, hfirst, hrefused⟩ : ∃ first, world.tasks[who]? = some (.call first) ∧
      CallStage.IsTurnedAway first := by
    rcases callsForCycle_iff.1 hcalls with h | h
    · exact ⟨_, h, .inl rfl⟩
    · exact ⟨_, h, .inr (.inl rfl)⟩
  -- The call is not let in at any moment, whatever else happens.
  obtain ⟨stage, htask, hstage⟩ := hlater.stage_induction hfirst
    (P := fun _ _ stage => CallStage.IsTurnedAway stage) hrefused
    (fun _ _ _ hcourse _ _ h => (callStep_of_isTurnedAway (hcourse.shuttingDown hshut) who h).1)
    (fun _ _ _ _ _ _ _ _ h => h)
  obtain ⟨-, hcache, hstats⟩ :=
    callStep_of_isTurnedAway (hlater.shuttingDown hshut) who hstage
  have hstep : (later.step who).cache = later.cache ∧
      (later.step who).service.stats = later.service.stats := by
    rw [step_of_call htask]
    exact ⟨hcache, hstats⟩
  rcases hstage with rfl | rfl | rfl
  · exact .inr ⟨callsForCycle_iff.2 (.inl htask), hstep⟩
  · exact .inr ⟨callsForCycle_iff.2 (.inr htask), hstep⟩
  · exact .inl (reply?_eq_some_iff.2 htask)

/-- A call that has just come in goes to the end of the line. -/
theorem exists_queued {world : World σ} {who : Nat} (hcalls : world.callsForCycle who = true) :
    ∃ more later, Course startsOnce world more later ∧
      later.tasks[who]? = some (.call (.cycling .queued)) ∧
      later.service.shuttingDown = world.service.shuttingDown ∧
      later.directory = world.directory := by
  rcases callsForCycle_iff.1 hcalls with htask | htask
  · have hready : world.isReady who = true := isReady_of_task htask
    refine ⟨_, _, Course.here.goOn who (startsOnce_of_ne (by simp)) hready,
      task_step_of_call htask, ?_, ?_⟩
    · rw [step_of_call htask]
      exact Service.shuttingDown_claimTurn _ _
    · rw [step_of_call htask]
      rfl
  · exact ⟨[], world, .here, htask, rfl, rfl⟩

theorem turnsAway {world : World σ} (h : world.Orderly)
    (hshut : world.service.shuttingDown = true) : world.TurnsAway where
  none_begins _ _ hlater :=
    ⟨hlater.cyclesStarted_eq hshut, fun event => beginsNone (hlater.shuttingDown hshut) event⟩
  refused _ hcalls _ _ hlater := refused hshut hcalls hlater
  replied _ hcalls := by
    obtain ⟨more, queued, hqueued, htask, -, -⟩ := exists_queued hcalls
    obtain ⟨rest, later, hlater, hdone⟩ :=
      exists_cancelled (hqueued.orderly h) htask (hqueued.shuttingDown hshut)
    exact ⟨_, later, hqueued.trans (hlater.mono startsOnce_of_cyclesOnly),
      reply?_eq_some_iff.2 hdone⟩

/-! ### A cycle that is under way is carried on -/

/-- **A cycle that is under way does not notice** that the service is shut down. -/
theorem cycleStep_shutdown (world : World σ) {stage : CycleStage}
    (hunderWay : stage.isUnderWay = true) :
    world.shutdown.cycleStep stage =
      ((world.cycleStep stage).1, (world.cycleStep stage).2.shutdown) := by
  cases stage with
  | queued => exact absurd hunderWay (by decide)
  | marking report gone => cases gone <;> rfl
  | walking cycle =>
    rw [cycleStep, cycleStep, walk, walk]
    split
    · -- The page is at its end, so the listing is asked for more.
      show world.shutdown.fetch cycle = ((world.fetch cycle).1, (world.fetch cycle).2.shutdown)
      rw [fetch, fetch]
      split
      · show (_, { world.shutdown with service := world.service.shutdown.publish .diffing }) = _
        rw [Service.publish_shutdown]
        rfl
      · -- Whether the page has arrived is for the clock to say, which is the same.
        by_cases harrived : cycle.hasPage world.clock = true
        · rw [if_pos harrived,
            if_pos (show cycle.hasPage world.shutdown.clock = true from harrived)]
          split
          · rfl
          · split <;> rfl
        · rw [if_neg harrived,
            if_neg (show ¬ cycle.hasPage world.shutdown.clock = true from harrived)]
          rfl
    · rfl

theorem step_shutdown {world : World σ} {who : Nat} (hunderWay : world.isUnderWay who = true) :
    world.shutdown.step who = (world.step who).shutdown := by
  obtain ⟨stage, hstage, hstageUnderWay⟩ := isUnderWay_iff.1 hunderWay
  have hsame := cycleStep_shutdown world hstageUnderWay
  obtain ⟨task, htask, hcycle⟩ := Option.bind_eq_some_iff.1 hstage
  rw [Task.cycleStage?.eq_def] at hcycle
  -- The call or the loop goes on as its cycle does.
  split at hcycle
  · obtain rfl := Option.some.inj hcycle
    rw [step, step, show world.shutdown.tasks[who]? = _ from htask, htask]
    dsimp only
    rw [callStep, callStep, hsame]
    rcases world.cycleStep _ with ⟨_ | _ | _, after⟩ <;> rfl
  · obtain rfl := Option.some.inj hcycle
    rw [step, step, show world.shutdown.tasks[who]? = _ from htask, htask]
    dsimp only
    rw [loopStep, loopStep, hsame]
    rcases world.cycleStep _ with ⟨_ | _ | _, after⟩ <;> rfl
  · exact absurd hcycle (by simp)

/-- **Nobody goes on but the task, with its cycle**; anything else may happen. -/
def alone (who : Nat) (world : World σ) (event : Event σ) : Prop :=
  world.isUnderWay who = true ∧ ∀ other, event = .goOn other → other = who

theorem after_shutdown {world : World σ} {who : Nat} {event : Event σ}
    (h : alone who world event) : world.shutdown.after event = (world.after event).shutdown := by
  cases event with
  | goOn other =>
    obtain rfl := h.2 other rfl
    exact step_shutdown h.1
  | requestRefresh =>
    show { world with service := world.service.shutdown.requestRefresh } = _
    rw [Service.requestRefresh_shutdown]
    rfl
  | _ => rfl

/-- **A cycle on its own takes the same course** whether the service is shutting down or not. -/
theorem Course.shutdown {start world : World σ} {who : Nat} {log : List Attempt}
    (h : Course (alone who) start log world) :
    Course (alone who) start.shutdown log world.shutdown := by
  induction h with
  | here => exact .here
  | @next log world event hcourse hallowed hadmits ih =>
    have hadmitted : world.shutdown.Admits event := by
      cases event with
      | goOn other =>
        obtain rfl := hallowed.2 other rfl
        obtain ⟨stage, hstage, hunderWay⟩ := isUnderWay_iff.1 hallowed.1
        have hready : world.isReady other = true := hadmits
        rw [isReady_eq_of_cycleStage? hstage] at hready
        have hsame : world.shutdown.cycleStage? other = some stage := hstage
        show world.shutdown.isReady other = true
        rw [isReady_eq_of_cycleStage? hsame]
        cases stage with
        | queued => exact absurd hunderWay (by decide)
        | _ => exact hready
      | trouble store => exact hadmits
      | _ => trivial
    have hnext := ih.next hallowed hadmitted
    rwa [after_shutdown hallowed] at hnext

/-- **The cycle is carried on**, whether the service is shutting down or not. -/
structure CarriesOn (world : World σ) (who : Nat) : Prop where
  /-- Each of its steps does the same in either case. -/
  same_step : world.shutdown.after (.goOn who) = (world.after (.goOn who)).shutdown
  /-- So does every sequence of them, and the same is written on the way. -/
  same_course : ∀ log later, Course (alone who) world log later →
    Course (alone who) world.shutdown log later.shutdown
  /-- If it ends, it has not been cancelled. -/
  not_cancelled : ∀ stage outcome, world.cycleStage? who = some stage →
    (world.cycleStep stage).1 = .ended outcome → outcome ≠ .cancelled
  /-- It comes to its end, unless its listing crashes. -/
  ends : ∃ log before last, Course (alone who) world log before ∧
    before.cycleStage? who = some last ∧ before.isReady who = true ∧
    ((∃ outcome, (before.cycleStep last).1 = .ended outcome ∧ outcome ≠ .cancelled) ∨
      (before.cycleStep last).1 = .crashed ∧
        ∀ stage, world.cycleStage? who = some stage → stage.lasts = false)

theorem ne_cancelled_of_ended {world : World σ} {stage : CycleStage} {outcome : CycleOutcome}
    (hunderWay : stage.isUnderWay = true) (h : (world.cycleStep stage).1 = .ended outcome) :
    outcome ≠ .cancelled := by
  rintro rfl
  have hends := ends_of_ended h
  have hmoves := world.cycleMoves stage
  generalize world.cycleStep stage = result at hmoves h
  cases hmoves with
  | cancelled _ => exact absurd hunderWay (by decide)
  | _ => exact absurd h (by simp [endCycle])

theorem carriesOn {world : World σ} {who : Nat} (hunderWay : world.isUnderWay who = true) :
    world.CarriesOn who where
  same_step := step_shutdown hunderWay
  same_course _ _ hcourse := hcourse.shutdown
  not_cancelled stage outcome hstage hended := by
    refine ne_cancelled_of_ended ?_ hended
    exact (isUnderWay_eq hstage).symm.trans hunderWay
  ends := by
    obtain ⟨stage, hstage, hstageUnderWay⟩ := isUnderWay_iff.1 hunderWay
    obtain ⟨log, before, last, hbefore, hlast, hlastUnderWay, hready, hover, hlasts⟩ :=
      exists_over stage hstage hstageUnderWay
    refine ⟨log, before, last, hbefore.mono ?_, hlast, hready, ?_⟩
    · rintro between event ⟨hbetween, rfl | ⟨clock, rfl, -⟩⟩
      · exact ⟨hbetween, fun other heq => (Event.goOn.inj heq).symm⟩
      · exact ⟨hbetween, fun other heq => absurd heq (by simp)⟩
    · cases hstep : (before.cycleStep last).1 with
      | goesOn later => exact absurd hstep (hover later)
      | ended outcome => exact .inl ⟨outcome, rfl, ne_cancelled_of_ended hlastUnderWay hstep⟩
      | crashed =>
        refine .inr ⟨rfl, fun found hfound => Bool.eq_false_iff.2 fun hfoundLasts => ?_⟩
        obtain rfl := Option.some.inj (hstage.symm.trans hfound)
        exact not_crashed_of_lasts hlastUnderWay (hlasts hfoundLasts) hstep

/-! ### A crash is got over -/

/-- **The task crashes** when it goes on, as it opens its listing or fetches a page of it. -/
def Crashes (world : World σ) (who : Nat) : Prop :=
  ∃ stage, world.cycleStage? who = some stage ∧ world.isReady who = true ∧
    (world.cycleStep stage).1 = .crashed

/-- Where the listing opens, and does not crash later, the task does not. -/
theorem not_crashes_of_opens {world : World σ} (hopens : world.directory.Opens) {who : Nat}
    (hlasts : (world.cycleStage? who).all CycleStage.lasts = true) : ¬ world.Crashes who := by
  rintro ⟨stage, hstage, -, hstep⟩
  rw [hstage, Option.all_some] at hlasts
  exact not_crashed_of_opens hopens hlasts hstep

/-- **Nothing but the turn is lost**, and cycles run as before. -/
structure Recovers (world later : World σ) (who : Nat) : Prop where
  cache_eq : later.cache = world.cache
  /-- The task is no longer in line, and the turn is free or has gone to the next one. -/
  stage_eq : later.cycleStage? who = none
  turn_eq : later.service.turn = world.service.queue.head?
  queue_eq : later.service.queue = world.service.queue.tail
  /-- The service is shutting down if it was before; it was not if a listing was opened. -/
  shuttingDown_eq : later.service.shuttingDown = world.service.shuttingDown
  running : world.isUnderWay who = false → later.service.shuttingDown = false
  /-- The next listing opens if it would have before, or if it was this one that did not. -/
  opens : world.directory.Opens ∨ world.isUnderWay who = false → later.directory.Opens

/-- A crash leaves the cache alone. At the opening of a listing it comes only while the service is
not shutting down, and the next listing opens. -/
theorem kept_of_crashed {world : World σ} {stage : CycleStage}
    (h : (world.cycleStep stage).1 = .crashed) :
    (world.cycleStep stage).2.cache = world.cache ∧ (stage.isUnderWay = false →
      world.service.shuttingDown = false ∧ (world.cycleStep stage).2.directory.Opens) := by
  have hmoves := world.cycleMoves stage
  generalize world.cycleStep stage = result at hmoves h
  cases hmoves with
  | crashed hrunning hopened =>
    exact ⟨rfl, fun _ => ⟨hrunning, Directory.opens_openListing? _ _ hopened (.inr rfl)⟩⟩
  | fell _ _ _ _ => exact ⟨rfl, fun hfresh => Bool.noConfusion hfresh⟩
  | _ => exact absurd h (by simp [endCycle])

theorem recovers {world : World σ} {who : Nat} (h : world.Crashes who) :
    Recovers world (world.step who) who := by
  obtain ⟨stage, hstage, -, hcrashed⟩ := h
  have hpassed := passed_step hstage (by simp [hcrashed])
  obtain ⟨hcache, hfresh⟩ := kept_of_crashed hcrashed
  have hshut := shuttingDown_cycleStep world stage
  obtain ⟨task, hworld⟩ := exists_step_eq_of_cycleStage? hstage
  rw [← isUnderWay_eq hstage] at hfresh
  refine ⟨?_, hpassed.stage_eq, hpassed.turn_eq, hpassed.queue_eq, ?_, fun h => ?_, fun h => ?_⟩
  · rw [hworld]
    exact hcache
  · rw [hworld]
    exact hshut
  · rw [hworld]
    exact hshut.trans (hfresh h).1
  · rw [hworld]
    exact h.elim (opens_cycleStep stage) fun h => (hfresh h).2

/-- **Whoever wants to run a cycle begins one**, unless the service is shutting down or opening the
listing crashes. -/
theorem exists_begun {world : World σ} (h : world.Orderly)
    (hrunning : world.service.shuttingDown = false) (hopens : world.directory.Opens) {who : Nat}
    (hwants : world.callsForCycle who = true ∨ world.cycleStage? who = some .queued) :
    ∃ more later, Course startsOnce world more later ∧ later.isUnderWay who = true := by
  rcases hwants with hcalls | hqueued
  · obtain ⟨more, queued, hqueued, htask, hshut, hdirectory⟩ := exists_queued hcalls
    have hstage : queued.cycleStage? who = some .queued := cycleStage?_of_task htask
    obtain ⟨rest, later, hlater, hunderWay⟩ := exists_underWay (hqueued.orderly h) hstage
      (hshut.trans hrunning) (by rw [hdirectory]; exact hopens)
    exact ⟨_, later, hqueued.trans (hlater.mono startsOnce_of_cyclesOnly), hunderWay⟩
  · obtain ⟨more, later, hlater, hunderWay⟩ := exists_underWay h hqueued hrunning hopens
    exact ⟨more, later, hlater.mono startsOnce_of_cyclesOnly, hunderWay⟩

/-! ### Stopped is stopped -/

theorem CycleMoves.phase_of_stopped {world : World σ} {stage : CycleStage}
    {result : CycleStep × World σ} (hmove : world.CycleMoves stage result)
    (h : world.service.phase = .stopped) : result.2.service.phase = .stopped := by
  cases hmove with
  | began _ _ => exact Service.phase_beginCycle_of_stopped h
  | crashed _ _ => exact Service.phase_beginCycle_of_stopped h
  | closed _ _ => exact Service.phase_publish_of_stopped h _
  | _ => exact h

theorem phase_nextWorld_of_stopped {world : World σ} (h : world.service.phase = .stopped)
    (who : Nat) (task : Task) : (world.nextWorld who task).service.phase = .stopped := by
  -- Whoever goes on changes the phase by publishing one, and that does nothing after the end.
  cases task with
  | call stage =>
    have hturns := world.callTurns who stage
    unfold nextWorld
    dsimp only
    generalize world.callStep who stage = result at hturns
    cases hturns with
    | claimed => exact (Service.phase_claimTurn _ _).trans h
    | wentOn _ => exact (world.cycleMoves _).phase_of_stopped h
    | ended _ => exact (world.cycleMoves _).phase_of_stopped h
    | crashed _ => exact (world.cycleMoves _).phase_of_stopped h
    | _ => exact h
  | loop stage =>
    have hmoves := world.loopMoves who stage
    unfold nextWorld
    dsimp only
    generalize world.loopStep who stage = result at hmoves
    cases hmoves with
    | claimed _ => exact (Service.phase_claimTurn _ _).trans h
    | cycling hmove => exact hmove.phase_of_stopped h
    | resumed _ _ => exact Service.phase_publish_of_stopped h _
    | parked _ _ => exact Service.phase_publish_of_stopped h _
    | _ => exact h
  | supervisor stage =>
    have hmoves := world.supervisorMoves stage
    unfold nextWorld
    dsimp only
    generalize world.supervisorStep stage = result at hmoves
    cases hmoves with
    | stopped loop => rfl
    | _ => exact h

/-- **Once the service has stopped, it has stopped** for good. -/
theorem phase_after_of_stopped {world : World σ} (h : world.service.phase = .stopped)
    (event : Event σ) : (world.after event).service.phase = .stopped := by
  cases event with
  | goOn who =>
    cases htask : world.tasks[who]? with
    | none =>
      show (world.step who).service.phase = .stopped
      rwa [step_of_none htask]
    | some task =>
      show (world.step who).service.phase = .stopped
      rw [service_step htask]
      exact phase_nextWorld_of_stopped h who task
  | requestRefresh => exact (Service.phase_requestRefresh _).trans h
  | _ => exact h

/-! ### All of it together -/

/-- **One cycle at a time, and none once the service is shutting down.** Whatever happens to a
gateway whose service is started once, at every moment

* at most one task is in the middle of a cycle, and at most one loop has not ended;
* once the service is shutting down, nobody begins a cycle any more and whoever still calls for one
  is turned away, and a cycle that is under way is carried on all the same;
* if a listing crashes, as it is opened or at one of its pages, nothing but the turn is lost;
* whoever wants to run a cycle begins one, unless the service is shutting down or opening the
  listing crashes;
* once the service has stopped, it has stopped for good. -/
theorem one_cycle_at_a_time {clock : Int} {directory : Directory} {cache : Cache σ}
    {config : Config} {log : List Attempt} {world : World σ}
    (h : Course startsOnce (start clock directory cache config) log world) :
    (∀ who other, world.isUnderWay who = true → world.isUnderWay other = true → who = other) ∧
    (∀ who other, world.isLooping who = true → world.isLooping other = true → who = other) ∧
    (world.service.shuttingDown = true → world.TurnsAway) ∧
    (∀ who, world.isUnderWay who = true → world.CarriesOn who) ∧
    (∀ who, world.Crashes who → Recovers world (world.after (.goOn who)) who) ∧
    (world.service.shuttingDown = false → world.directory.Opens →
      ∀ who, world.callsForCycle who = true ∨ world.cycleStage? who = some .queued →
        ∃ more later, Course startsOnce world more later ∧ later.isUnderWay who = true) ∧
    (world.service.phase = .stopped →
      ∀ more later, Course startsOnce world more later → later.service.phase = .stopped) := by
  have horderly := h.orderly (orderly_start clock directory cache config)
  have hsupervised := h.supervised (supervised_start clock directory cache config)
    fun _ _ hallowed => hallowed
  refine ⟨fun _ _ => horderly.eq_of_isUnderWay, fun _ _ => hsupervised.eq_of_isLooping,
    turnsAway horderly, fun _ => carriesOn, fun _ => recovers,
    fun hrunning hopens _ => exists_begun horderly hrunning hopens, ?_⟩
  intro hstopped more later hlater
  exact hlater.invariant (P := fun later => later.service.phase = .stopped) hstopped
    fun _ event _ _ hworld => phase_after_of_stopped hworld event

/-- A call crashes, the next one runs a cycle, a third waits, and the service is shut down. -/
theorem one_cycle_at_a_time_crashed_and_shut_down :
    ∃ (log : List Attempt) (world : World MemoryStore),
      Course startsOnce (start 0 { Directory.empty with crashesNext := true } .blank .standard)
        log world ∧
      world.service.stats.cyclesStarted = 2 ∧ world.isDone 0 = true ∧
      world.isUnderWay 1 = true ∧ world.callsForCycle 2 = true ∧
      world.service.shuttingDown = true ∧ world.TurnsAway ∧ world.CarriesOn 1 := by
  let directory : Directory := { Directory.empty with crashesNext := true }
  let first : World MemoryStore := start 0 directory .blank .standard
  have hcall : ∀ (world : World MemoryStore) call, startsOnce world (.call call) :=
    fun world call => startsOnce_of_ne (by simp)
  have hgoOn : ∀ (world : World MemoryStore) who, startsOnce world (.goOn who) :=
    fun world who => startsOnce_of_ne (by simp)
  -- The first call has its turn, and opening its listing crashes.
  let crashed : World MemoryStore := ((first.begin .runCycle).step 0).step 0
  have hcrashed : Course startsOnce first _ crashed :=
    ((Course.here.call .runCycle (hcall _ _)).goOn 0 (hgoOn _ _) (by decide +kernel)).goOn 0
      (hgoOn _ _) (by decide +kernel)
  -- The second one has the turn then, and opens its listing.
  let begun : World MemoryStore := ((crashed.begin .runCycle).step 1).step 1
  have hbegun : Course startsOnce first _ begun :=
    ((hcrashed.call .runCycle (hcall _ _)).goOn 1 (hgoOn _ _) (by decide +kernel)).goOn 1
      (hgoOn _ _) (by decide +kernel)
  have hwaiting := (hbegun.call .runCycle (hcall _ _)).goOn 2 (hgoOn _ _) (by decide +kernel)
  have hallowed : startsOnce ((begun.begin .runCycle).step 2) .shutdown :=
    startsOnce_of_ne (by simp)
  have hshut := hwaiting.next hallowed trivial
  let world : World MemoryStore := ((begun.begin .runCycle).step 2).after .shutdown
  have hunderWay : world.isUnderWay 1 = true := by decide +kernel
  have hshuttingDown : world.service.shuttingDown = true := by decide +kernel
  obtain ⟨-, -, hturnsAway, hcarriesOn, -⟩ := one_cycle_at_a_time hshut
  exact ⟨_, world, hshut, by decide +kernel, by decide +kernel, hunderWay, by decide +kernel,
    hshuttingDown, hturnsAway hshuttingDown, hcarriesOn 1 hunderWay⟩

end World

end DeviceScope
