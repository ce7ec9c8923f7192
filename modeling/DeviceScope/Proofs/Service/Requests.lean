import DeviceScope.Proofs.Service.Reckoning
import DeviceScope.Proofs.Service.Waking

/-!
# No request for a cycle is lost

Where nobody but the loop runs cycles and none of them crashes, every request for a cycle is
answered, and no cycle runs that neither was asked for nor was due. The books of
`DeviceScope.Proofs.Service.Reckoning` are kept by every event (`World.Reckoned.after`), whichever
of the `World.WakeMoves` it is. What is asked is read off the books at the end of the course
(`World.no_request_lost`).
-/

namespace DeviceScope

variable {σ : Type}

theorem Service.sleepers_eq {service later : Service} (h : later.wakes = service.wakes) :
    later.sleepers = service.sleepers :=
  sleepers_congr (congrArg Wakes.parked h) (congrArg Wakes.woken h)

namespace World

variable [FallibleStore σ]

/-! ### The books are kept -/

/-- **The books are right**, and the loop may rely on them as long as the service runs. -/
structure Reckoned (books : Books) (world : World σ) : Prop where
  sound : books.reckoning.Sound books.rate books.exact books.diary
  rate_eq : world.service.refreshRate = books.rate
  kept : world.service.permit = true → books.reckoning.kept.isSome = true
  loops : world.service.shuttingDown = false → ∀ (who : Nat) (stage : LoopStage),
    world.tasks[who]? = some (.loop stage) → books.At world who stage
  unlooped : world.service.shuttingDown = false → (∀ who, world.isLooping who = false) →
    books.BeforeFirst world

/-- Nobody but the loop runs cycles and none of them crashes, and the clock never runs
backwards. -/
def scheduled (world : World σ) (event : Event σ) : Prop :=
  uncrashed world event ∧ ∀ clock, event = .clock clock → world.clock ≤ clock

omit [FallibleStore σ] in
/-- **The clock waits for the loop**: it does not move while the loop can go on, and it does not
move past the time until which the loop is parked. -/
def punctual (world : World σ) (event : Event σ) : Prop :=
  ∀ clock, event = .clock clock → ∀ (who : Nat) (stage : LoopStage),
    world.tasks[who]? = some (.loop stage) →
      world.isReady who = false ∧ ∀ due, stage = .parked due → clock ≤ due

namespace Reckoned

variable {books : Books} {world : World σ} {event : Event σ} {mayCrash : Prop}

omit [FallibleStore σ] in
theorem start (rate : Span) (exact : Prop) (clock : Int) (directory : Directory) (cache : Cache σ)
    {config : Config} (hrate : config.refreshRate = rate) :
    Reckoned ⟨rate, exact, [], .blank⟩ (start clock directory cache config) where
  sound := Reckoning.sound_blank rate exact
  rate_eq := hrate
  kept hpermit := absurd hpermit (by simp [World.start, Service.ofConfig])
  loops _ _ _ htask := absurd htask (by simp [World.start])
  unlooped _ _ := ⟨rfl, fun place _ hlt => absurd hlt (by simp),
    fun place hplace => absurd hplace.lt_length (by simp)⟩

omit [FallibleStore σ] in
/-- A clock that waits for the loop does not move while the loop can go on. -/
theorem lets_of_punctual (hphased : Phased mayCrash world) (horderly : world.Orderly) {clock : Int}
    (hpunctual : punctual world (.clock clock)) {who : Nat} {stage : LoopStage}
    (htask : world.tasks[who]? = some (.loop stage)) : stage.Lets clock := by
  obtain ⟨hquiet, hdue⟩ := hpunctual clock rfl who stage htask
  have hwaits := Phased.isTaskReady_eq_false hquiet htask
  cases stage with
  | top => exact absurd hwaits (by simp [isTaskReady])
  | rest => exact absurd hwaits (by simp [isTaskReady])
  | parked due => exact hdue due rfl
  | done => trivial
  | cycling stage =>
    cases stage with
    | queued =>
      have hqueued : world.cycleStage? who = some .queued := cycleStage?_of_task htask
      have hturn := hphased.turn_eq_of_queued horderly hqueued
      exact absurd hwaits (by simp [isTaskReady, isCycleReady, hturn])
    | walking cycle => trivial
    | marking report gone => trivial

/-- An event that leaves the loop alone leaves what it may rely on. -/
theorem at_after_of_spares (h : Reckoned books world) (hphased : Phased mayCrash world)
    (horderly : world.Orderly) (hallowed : scheduled world event)
    (hpunctual : books.exact → punctual world event) (hspares : world.Spares event)
    (hrunning : (world.after event).service.shuttingDown = false) {who : Nat} {stage : LoopStage}
    (htask : world.tasks[who]? = some (.loop stage)) : books.At (world.after event) who stage := by
  have hwakes := hspares.wakes
  refine (h.loops (running_of_after hrunning) who stage htask).passes
    (congrArg Service.Wakes.permit hwakes) (congrArg Service.Wakes.parked hwakes)
    (congrArg Service.Wakes.woken hwakes) ?_ ?_
  · rcases hspares.clock with heq | hevent
    · exact Int.le_of_eq heq.symm
    · exact hallowed.2 _ hevent
  · intro hexact
    rcases hspares.clock with heq | hevent
    · exact .inl heq
    · have hwaits := hpunctual hexact
      rw [hevent] at hwaits
      exact .inr (lets_of_punctual hphased horderly hwaits htask)

theorem after_of_spared (h : Reckoned books world) (hphased : Phased mayCrash world)
    (horderly : world.Orderly) (hallowed : scheduled world event)
    (hpunctual : books.exact → punctual world event) (hspares : world.Spares event)
    (hloops : ∀ (who : Nat) (stage : LoopStage),
      (world.after event).tasks[who]? = some (.loop stage) →
      world.tasks[who]? = some (.loop stage)) : Reckoned books (world.after event) where
  sound := h.sound
  rate_eq := (congrArg Service.Wakes.refreshRate hspares.wakes).trans h.rate_eq
  kept hpermit := h.kept ((congrArg Service.Wakes.permit hspares.wakes).symm.trans hpermit)
  loops hrunning who stage htask :=
    h.at_after_of_spares hphased horderly hallowed hpunctual hspares hrunning
      (hloops who stage htask)
  unlooped hrunning hnone := by
    -- A loop that had been there before would be there still.
    have hbefore : ∀ who, world.isLooping who = false := by
      intro who
      rw [Bool.eq_false_iff]
      intro hlooping
      obtain ⟨stage, htask, hnot⟩ := isLooping_iff.1 hlooping
      obtain ⟨later, hlater⟩ : ∃ later : LoopStage,
          (world.after event).tasks[who]? = some (.loop later) := exists_loop_after htask
      have hsame := hloops who later hlater
      rw [htask] at hsame
      obtain rfl := Task.loop.inj (Option.some.inj hsame)
      exact absurd (isLooping_iff.2 ⟨stage, hlater, hnot⟩) (by simp [hnone who])
    exact (h.unlooped (running_of_after hrunning) hbefore).passes
      (congrArg Service.Wakes.permit hspares.wakes) (Service.sleepers_eq hspares.wakes)

theorem after_of_spawned (h : Reckoned books world) (hphased : Phased mayCrash world)
    (horderly : world.Orderly) (hallowed : scheduled world event)
    (hpunctual : books.exact → punctual world event) (hspares : world.Spares event)
    {supervisor : Nat} {due : Int} {loop : Option Nat}
    (hspawns : world.Spawns event supervisor due loop) :
    Reckoned books (world.after event) where
  sound := h.sound
  rate_eq := (congrArg Service.Wakes.refreshRate hspares.wakes).trans h.rate_eq
  kept hpermit := h.kept ((congrArg Service.Wakes.permit hspares.wakes).symm.trans hpermit)
  loops hrunning who stage htask := by
    -- The loop that was started is the first one.
    have hnone := hphased.supervised.isLooping_eq_false hspawns.task hspawns.ended
    rcases loop_after_cases htask with ⟨hevent, before, hbefore, -⟩ | ⟨-, hbefore⟩ | ⟨-, -, rfl⟩
    · have hsame := Event.goOn.inj (hspawns.event_eq.symm.trans hevent)
      rw [← hsame, hspawns.task] at hbefore
      exact absurd hbefore (by simp)
    · exact h.at_after_of_spares hphased horderly hallowed hpunctual hspares hrunning hbefore
    · exact .inl ((h.unlooped hspawns.running hnone).passes
        (congrArg Service.Wakes.permit hspares.wakes) (Service.sleepers_eq hspares.wakes))
  unlooped _ hnone := by
    have hlooping := isLooping_iff.2 ⟨.top, hspawns.task_new, by simp⟩
    exact absurd hlooping (by simp [hnone])

omit [FallibleStore σ] in
/-- **A request is entered**, and is kept or wakes the loop. -/
theorem after_requestRefresh (h : Reckoned books world) :
    ∃ reckoning, Reckoned (books.enter ⟨.requested, world.clock⟩ reckoning)
      (world.requestRefresh) := by
  have hrate : world.requestRefresh.service.refreshRate = books.rate :=
    (Service.refreshRate_requestRefresh _).trans h.rate_eq
  have hshut : world.requestRefresh.service.shuttingDown = world.service.shuttingDown :=
    Service.shuttingDown_requestRefresh _
  cases hparked : world.service.parked with
  | nil =>
    obtain ⟨hpermit, hnobody, hwoken⟩ := Service.requestRefresh_of_nil hparked
    refine ⟨books.reckoning.keep books.diary.length, h.sound.keep rfl, hrate, fun _ => rfl, ?_, ?_⟩
    · intro hrunning who stage htask
      exact (h.loops (hshut.symm.trans hrunning) who stage htask).keep rfl rfl hpermit hparked
        (hnobody.trans hparked.symm) hwoken
    · intro hrunning hnone
      have hfirst := h.unlooped (hshut.symm.trans hrunning) hnone
      refine ⟨?_, hfirst.quiet.snoc rfl, fun _ _ => hpermit⟩
      show world.service.requestRefresh.parked ++ world.service.requestRefresh.woken = []
      rw [hnobody, hwoken]
      exact (List.append_eq_nil_iff.1 hfirst.asleep).2
  | cons first rest =>
    obtain ⟨hpermit, hrest, hwoken⟩ := Service.requestRefresh_of_cons hparked
    have hsome : world.service.parked ≠ [] := by rw [hparked]; simp
    cases hrunning : world.service.shuttingDown with
    | true =>
      -- Nothing is relied on any more.
      refine ⟨books.reckoning, h.sound.snoc (by simp), hrate, fun hkept => ?_, ?_, ?_⟩
      · exact h.kept (hpermit.symm.trans hkept)
      · exact fun hnot => absurd (hshut.trans hrunning) (by simp [hnot])
      · exact fun hnot => absurd (hshut.trans hrunning) (by simp [hnot])
    | false =>
      have hlooped : ¬ ∀ who, world.isLooping who = false := fun hnone =>
        hsome (List.append_eq_nil_iff.1 (h.unlooped hrunning hnone).asleep).1
      refine ⟨books.reckoning.wake books.diary.length, h.sound.wake rfl, hrate, ?_, ?_, ?_⟩
      · -- Where one is parked no permit is kept.
        intro hkept
        have hsome := h.kept (hpermit.symm.trans hkept)
        refine absurd (fun who => ?_) hlooped
        rw [Bool.eq_false_iff]
        intro hlooping
        obtain ⟨stage, htask, hnot⟩ := isLooping_iff.1 hlooping
        rw [(h.loops hrunning who stage htask).kept_eq_none hnot (by rw [hparked]; simp)] at hsome
        exact absurd hsome (by decide)
      · intro _ who stage htask
        exact (h.loops hrunning who stage htask).wake rfl rfl hparked hrest hwoken
      · exact fun _ hnone => absurd hnone hlooped

/-! ### The loop goes on -/

/-- **What is left to be shown when the loop goes on**: that the reckoning is right, and that the
loop may rely on the books at the stage that it comes to. -/
theorem of_loopStep {who : Nat} {stage : LoopStage} (h : Reckoned books world) (later : Books)
    (hphased : Phased False world) (hallowed : scheduled world (.goOn who))
    (hready : world.isReady who = true) (htask : world.tasks[who]? = some (.loop stage))
    (hnot : stage ≠ .done) (hrate : later.rate = books.rate)
    (hsound : later.reckoning.Sound later.rate later.exact later.diary)
    (hkept : (world.loopStep who stage).2.service.permit = true →
      later.reckoning.kept.isSome = true)
    (hat : (world.loopStep who stage).2.service.shuttingDown = false →
      later.At (world.loopStep who stage).2 who (world.loopStep who stage).1) :
    Reckoned later (world.step who) := by
  -- Setting the stage of the loop changes neither the service nor the clock.
  have hservice : (world.step who).service = (world.loopStep who stage).2.service :=
    service_step htask
  have hclock : (world.step who).clock = (world.loopStep who stage).2.clock := clock_step htask
  have hlooping := isLooping_iff.2 ⟨stage, htask, hnot⟩
  have hnext := task_step_of_loop htask
  constructor
  case sound => exact hsound
  case rate_eq =>
    rw [hservice, hrate, ← h.rate_eq]
    exact refreshRate_loopStep world who stage
  case kept => rwa [hservice]
  case loops =>
    intro hrunning other otherStage hother
    rw [hservice] at hrunning
    by_cases heq : other = who
    · subst heq
      obtain rfl := Task.loop.inj (Option.some.inj (hnext.symm.trans hother))
      exact (hat hrunning).passes (by rw [hservice]) (by rw [hservice]) (by rw [hservice])
        (Int.le_of_eq hclock.symm) fun _ => .inl hclock
    · -- No other loop is left.
      have hother : (world.after (.goOn who)).tasks[other]? = some (.loop otherStage) := hother
      rcases loop_after_cases hother with
        ⟨hevent, -⟩ | ⟨-, hbefore⟩ | ⟨⟨supervisor, due, loop, hspawns⟩, -⟩
      · exact absurd (Event.goOn.inj hevent).symm heq
      · by_cases hdone : otherStage = .done
        · subst hdone
          trivial
        · exact absurd (hphased.supervised.eq_of_isLooping
            (isLooping_iff.2 ⟨otherStage, hbefore, hdone⟩) hlooping) heq
      · exact absurd (htask.symm.trans hspawns.task_of_goOn) (by simp)
  case unlooped =>
    intro hrunning hnone
    -- A loop that has ended although the service runs has crashed.
    have hrunning : (world.after (.goOn who)).service.shuttingDown = false := hrunning
    have hdone := eq_done_of_isLooping hnext (hnone who)
    obtain ⟨hcrashes, -⟩ := Phased.crashes_of_loopStep htask hready (running_of_after hrunning) hnot
      (hphased.fits who stage htask) (hphased.ne_stopped hlooping) hdone
    exact absurd hcrashes (hallowed.1.2 who rfl)

/-- **The loop goes on with its cycle**, which goes on itself. -/
theorem after_of_goesOn {who : Nat} {stage later : CycleStage} (h : Reckoned books world)
    (hphased : Phased False world) (hallowed : scheduled world (.goOn who))
    (hready : world.isReady who = true) (htask : world.tasks[who]? = some (.loop (.cycling stage)))
    (hunderWay : stage.isUnderWay = true) (hgoesOn : (world.cycleStep stage).1 = .goesOn later) :
    world.moment? (.goOn who) = none ∧ Reckoned books (world.step who) := by
  have hlater := isUnderWay_of_goesOn hgoesOn
  obtain ⟨-, hwakes⟩ := world.alike_cycleStep stage
  have hstep : world.loopStep who (.cycling stage) =
      (.cycling later, (world.cycleStep stage).2) := by
    rw [loopStep_cycling, hgoesOn]
    rfl
  refine ⟨?_, h.of_loopStep _ hphased hallowed hready htask (by simp) rfl h.sound ?_ ?_⟩
  · rw [moment?_of_task htask, nextTask, hstep]
    simp [Task.cycleStage?, Mark.turned?, hunderWay, hlater]
  · rw [hstep]
    exact fun hpermit => h.kept ((congrArg Service.Wakes.permit hwakes).symm.trans hpermit)
  · rw [hstep]
    intro hrunning
    rw [shuttingDown_cycleStep] at hrunning
    have hat := (Books.at_cycling hunderWay).1 (h.loops hrunning who _ htask)
    exact (Books.at_cycling hlater).2
      (hat.passes (congrArg Service.Wakes.permit hwakes) (Service.sleepers_eq hwakes))

/-- **The loop goes on with its cycle**, which comes to its end. -/
theorem after_of_ended {who : Nat} {stage : CycleStage} {outcome : CycleOutcome}
    (h : Reckoned books world) (hphased : Phased False world)
    (hallowed : scheduled world (.goOn who)) (hready : world.isReady who = true)
    (htask : world.tasks[who]? = some (.loop (.cycling stage)))
    (hunderWay : stage.isUnderWay = true) (hended : (world.cycleStep stage).1 = .ended outcome) :
    world.moment? (.goOn who) = some ⟨.ended, world.clock⟩ ∧
      Reckoned (books.enter ⟨.ended, world.clock⟩ books.reckoning) (world.step who) := by
  obtain ⟨hclock, hwakes⟩ := world.alike_cycleStep stage
  have hstep : world.loopStep who (.cycling stage) = (.rest, (world.cycleStep stage).2) := by
    rw [loopStep_cycling, hended]
    rfl
  refine ⟨?_, h.of_loopStep _ hphased hallowed hready htask (by simp) rfl (h.sound.snoc (by simp))
    ?_ ?_⟩
  · rw [moment?_of_task htask, nextTask, hstep]
    simp [Task.cycleStage?, Mark.turned?, hunderWay]
  · rw [hstep]
    exact fun hpermit => h.kept ((congrArg Service.Wakes.permit hwakes).symm.trans hpermit)
  · rw [hstep]
    intro hrunning
    rw [shuttingDown_cycleStep] at hrunning
    have hat := (Books.at_cycling hunderWay).1 (h.loops hrunning who _ htask)
    exact ⟨_, _, hat.ends hclock (Service.sleepers_eq hwakes)
      (congrArg Service.Wakes.permit hwakes)⟩

/-- **The loop goes on with a cycle that it wants to run**: it begins, or it is turned away since
the service is shutting down. -/
theorem after_of_queued {who : Nat} (h : Reckoned books world) (hphased : Phased False world)
    (hallowed : scheduled world (.goOn who)) (hready : world.isReady who = true)
    (htask : world.tasks[who]? = some (.loop (.cycling .queued))) :
    ∃ reckoning, Reckoned { books with
      diary := books.diary ++ (world.moment? (.goOn who)).toList, reckoning } (world.step who) := by
  obtain ⟨hclock, hwakes⟩ := world.alike_cycleStep .queued
  have hpermit := congrArg Service.Wakes.permit hwakes
  have hmoves := world.cycleMoves .queued
  generalize hresult : world.cycleStep .queued = result at hmoves
  have hstep : world.loopStep who (.cycling .queued) = (result.1.loopStage, result.2) := by
    rw [loopStep_cycling, hresult]
  rw [hresult] at hclock hwakes hpermit
  cases hmoves with
  | cancelled hshut =>
    -- The service is shutting down, so nothing is entered and nothing is owed any more.
    have hmoment : world.moment? (.goOn who) = none := by
      rw [moment?_of_task htask, nextTask, hstep]
      rfl
    rw [hmoment, Option.toList_none, List.append_nil]
    refine ⟨books.reckoning,
      h.of_loopStep _ hphased hallowed hready htask (by simp) rfl h.sound ?_ ?_⟩
    · rw [hstep]
      exact fun hkept => h.kept (hpermit.symm.trans hkept)
    · rw [hstep]
      exact fun hrunning => absurd (hrunning.symm.trans hshut) (by decide)
  | began hrunning _ =>
    have hmoment : world.moment? (.goOn who) = some ⟨.began, world.clock⟩ := by
      rw [moment?_of_task htask, nextTask, hstep]
      rfl
    obtain ⟨hsound, hat⟩ := (h.loops hrunning who _ htask).begins h.sound
      (Service.sleepers_eq hwakes) hpermit
    rw [hmoment]
    refine ⟨books.reckoning.begin books.diary.length,
      h.of_loopStep _ hphased hallowed hready htask (by simp) rfl hsound ?_ ?_⟩
    · rw [hstep]
      exact fun hkept => h.kept (hpermit.symm.trans hkept)
    · rw [hstep]
      exact fun _ => hat
  | crashed _ _ =>
    exact absurd ⟨_, cycleStage?_of_task htask, hready, by rw [hresult]⟩ (hallowed.1.2 who rfl)

/-- **The loop goes on with its cycle.** -/
theorem after_of_cycling {who : Nat} {stage : CycleStage} (h : Reckoned books world)
    (hphased : Phased False world) (hallowed : scheduled world (.goOn who))
    (hready : world.isReady who = true)
    (htask : world.tasks[who]? = some (.loop (.cycling stage))) :
    ∃ reckoning, Reckoned { books with
      diary := books.diary ++ (world.moment? (.goOn who)).toList, reckoning } (world.step who) := by
  by_cases hunderWay : stage.isUnderWay = true
  · have hnot : (world.cycleStep stage).1 ≠ .crashed := fun hcrashed =>
      hallowed.1.2 who rfl ⟨stage, cycleStage?_of_task htask, hready, hcrashed⟩
    cases hstep : (world.cycleStep stage).1 with
    | goesOn later =>
      obtain ⟨hmoment, hlater⟩ := h.after_of_goesOn hphased hallowed hready htask hunderWay hstep
      rw [hmoment, Option.toList_none, List.append_nil]
      exact ⟨books.reckoning, hlater⟩
    | ended outcome =>
      obtain ⟨hmoment, hlater⟩ := h.after_of_ended hphased hallowed hready htask hunderWay hstep
      rw [hmoment]
      exact ⟨books.reckoning, hlater⟩
    | crashed => exact absurd hstep hnot
  · cases stage with
    | queued => exact h.after_of_queued hphased hallowed hready htask
    | _ => exact absurd rfl hunderWay

/-- **The loop goes on** between two cycles. -/
theorem after_of_waiting {who : Nat} {stage : LoopStage} (h : Reckoned books world)
    (hphased : Phased False world) (hallowed : scheduled world (.goOn who))
    (hready : world.isReady who = true) (htask : world.tasks[who]? = some (.loop stage))
    (hnot : stage ≠ .done) (hwaiting : ∀ cycle, stage ≠ .cycling cycle) :
    ∃ reckoning, Reckoned { books with reckoning } (world.step who) := by
  have hat := fun hrunning => h.loops hrunning who stage htask
  have hgoesOn := fun (reckoning : Reckoning) =>
    h.of_loopStep { books with reckoning } hphased hallowed hready htask hnot rfl
  have hmoves := world.loopMoves who stage
  generalize world.loopStep who stage = result at hmoves hgoesOn
  cases hmoves with
  | leftTop hshut =>
    exact ⟨_, hgoesOn books.reckoning h.sound h.kept fun hrunning =>
      absurd (hrunning.symm.trans hshut) (by decide)⟩
  | claimed hrunning =>
    have hwakes := Service.wakes_claimTurn world.service who
    refine ⟨_, hgoesOn books.reckoning h.sound ?_ fun _ => ?_⟩
    · exact fun hpermit => h.kept ((congrArg Service.Wakes.permit hwakes).symm.trans hpermit)
    · exact (hat hrunning).passes (congrArg Service.Wakes.permit hwakes)
        (congrArg Service.Wakes.parked hwakes) (congrArg Service.Wakes.woken hwakes)
        (Int.le_refl _) fun _ => .inl rfl
  | cycling _ => exact absurd rfl (hwaiting _)
  | leftRest hshut =>
    exact ⟨_, hgoesOn books.reckoning h.sound h.kept fun hrunning =>
      absurd (hrunning.symm.trans hshut) (by decide)⟩
  | resumed hrunning hpermit =>
    -- The request that was kept is the one that the next cycle will be charged to.
    obtain ⟨last, time, hrest⟩ := hat hrunning
    refine ⟨_, hgoesOn books.reckoning.resume h.sound.resume (fun hnone => absurd hnone (by simp))
      fun _ => .inr ⟨last, time, hrest.resumes (h.kept hpermit) rfl ?_⟩⟩
    show (world.service.publish .waiting).sleepers = _
    exact Service.sleepers_eq (Service.wakes_publish _ _)
  | parked hrunning hpermit =>
    obtain ⟨last, time, hrest⟩ := hat hrunning
    have hwakes := Service.wakes_publish world.service .waiting
    refine ⟨_, hgoesOn books.reckoning.park h.sound.park (fun hkept => ?_)
      fun _ => ⟨last, time, ?_⟩⟩
    · have hsame : (world.service.publish .waiting).permit = true := hkept
      rw [Service.permit_publish, hpermit] at hsame
      exact absurd hsame (by decide)
    · rw [h.rate_eq]
      refine hrest.parks hpermit rfl ?_ (congrArg Service.Wakes.woken hwakes)
      show (world.service.publish .waiting).parked ++ [who] = _
      rw [show (world.service.publish .waiting).parked = world.service.parked from
        congrArg Service.Wakes.parked hwakes]
  | unparked due =>
    refine ⟨_, hgoesOn books.reckoning h.sound h.kept fun hrunning => ?_⟩
    have hrunning : world.service.shuttingDown = false := hrunning
    obtain ⟨last, time, hpark⟩ := hat hrunning
    refine .inr ⟨last, time, hpark.unparks ?_ rfl ?_⟩
    · rw [isReady_of_task htask, isTaskReady, hrunning, Bool.or_false, Bool.or_eq_true,
        decide_eq_true_eq, decide_eq_true_eq] at hready
      exact hready
    · -- The loop was the only one that was parked or woken.
      show world.service.parked.filter (· ≠ who) ++ world.service.woken.filter (· ≠ who) = []
      have hasleep := hpark.asleep
      unfold Service.sleepers at hasleep
      rw [← List.filter_append, hasleep]
      simp
  | done => exact absurd rfl hnot

/-- **The books are kept** whatever happens. -/
theorem after (h : Reckoned books world) (hphased : Phased False world)
    (horderly : world.Orderly) (hallowed : scheduled world event) (hadmits : world.Admits event)
    (hpunctual : books.exact → punctual world event) :
    ∃ reckoning, Reckoned { books with
      diary := books.diary ++ (world.moment? event).toList, reckoning } (world.after event) := by
  cases wakeMoves hphased.calls event with
  | spared hspares hloops =>
    rw [hspares.moment, Option.toList_none, List.append_nil]
    exact ⟨_, h.after_of_spared hphased horderly hallowed hpunctual hspares hloops⟩
  | spawned hspares hspawns =>
    rw [hspares.moment, Option.toList_none, List.append_nil]
    exact ⟨_, h.after_of_spawned hphased horderly hallowed hpunctual hspares hspawns⟩
  | requested hevent =>
    subst hevent
    exact h.after_requestRefresh
  | @looped who stage hevent htask hnot =>
    subst hevent
    by_cases hcycling : ∃ cycle, stage = .cycling cycle
    · obtain ⟨cycle, rfl⟩ := hcycling
      exact h.after_of_cycling hphased hallowed hadmits htask
    · -- Between two cycles nothing is entered.
      have hwaiting : ∀ cycle, stage ≠ .cycling cycle := fun cycle heq => hcycling ⟨cycle, heq⟩
      have hidle : world.isUnderWay who = false := by
        rw [isUnderWay_of_task htask]
        cases stage with
        | cycling cycle => exact absurd rfl (hwaiting cycle)
        | _ => rfl
      have hnone : world.cycleStage? who = none := by
        rw [cycleStage?_of_task htask]
        cases stage with
        | cycling cycle => exact absurd rfl (hwaiting cycle)
        | _ => rfl
      rw [moment?_eq_none hidle (isUnderWay_step_of_none hnone), Option.toList_none,
        List.append_nil]
      exact h.after_of_waiting hphased hallowed hadmits htask hnot hwaiting

end Reckoned

/-! ### Along a course -/

section Along

variable {allowed : World σ → Event σ → Prop} {start world : World σ} {diary : Diary}

/-- **The books are right** at the end of every course. -/
theorem Account.reckoned {rate : Span} {reckoning : Reckoning}
    (h : Account allowed start diary world)
    (hstart : Reckoned ⟨rate, ∀ world event, allowed world event → punctual world event, [],
      reckoning⟩ start)
    (hphased : Phased False start) (horderly : start.Orderly)
    (hallowed : ∀ world event, allowed world event → scheduled world event) :
    ∃ reckoning, Reckoned ⟨rate, ∀ world event, allowed world event → punctual world event, diary,
      reckoning⟩ world := by
  induction h with
  | here => exact ⟨_, hstart⟩
  | next haccount hevent hadmits ih =>
    obtain ⟨reckoning, hreckoned⟩ := ih
    obtain ⟨log, hcourse⟩ := haccount.course
    refine hreckoned.after ?_ (hcourse.orderly horderly) (hallowed _ _ hevent) hadmits
      fun hexact => hexact _ _ hevent
    exact hcourse.phased hphased (fun _ _ hevent => (hallowed _ _ hevent).1.1)
      fun _ _ _ hevent => (hallowed _ _ hevent).1.2

end Along

/-- **The loop is about to run a cycle at once**: it can go on, and not because it was parked. -/
def IsPrompt (world : World σ) : Prop :=
  ∃ (who : Nat) (stage : LoopStage), world.tasks[who]? = some (.loop stage) ∧
    world.isReady who = true ∧ ∀ due, stage ≠ .parked due

omit [FallibleStore σ] in
/-- **A loop that owes a cycle is about to run it.** -/
theorem Reckoned.isPrompt {books : Books} {world : World σ} (h : Reckoned books world)
    (hphased : Phased False world) (horderly : world.Orderly) {last : Nat} {time : Int}
    (hended : books.diary.LastEnded last time) (howes : books.diary.Owes last)
    (hrunning : world.service.shuttingDown = false) :
    world.IsPrompt ∧ (books.exact → world.clock = time) := by
  have hmarks := Diary.marks_of_getElem? hended.ended
  -- Another cycle that has ended last has ended at the same place and at the same time.
  have hsame : ∀ {other otherTime}, books.diary.LastEnded other otherTime →
      other = last ∧ otherTime = time := by
    intro other otherTime hother
    have hplace := hended.eq (Diary.marks_of_getElem? hother.ended) hother.quiet
    subst hplace
    exact ⟨rfl, congrArg Moment.time (Option.some.inj (hother.ended.symm.trans hended.ended))⟩
  have hfirst : ¬ books.BeforeFirst world := fun hfirst => absurd
    ((hfirst.quiet last (Nat.zero_le _) hmarks.lt_length).unique hmarks) (by decide)
  obtain ⟨who, hlooping⟩ : ∃ who, world.isLooping who = true := by
    refine Classical.byContradiction fun hnone => hfirst (h.unlooped hrunning fun who => ?_)
    exact Bool.eq_false_iff.2 fun hlooping => hnone ⟨who, hlooping⟩
  obtain ⟨stage, htask, hnot⟩ := isLooping_iff.1 hlooping
  have hat := h.loops hrunning who stage htask
  have hclock : (∃ last time, books.BeforeNext world last time) → books.exact →
      world.clock = time := by
    rintro ⟨other, otherTime, hnext⟩ hexact
    obtain ⟨rfl, rfl⟩ := hsame hnext.ended
    exact hnext.prompt howes hexact
  have hready : world.isTaskReady who (.loop stage) = true → (∀ due, stage ≠ .parked due) →
      world.IsPrompt := fun hready hawake =>
    ⟨who, stage, htask, (isReady_of_task htask).trans hready, hawake⟩
  cases stage with
  | top => exact ⟨hready rfl (by simp), hclock (hat.resolve_left hfirst)⟩
  | cycling stage =>
    cases stage with
    | queued =>
      have hqueued : world.cycleStage? who = some .queued := cycleStage?_of_task htask
      have hturn := hphased.turn_eq_of_queued horderly hqueued
      exact ⟨hready (by simp [isTaskReady, isCycleReady, hturn]) (by simp),
        hclock (hat.resolve_left hfirst)⟩
    | _ => exact absurd (Books.InCycle.isOpen hat) hended.not_isOpen
  | rest =>
    obtain ⟨other, otherTime, hrest⟩ := hat
    obtain ⟨rfl, rfl⟩ := hsame hrest.ended
    exact ⟨hready rfl (by simp), hrest.clock_eq⟩
  | parked due =>
    obtain ⟨other, otherTime, hpark⟩ := hat
    obtain ⟨rfl, rfl⟩ := hsame hpark.ended
    exact absurd howes hpark.unowed
  | done => exact absurd rfl hnot

omit [FallibleStore σ] in
/-- **A loop that waits for the next cycle has answered every request.** -/
theorem Reckoned.answered {books : Books} {world : World σ} (h : Reckoned books world) {who : Nat}
    {due : Int} (htask : world.tasks[who]? = some (.loop (.parked due)))
    (hquiet : world.isReady who = false) {place : Nat}
    (hrequested : books.diary.Marks .requested place) :
    ∃ later, place < later ∧ books.diary.Marks .began later := by
  have hwaits := Phased.isTaskReady_eq_false hquiet htask
  rw [isTaskReady, Bool.or_eq_false_iff, Bool.or_eq_false_iff, decide_eq_false_iff_not] at hwaits
  obtain ⟨⟨hasleep, -⟩, hrunning⟩ := hwaits
  obtain ⟨last, time, hpark⟩ := h.loops hrunning who _ htask
  refine Classical.byContradiction fun hnone => hasleep (hpark.unanswered place ⟨hrequested, ?_⟩)
  exact fun later hlt hbegan => hnone ⟨later, hlt, hbegan⟩

/-- **No request for a cycle is lost, and no cycle runs for nothing.** Where nobody but the loop
runs cycles, none of them crashes, and the clock never runs backwards, every course has a diary, and
at the end of every course

* the statistics count the requests and the cycles that the diary tells of;
* a loop that is parked and cannot go on has answered every request;
* a request that was made in the middle of a cycle, or before or in the middle of the first one,
  ends the next wait at once;
* every cycle but the first is charged to a request, none of them twice, or the time for it had
  come; a request that was made in the middle of a cycle is charged for the next one, if for any.

If the clock waits for the loop, then a cycle that is not charged to a request begins exactly when
the time for it has come, and one that is owed at the very time at which the one before it ended. -/
theorem no_request_lost {clock : Int} {directory : Directory} {cache : Cache σ} {config : Config}
    {allowed : World σ → Event σ → Prop} {log : List Attempt} {world : World σ}
    (hallowed : ∀ world event, allowed world event → scheduled world event)
    (h : Course allowed (start clock directory cache config) log world) :
    (∃ diary, Account allowed (start clock directory cache config) diary world) ∧
    ∀ diary, Account allowed (start clock directory cache config) diary world →
      Tallies (start clock directory cache config) world diary ∧
      (∀ (who : Nat) due, world.tasks[who]? = some (.loop (.parked due)) →
        world.isReady who = false → ∀ place, diary.Marks .requested place →
        ∃ later, place < later ∧ diary.Marks .began later) ∧
      (∀ last time, diary.LastEnded last time → diary.Owes last →
        world.service.shuttingDown = false → world.IsPrompt ∧
        ((∀ world event, allowed world event → punctual world event) → world.clock = time)) ∧
      ∃ charge, diary.Charged config.refreshRate
        (∀ world event, allowed world event → punctual world event) charge := by
  refine ⟨h.exists_account, fun diary haccount => ?_⟩
  have horderly := orderly_start clock directory cache config
  have hstart := phased_start False clock directory cache config
  have hphased := h.phased hstart (fun _ _ hevent => (hallowed _ _ hevent).1.1)
    fun _ _ _ hevent => (hallowed _ _ hevent).1.2
  obtain ⟨reckoning, hreckoned⟩ := haccount.reckoned
    (Reckoned.start config.refreshRate _ clock directory cache rfl) hstart horderly hallowed
  exact ⟨haccount.tallies fun _ _ hevent => (hallowed _ _ hevent).1.2,
    fun who due htask hquiet place => hreckoned.answered htask hquiet,
    fun last time hended howes hrunning =>
      hreckoned.isPrompt hphased (h.orderly horderly) hended howes hrunning,
    reckoning.charge, hreckoned.sound.charged⟩

omit [FallibleStore σ] in
/-- A loop that runs no cycle and waits for the clock is parked. -/
theorem exists_parked {world : World σ} {who : Nat} (hlooping : world.isLooping who = true)
    (hnone : world.cycleStage? who = none)
    (halarm : (world.tasks[who]?.bind Task.alarm?).isSome = true) :
    ∃ due, world.tasks[who]? = some (.loop (.parked due)) := by
  obtain ⟨stage, htask, -⟩ := isLooping_iff.1 hlooping
  rw [htask, Option.bind_some] at halarm
  rw [cycleStage?_of_task htask] at hnone
  cases stage with
  | parked due => exact ⟨due, htask⟩
  | cycling stage => exact absurd hnone (by simp [Task.cycleStage?])
  | _ => exact absurd halarm (by simp [Task.alarm?])

/-- A cycle is asked for before the first one begins, so the second one follows at once. Then the
loop is parked. -/
theorem no_request_lost_asked_early :
    ∃ (diary : Diary) (world : World MemoryStore),
      Account (fun world event => scheduled world event ∧ punctual world event)
        (start 0 .empty .blank .standard) diary world ∧
      diary = [⟨.requested, 0⟩, ⟨.began, 0⟩, ⟨.ended, 0⟩, ⟨.began, 0⟩, ⟨.ended, 0⟩] ∧
      world.isReady 1 = false ∧ (∃ later, 0 < later ∧ diary.Marks .began later) ∧
      ∃ charge, diary.Charged Config.standard.refreshRate True charge := by
  let allowed : World MemoryStore → Event MemoryStore → Prop :=
    fun world event => scheduled world event ∧ punctual world event
  let first : World MemoryStore := start 0 .empty .blank .standard
  have hallowed : ∀ (world : World MemoryStore) event, unattended world event →
      (∀ who, event = .goOn who → ¬ world.Crashes who) → (∀ clock, event ≠ .clock clock) →
      allowed world event := fun world event hunattended hsound hclock =>
    ⟨⟨⟨hunattended, hsound⟩, fun clock heq => absurd heq (hclock clock)⟩,
      fun clock heq => absurd heq (hclock clock)⟩
  -- Nothing crashes here, so whoever is ready may go on.
  have hgoOn : ∀ {diary world} who, Account allowed first diary world →
      world.directory.Opens ∧ (world.cycleStage? who).all CycleStage.lasts = true →
      world.isReady who = true →
      Account allowed first (diary ++ (world.moment? (.goOn who)).toList) (world.step who) := by
    rintro diary world who h ⟨hopens, hlasts⟩ hready
    have hevent : allowed world (.goOn who) := by
      refine hallowed world _ ⟨startsOnce_of_ne (by simp), by simp⟩ (fun other heq => ?_) (by simp)
      rw [← Event.goOn.inj heq]
      exact not_crashes_of_opens hopens hlasts
    exact h.next hevent hready
  -- The request comes before the service is started.
  have hrequest : allowed first .requestRefresh := hallowed first _
    ⟨startsOnce_of_ne (by simp), by simp⟩ (by simp) (by simp)
  have hasked : Account allowed first _ first.requestRefresh := Account.here.next hrequest trivial
  have hstart : allowed first.requestRefresh .startService := hallowed _ _
    ⟨fun _ => by decide +kernel, by simp⟩ (by simp) (by simp)
  have hstarted : Account allowed first _ first.requestRefresh.startService :=
    hasked.next hstart trivial
  -- The supervisor starts the loop, and the loop runs the first cycle.
  have hwatching := hgoOn 0 hstarted (by decide +kernel) (by decide +kernel)
  have hlooping := hgoOn 0 hwatching (by decide +kernel) (by decide +kernel)
  have hqueued := hgoOn 1 hlooping (by decide +kernel) (by decide +kernel)
  have hlisting := hgoOn 1 hqueued (by decide +kernel) (by decide +kernel)
  have hclosing := hgoOn 1 hlisting (by decide +kernel) (by decide +kernel)
  have hresting := hgoOn 1 hclosing (by decide +kernel) (by decide +kernel)
  -- It does not get to wait: the request is there already.
  have hresumed := hgoOn 1 hresting (by decide +kernel) (by decide +kernel)
  have hagain := hgoOn 1 hresumed (by decide +kernel) (by decide +kernel)
  have hrelisting := hgoOn 1 hagain (by decide +kernel) (by decide +kernel)
  have hreclosing := hgoOn 1 hrelisting (by decide +kernel) (by decide +kernel)
  have hrested := hgoOn 1 hreclosing (by decide +kernel) (by decide +kernel)
  have hparked := hgoOn 1 hrested (by decide +kernel) (by decide +kernel)
  let listing : World MemoryStore :=
    (((first.requestRefresh.startService.step 0).step 0).step 1).step 1
  let world : World MemoryStore :=
    (((((((listing.step 1).step 1).step 1).step 1).step 1).step 1).step 1).step 1
  obtain ⟨due, hwaiting⟩ : ∃ due, world.tasks[1]? = some (.loop (.parked due)) :=
    exists_parked (by decide +kernel) (by decide +kernel) (by decide +kernel)
  have hquiet : world.isReady 1 = false := by decide +kernel
  obtain ⟨log, hcourse⟩ : ∃ log, Course allowed first log world := hparked.course
  obtain ⟨-, hends⟩ := no_request_lost (fun _ _ hevent => hevent.1) hcourse
  obtain ⟨-, hanswered, -, charge, hcharged⟩ := hends _ hparked
  refine ⟨_, world, hparked, by decide +kernel, hquiet, ?_, charge, ?_⟩
  · exact hanswered 1 due hwaiting hquiet 0 (by decide +kernel)
  · rwa [eq_true (fun _ _ hallowed => hallowed.2 : ∀ world event, allowed world event →
      punctual world event)] at hcharged

end World

end DeviceScope
