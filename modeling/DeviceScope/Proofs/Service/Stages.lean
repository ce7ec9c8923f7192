import DeviceScope.Proofs.Directory.Listing
import DeviceScope.Proofs.Service.Course

/-!
# Stages of a cycle

How far the task of a cycle has come changes only when this task goes on
(`World.observe_after_of_ne`), and then in one of a few ways: `World.Turns` lists those in which
the cycle goes on (`turns_of_goesOn`), `CycleStage.Ends` those in which it ends (`ends_of_ended`).
Seen from an event, a task that is in the middle of a cycle was so before and something else has
happened, or it has made one of these turns (`World.turns_of_isUnderWay_after`). This is what every
induction over a course rests on that is about a cycle.
-/

namespace DeviceScope

variable {σ : Type}

/-- **The ways in which a cycle ends.** -/
inductive CycleStage.Ends : CycleStage → CycleOutcome → Prop where
  /-- It has not begun. -/
  | cancelled : Ends .queued .cancelled
  /-- The listing breaks off or takes too long. -/
  | brokeOff {cycle : Cycle} {outcome : CycleOutcome} (hpage : cycle.page = [])
    (houtcome : outcome.isCompleted = false) : Ends (.walking cycle) outcome
  /-- Nothing is left to be marked absent. -/
  | completed (report : Report) : Ends (.marking report []) (.completed report)

/-- Whether the task has only just been put to the others. -/
def Task.isNew : Task → Bool
  | .call (.begun _) | .loop .top | .supervisor .begun => true
  | _ => false

namespace World

/-! ### Tasks that go on -/

theorem tasks_beginCycle (world : World σ) : world.beginCycle.2.tasks = world.tasks := by
  rw [beginCycle]
  split
  · rfl
  · split <;> rfl

theorem tasks_fetch (world : World σ) (cycle : Cycle) :
    (world.fetch cycle).2.tasks = world.tasks := by
  rw [fetch]
  split
  · rfl
  · split
    · split
      · rfl
      · split <;> rfl
    · rfl

section Store

variable [FallibleStore σ]

theorem tasks_cycleStep (world : World σ) (stage : CycleStage) :
    (world.cycleStep stage).2.tasks = world.tasks := by
  cases stage with
  | queued => exact tasks_beginCycle world
  | walking cycle =>
    rw [cycleStep, walk]
    split
    · exact tasks_fetch world cycle
    · rfl
  | marking report gone => cases gone <;> rfl

theorem tasks_callStep (world : World σ) (who : Nat) (stage : CallStage) :
    (world.callStep who stage).2.tasks = world.tasks := by
  -- Only a cycle does more than change the call itself, and it leaves the tasks alone.
  have hturns := world.callTurns who stage
  generalize world.callStep who stage = result at hturns ⊢
  cases hturns with
  | wentOn h => exact tasks_cycleStep world _
  | ended h => exact tasks_cycleStep world _
  | crashed h => exact tasks_cycleStep world _
  | _ => rfl

theorem tasks_loopStep (world : World σ) (who : Nat) (stage : LoopStage) :
    (world.loopStep who stage).2.tasks = world.tasks := by
  -- A loop is told by its cycle, or it changes nothing but the service.
  rcases loopStep_cases world who stage with ⟨cycle, rfl⟩ | ⟨-, later, service, hstep, -⟩
  · rw [snd_loopStep_cycling, tasks_cycleStep]
  · rw [hstep]

omit [FallibleStore σ] in
/-- A supervisor may start a loop, which is put to the other tasks. -/
theorem tasks_supervisorStep (world : World σ) (stage : SupervisorStage) :
    (world.supervisorStep stage).2.tasks = world.tasks ∨
      (world.supervisorStep stage).2.tasks = world.tasks ++ [.loop .top] := by
  cases stage with
  | begun => rw [supervisorStep]; split <;> exact .inl rfl
  | watching due loop =>
    rw [supervisorStep]
    split
    · exact .inl rfl
    · dsimp only
      split
      · exact .inr rfl
      · exact .inl rfl
  | joining loop => exact .inl rfl
  | done => exact .inl rfl

/-- What becomes of a task that goes on. -/
def nextTask (world : World σ) (who : Nat) : Task → Task
  | .call stage => .call (world.callStep who stage).1
  | .loop stage => .loop (world.loopStep who stage).1
  | .supervisor stage => .supervisor (world.supervisorStep stage).1

/-- What a task that goes on leaves behind, apart from what becomes of itself. -/
def nextWorld (world : World σ) (who : Nat) : Task → World σ
  | .call stage => (world.callStep who stage).2
  | .loop stage => (world.loopStep who stage).2
  | .supervisor stage => (world.supervisorStep stage).2

theorem step_eq {world : World σ} {who : Nat} {task : Task}
    (h : world.tasks[who]? = some task) :
    world.step who = (world.nextWorld who task).setTask who (world.nextTask who task) := by
  cases task with
  | call stage => rw [step, h]; rfl
  | loop stage => rw [step, h]; rfl
  | supervisor stage => rw [step, h]; rfl

theorem step_of_none {world : World σ} {who : Nat} (h : world.tasks[who]? = none) :
    world.step who = world := by
  rw [step, h]

theorem service_step {world : World σ} {who : Nat} {task : Task}
    (h : world.tasks[who]? = some task) :
    (world.step who).service = (world.nextWorld who task).service := by
  rw [step_eq h]
  rfl

theorem clock_step {world : World σ} {who : Nat} {task : Task}
    (h : world.tasks[who]? = some task) :
    (world.step who).clock = (world.nextWorld who task).clock := by
  rw [step_eq h]
  rfl

/-- A task that goes on becomes the next one. -/
theorem task_step (world : World σ) (who : Nat) :
    (world.step who).tasks[who]? = world.tasks[who]?.map (world.nextTask who) := by
  -- Each kind of task is set in the place where it was.
  rw [step]
  split
  · next htask => rw [htask]; rfl
  · next stage htask =>
    have hlength : who < world.tasks.length := (List.getElem?_eq_some_iff.1 htask).1
    show ((world.callStep who stage).2.tasks.set who _)[who]? = _
    rw [tasks_callStep, List.getElem?_set_self hlength, htask]
    rfl
  · next stage htask =>
    have hlength : who < world.tasks.length := (List.getElem?_eq_some_iff.1 htask).1
    show ((world.loopStep who stage).2.tasks.set who _)[who]? = _
    rw [tasks_loopStep, List.getElem?_set_self hlength, htask]
    rfl
  · next stage htask =>
    -- A loop that the supervisor starts comes behind all others.
    have hlength : who < (world.supervisorStep stage).2.tasks.length := by
      have hbefore : who < world.tasks.length := (List.getElem?_eq_some_iff.1 htask).1
      rcases tasks_supervisorStep world stage with htasks | htasks
      · rwa [htasks]
      · rw [htasks, List.length_append]
        exact Nat.lt_add_right _ hbefore
    show ((world.supervisorStep stage).2.tasks.set who _)[who]? = _
    rw [List.getElem?_set_self hlength, htask]
    rfl

/-! ### Tasks that do not go on -/

/-- **The task is as it was**, or it is a new one. -/
inductive Untouched (world later : World σ) (who : Nat) : Prop where
  | same (h : later.tasks[who]? = world.tasks[who]?)
  | new {task : Task} (hnone : world.tasks[who]? = none) (hnew : task.isNew = true)
    (htask : later.tasks[who]? = some task)

omit [FallibleStore σ] in
/-- A new task comes behind all others. -/
theorem untouched_append {world later : World σ} {task : Task} (hnew : task.isNew = true)
    (htasks : later.tasks = world.tasks ++ [task]) (who : Nat) : Untouched world later who := by
  by_cases hlength : who < world.tasks.length
  · refine .same ?_
    rw [htasks, List.getElem?_append_left hlength]
  · have hnone : world.tasks[who]? = none := List.getElem?_eq_none (Nat.not_lt.1 hlength)
    have hlater : later.tasks[who]? = [task][who - world.tasks.length]? := by
      rw [htasks, List.getElem?_append_right (Nat.not_lt.1 hlength)]
    -- The place is a new one, where the new task stands or nothing does.
    cases hindex : who - world.tasks.length with
    | zero =>
      rw [hindex] at hlater
      exact .new hnone hnew hlater
    | succ n =>
      rw [hindex] at hlater
      refine .same ?_
      rw [hlater, hnone]
      rfl

/-- A step leaves the other tasks as they are. -/
theorem untouched_step_of_ne (world : World σ) {who other : Nat} (h : other ≠ who) :
    Untouched world (world.step who) other := by
  -- The step sets the task that goes on; what it puts to the others comes behind them.
  rw [step]
  split
  · exact .same rfl
  · next stage hstage =>
    refine .same ?_
    show ((world.callStep who stage).2.tasks.set who _)[other]? = _
    rw [List.getElem?_set_ne (fun heq => h heq.symm), tasks_callStep]
  · next stage hstage =>
    refine .same ?_
    show ((world.loopStep who stage).2.tasks.set who _)[other]? = _
    rw [List.getElem?_set_ne (fun heq => h heq.symm), tasks_loopStep]
  · next stage hstage =>
    have hset : ((world.supervisorStep stage).2.setTask who
        (.supervisor (world.supervisorStep stage).1)).tasks[other]? =
          (world.supervisorStep stage).2.tasks[other]? :=
      List.getElem?_set_ne (fun heq => h heq.symm)
    rcases tasks_supervisorStep world stage with htasks | htasks
    · refine .same ?_
      rw [hset, htasks]
    · cases untouched_append rfl htasks other with
      | same hsame => exact .same (hset.trans hsame)
      | new hnone hnew htask => exact .new hnone hnew (hset.trans htask)

/-- **A task changes only when it goes on.** -/
theorem untouched_after_of_ne (world : World σ) {event : Event σ} {who : Nat}
    (h : event ≠ .goOn who) : Untouched world (world.after event) who := by
  cases event with
  | goOn other =>
    have hne : who ≠ other := by
      rintro rfl
      exact h rfl
    exact untouched_step_of_ne world hne
  | call call => exact untouched_append rfl rfl who
  | startService => exact untouched_append rfl rfl who
  | _ => exact .same rfl

theorem task_after_of_ne {world : World σ} {event : Event σ} {who : Nat} {task : Task}
    (h : event ≠ .goOn who) (htask : world.tasks[who]? = some task) :
    (world.after event).tasks[who]? = some task := by
  cases untouched_after_of_ne world h with
  | same hsame => exact hsame.trans htask
  | new hnone _ _ =>
    rw [hnone] at htask
    exact absurd htask (by simp)

/-- **What is observed of a task changes only when it goes on**, unless it is observed of new
tasks. -/
theorem observe_after_of_ne {α : Type} {observe : Task → Option α}
    (hunobserved : ∀ task, task.isNew = true → observe task = none)
    (world : World σ) {event : Event σ} {who : Nat} (h : event ≠ .goOn who) :
    (world.after event).tasks[who]?.bind observe = world.tasks[who]?.bind observe := by
  cases untouched_after_of_ne world h with
  | same hsame => rw [hsame]
  | new hnone hnew htask =>
    rw [hnone, htask]
    exact hunobserved _ hnew

omit [FallibleStore σ] in
theorem cycleStage?_of_isNew (task : Task) (h : task.isNew = true) : task.cycleStage? = none := by
  rw [Task.isNew.eq_def] at h
  split at h
  · rfl
  · rfl
  · rfl
  · exact absurd h (by decide)

/-- **A cycle changes only when its task goes on.** -/
theorem cycleStage?_after_of_ne (world : World σ) {event : Event σ} {who : Nat}
    (h : event ≠ .goOn who) : (world.after event).cycleStage? who = world.cycleStage? who :=
  observe_after_of_ne cycleStage?_of_isNew world h

/-! ### Tasks and their cycles -/

section

omit [FallibleStore σ]

variable {world : World σ} {who : Nat} {task : Task}

theorem cycleStage?_of_task (h : world.tasks[who]? = some task) :
    world.cycleStage? who = task.cycleStage? := by
  rw [cycleStage?, h, Option.bind_some]

theorem isUnderWay_of_task (h : world.tasks[who]? = some task) :
    world.isUnderWay who = task.cycleStage?.any CycleStage.isUnderWay := by
  rw [isUnderWay, cycleStage?_of_task h]

theorem isReady_of_task (h : world.tasks[who]? = some task) :
    world.isReady who = world.isTaskReady who task := by
  rw [isReady, h, Option.any_some]

end

/-- The cycle of a task goes on as the cycle does. -/
theorem cycleStage?_step_of_some {world : World σ} {who : Nat} {stage : CycleStage}
    (h : world.cycleStage? who = some stage) :
    (world.step who).cycleStage? who =
      match (world.cycleStep stage).1 with
      | .goesOn stage => some stage
      | _ => none := by
  obtain ⟨task, htask, hstage⟩ := Option.bind_eq_some_iff.1 h
  rw [cycleStage?, task_step, htask, Option.map_some, Option.bind_some]
  -- The task is a call or a loop, and either goes on as its cycle does.
  rw [Task.cycleStage?.eq_def] at hstage
  split at hstage
  · rw [← Option.some.inj hstage, nextTask, callStep]
    split <;> next hstep => rw [hstep]; rfl
  · rw [← Option.some.inj hstage, nextTask, loopStep]
    split <;> next hstep => rw [hstep]; rfl
  · exact absurd hstage (by simp)

/-- The task of a cycle leaves behind what the cycle does. -/
theorem exists_step_eq_of_cycleStage? {world : World σ} {who : Nat} {stage : CycleStage}
    (h : world.cycleStage? who = some stage) :
    ∃ task, world.step who = (world.cycleStep stage).2.setTask who task := by
  obtain ⟨task, htask, hstage⟩ := Option.bind_eq_some_iff.1 h
  refine ⟨world.nextTask who task, ?_⟩
  rw [step_eq htask]
  rw [Task.cycleStage?.eq_def] at hstage
  split at hstage
  · rw [← Option.some.inj hstage, nextWorld, callStep]
    split <;> next hstep => rw [hstep]
  · rw [← Option.some.inj hstage, nextWorld, snd_loopStep_cycling]
  · exact absurd hstage (by simp)

omit [FallibleStore σ] in
/-- The task of a cycle is ready when the cycle can go on. -/
theorem isReady_eq_of_cycleStage? {world : World σ} {who : Nat} {stage : CycleStage}
    (h : world.cycleStage? who = some stage) :
    world.isReady who = world.isCycleReady who stage := by
  obtain ⟨task, htask, hstage⟩ := Option.bind_eq_some_iff.1 h
  rw [isReady, htask, Option.any_some]
  rw [Task.cycleStage?.eq_def] at hstage
  split at hstage
  · rw [← Option.some.inj hstage]
    rfl
  · rw [← Option.some.inj hstage]
    rfl
  · exact absurd hstage (by simp)

/-- A call that runs no cycle may ask for one, but does not find itself in the middle of it. -/
theorem isUnderWay_callStep (world : World σ) (who : Nat) {stage : CallStage}
    (h : Task.cycleStage? (.call stage) = none) :
    (Task.cycleStage? (.call (world.callStep who stage).1)).any CycleStage.isUnderWay = false := by
  -- Whoever goes on with a cycle had one; all others end, ask, or wait for their turn.
  have hturns := world.callTurns who stage
  generalize world.callStep who stage = result at hturns ⊢
  cases hturns with
  | wentOn hstep => exact absurd h (by simp [Task.cycleStage?])
  | _ => rfl

/-- A task that runs no cycle does not find itself in the middle of one. -/
theorem isUnderWay_step_of_none {world : World σ} {who : Nat}
    (h : world.cycleStage? who = none) : (world.step who).isUnderWay who = false := by
  rw [cycleStage?] at h
  rw [isUnderWay, cycleStage?, task_step]
  cases htask : world.tasks[who]? with
  | none => rfl
  | some task =>
    rw [htask, Option.bind_some] at h
    rw [Option.map_some, Option.bind_some]
    -- A supervisor never runs a cycle itself.
    cases task with
    | call stage => exact isUnderWay_callStep world who h
    | loop stage =>
      rcases loopStep_cases world who stage with ⟨cycle, rfl⟩ | ⟨-, later, service, hstep, hlater⟩
      · exact absurd h (by simp [Task.cycleStage?])
      · rw [nextTask, hstep]
        exact hlater
    | supervisor stage => rfl

/-! ### Tasks and what they hear -/

omit [FallibleStore σ] in
theorem heard?_of_isNew (task : Task) (h : task.isNew = true) : task.heard? = none := by
  rw [Task.isNew.eq_def] at h
  split at h
  · rfl
  · rfl
  · rfl
  · exact absurd h (by decide)

/-- A call that has heard an answer had asked for it, and it is the answer of the directory. -/
theorem eq_of_callStep_heard? {world : World σ} {who : Nat} {stage : CallStage} {id : String}
    {answer : Except DirectoryError (Option Identity)}
    (h : Task.heard? (.call (world.callStep who stage).1) = some (id, answer)) :
    (∃ purpose due, stage = .asking id purpose due) ∧ answer = world.answer id := by
  have hturns := world.callTurns who stage
  generalize world.callStep who stage = result at hturns h
  -- Of all the ways in which a call goes on, one hears an answer.
  cases hturns with
  | heard asked purpose due =>
    have hheard : some (asked, world.answer asked) = some (id, answer) := h
    obtain ⟨rfl, rfl⟩ := Prod.mk.inj (Option.some.inj hheard)
    exact ⟨⟨purpose, due, rfl⟩, rfl⟩
  | asked hwrite id purpose => exact absurd h (by simp [ask, Task.heard?])
  | concluded id purpose answer => exact absurd h (by simp [conclude, Task.heard?])
  | _ => exact absurd h (by simp [Task.heard?])

/-- **An answer that is heard** is the answer of the directory to a task that had asked for it. -/
theorem hasHeard_after_cases {world : World σ} {event : Event σ} {who : Nat} {id : String}
    {answer : Except DirectoryError (Option Identity)}
    (h : (world.after event).HasHeard who id answer) :
    event ≠ .goOn who ∧ world.HasHeard who id answer ∨
      event = .goOn who ∧ world.IsAsking who id ∧ answer = world.answer id := by
  by_cases hevent : event = .goOn who
  · subst hevent
    -- The task itself went on, so it is a call that has just been answered.
    rw [HasHeard, after, task_step] at h
    obtain ⟨later, hlater, hheard⟩ := Option.bind_eq_some_iff.1 h
    obtain ⟨task, htask, rfl⟩ := Option.map_eq_some_iff.1 hlater
    cases task with
    | call stage =>
      obtain ⟨⟨purpose, due, rfl⟩, hanswer⟩ := eq_of_callStep_heard? hheard
      exact .inr ⟨rfl, ⟨purpose, due, htask⟩, hanswer⟩
    | loop stage => exact absurd hheard (by simp [nextTask, Task.heard?])
    | supervisor stage => exact absurd hheard (by simp [nextTask, Task.heard?])
  · rw [HasHeard, observe_after_of_ne heard?_of_isNew world hevent] at h
    exact .inl ⟨hevent, h⟩

omit [FallibleStore σ] in
/-- A task that has heard an answer writes the record that the answer asks for. -/
theorem HasHeard.write? {world : World σ} {who : Nat} {id : String}
    {answer : Except DirectoryError (Option Identity)} (h : world.HasHeard who id answer) :
    world.write? (.goOn who) = Record.ofAnswer? id answer world.now := by
  obtain ⟨task, htask, hheard⟩ := Option.bind_eq_some_iff.1 h
  rw [World.write?, htask]
  rw [Task.heard?.eq_def] at hheard
  split at hheard
  · obtain ⟨rfl, rfl⟩ := Prod.mk.inj (Option.some.inj hheard)
    rfl
  · exact absurd hheard (by simp)

/-! ### Turns of a cycle -/

/-- **The ways in which a cycle goes on** from one stage to another. -/
inductive Turns (world : World σ) : CycleStage → CycleStage → Prop where
  /-- It begins, with the listing of what the directory holds now. -/
  | began (timeout : Option Span) :
    Turns world .queued (.walking (.start world.directory.listing timeout world.clock))
  /-- The next page has arrived. -/
  | fetched {cycle : Cycle} {page : List Identity} {rest : Listing} (due : Option Int)
    (hpage : cycle.page = []) (hmore : cycle.listing.hasNext = true)
    (hnext : cycle.listing.next = (.ok page, rest)) :
    Turns world (.walking cycle) (.walking { cycle with listing := rest, page, due })
  /-- The next identity of the page is written down. -/
  | tookIn {cycle : Cycle} {identity : Identity} {page : List Identity} (due : Option Int)
    (hpage : cycle.page = identity :: page) :
    Turns world (.walking cycle)
      (.walking { ({ cycle with page }.takeIn world.cache identity world.now).1 with due })
  /-- The listing is over, and what is gone is settled. -/
  | closed {cycle : Cycle} (hpage : cycle.page = []) (hend : cycle.listing.hasNext = false) :
    Turns world (.walking cycle) (.marking cycle.report (cycle.gone world.cache))
  /-- The next id is marked absent. -/
  | marked (report : Report) (id : String) (gone : List String) :
    Turns world (.marking report (id :: gone))
      (.marking (Cycle.markAbsent report world.cache id world.now).1 gone)

omit [FallibleStore σ] in
theorem eq_of_goesOn_beginCycle {world : World σ} {later : CycleStage}
    (h : world.beginCycle.1 = .goesOn later) :
    ∃ timeout, later = .walking (.start world.directory.listing timeout world.clock) := by
  rw [beginCycle] at h
  split at h
  · exact absurd h (by simp [endCycle])
  · split at h
    · next opened directory hopened =>
      obtain rfl := Directory.eq_listing_of_openListing? hopened
      exact ⟨_, (CycleStep.goesOn.inj h).symm⟩
    · exact absurd h (by simp)

theorem turns_of_goesOn_fetch {world : World σ} {cycle : Cycle} {later : CycleStage}
    (hpage : cycle.page = []) (h : (world.fetch cycle).1 = .goesOn later) :
    world.Turns (.walking cycle) later := by
  -- A listing that crashes, breaks off or takes too long does not let the cycle go on.
  rw [fetch] at h
  split at h
  · next hend =>
    rw [← CycleStep.goesOn.inj h]
    exact .closed hpage (by simpa using hend)
  · next hmore =>
    split at h
    · split at h
      · exact absurd h (by simp)
      · split at h
        · exact absurd h (by simp [endCycle])
        · next page rest hnext =>
          obtain ⟨due, hdue⟩ :=
            Cycle.exists_resume_eq { cycle with listing := rest, page } world.clock
          rw [hdue] at h
          rw [← CycleStep.goesOn.inj h]
          exact .fetched due hpage (by simpa using hmore) hnext
    · exact absurd h (by simp [endCycle])

/-- **A cycle that goes on** makes one of these turns. -/
theorem turns_of_goesOn {world : World σ} {stage later : CycleStage}
    (h : (world.cycleStep stage).1 = .goesOn later) : world.Turns stage later := by
  cases stage with
  | queued =>
    obtain ⟨timeout, rfl⟩ := eq_of_goesOn_beginCycle h
    exact .began timeout
  | walking cycle =>
    rw [cycleStep, walk] at h
    split at h
    · next hpage => exact turns_of_goesOn_fetch hpage h
    · next identity page hpage =>
      obtain ⟨due, hdue⟩ := Cycle.exists_resume_eq
        ({ cycle with page }.takeIn world.cache identity world.now).1 world.clock
      rw [← CycleStep.goesOn.inj h, hdue]
      exact .tookIn due hpage
  | marking report gone =>
    cases gone with
    | nil => exact absurd h (by simp [cycleStep, mark, endCycle])
    | cons id gone =>
      rw [← CycleStep.goesOn.inj h]
      exact .marked report id gone

/-- **A cycle that ends** does so in one of these ways. -/
theorem ends_of_ended {world : World σ} {stage : CycleStage} {outcome : CycleOutcome}
    (h : (world.cycleStep stage).1 = .ended outcome) : stage.Ends outcome := by
  cases stage with
  | queued =>
    rw [cycleStep, beginCycle] at h
    split at h
    · rw [← CycleStep.ended.inj h]
      exact .cancelled
    · split at h <;> exact absurd h (by simp)
  | walking cycle =>
    rw [cycleStep, walk] at h
    split at h
    · next hpage =>
      -- Nothing is left of the page, and no other page comes.
      rw [fetch] at h
      split at h
      · exact absurd h (by simp)
      · split at h
        · split at h
          · exact absurd h (by simp)
          · split at h
            · exact .brokeOff hpage (by rw [← CycleStep.ended.inj h]; rfl)
            · exact absurd h (by simp)
        · exact .brokeOff hpage (by rw [← CycleStep.ended.inj h]; rfl)
    · exact absurd h (by simp)
  | marking report gone =>
    cases gone with
    | nil =>
      rw [← CycleStep.ended.inj h]
      exact .completed report
    | cons id gone => exact absurd h (by simp [cycleStep, mark])

omit [FallibleStore σ] in
theorem isUnderWay_eq {world : World σ} {who : Nat} {stage : CycleStage}
    (h : world.cycleStage? who = some stage) : world.isUnderWay who = stage.isUnderWay := by
  rw [isUnderWay, h, Option.any_some]

omit [FallibleStore σ] in
theorem isUnderWay_iff {world : World σ} {who : Nat} :
    world.isUnderWay who = true ↔
      ∃ stage, world.cycleStage? who = some stage ∧ stage.isUnderWay = true := by
  rw [isUnderWay, Option.any_eq_true]

/-- **How a task has come to be in the middle of a cycle**: it was so before and something else has
happened, or its cycle has made a turn. -/
theorem turns_of_isUnderWay_after {world : World σ} {event : Event σ} {who : Nat}
    {later : CycleStage} (h : (world.after event).cycleStage? who = some later)
    (hlater : later.isUnderWay = true) :
    event ≠ .goOn who ∧ world.cycleStage? who = some later ∨
      event = .goOn who ∧
        ∃ stage, world.cycleStage? who = some stage ∧ world.Turns stage later := by
  -- Only the task itself changes how far it has come.
  by_cases hevent : event = .goOn who
  · subst hevent
    refine .inr ⟨rfl, ?_⟩
    cases hstage : world.cycleStage? who with
    | none =>
      -- A task that ran no cycle cannot find itself in the middle of one.
      have hnone : (world.step who).isUnderWay who = false := isUnderWay_step_of_none hstage
      rw [isUnderWay, show (world.step who).cycleStage? who = some later from h, Option.any_some,
        hlater] at hnone
      exact absurd hnone (by decide)
    | some stage =>
      rw [after, cycleStage?_step_of_some hstage] at h
      refine ⟨stage, rfl, turns_of_goesOn ?_⟩
      split at h
      · next hgoesOn => rw [hgoesOn, Option.some.inj h]
      · exact absurd h (by simp)
  · refine .inl ⟨hevent, ?_⟩
    rwa [cycleStage?_after_of_ne world hevent] at h

/-! ### What a cycle writes -/

omit [FallibleStore σ] in
theorem write?_of_cycleStage? {world : World σ} {who : Nat} {stage : CycleStage}
    (h : world.cycleStage? who = some stage) :
    world.write? (.goOn who) = world.cycleWrite? stage := by
  obtain ⟨task, htask, hstage⟩ := Option.bind_eq_some_iff.1 h
  rw [write?, htask]
  rw [Task.cycleStage?.eq_def] at hstage
  split at hstage
  · rw [← Option.some.inj hstage]
    rfl
  · rw [← Option.some.inj hstage]
    rfl
  · exact absurd hstage (by simp)

omit [FallibleStore σ] in
/-- A cycle that ends writes nothing. -/
theorem cycleWrite?_of_ends {stage : CycleStage} {outcome : CycleOutcome}
    (h : stage.Ends outcome) (world : World σ) : world.cycleWrite? stage = none := by
  cases h with
  | cancelled => rfl
  | brokeOff hpage _ => rw [cycleWrite?, hpage]; rfl
  | completed report => rfl

end Store

end World

end DeviceScope
