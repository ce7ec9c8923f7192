import DeviceScope.Proofs.Service.Moves
import DeviceScope.Proofs.Service.Stages

/-!
# The supervisor and its loops

Tasks come behind all others (`World.arrival?`), and each changes only when it goes on, so a task
that is there after an event was there before, or it has just come
(`World.supervisor_after_cases`, `World.loop_after_cases`, `World.call_after_cases`).

A service that is started once has one supervisor, and every loop that has not ended is the one that
the supervisor looks after (`World.Supervised`): it starts another one only when that one has ended,
and comes to its own end only after it. So there is never more than one
(`World.Supervised.eq_of_isLooping`).
-/

namespace DeviceScope

variable {σ : Type}

def Task.isSupervisor : Task → Bool
  | .supervisor _ => true
  | _ => false

/-- Whether the task is a loop that has not ended. -/
def Task.isLooping : Task → Bool
  | .loop .done => false
  | .loop _ => true
  | _ => false

/-- The loop that the supervisor looks after. -/
def SupervisorStage.loop? : SupervisorStage → Option Nat
  | .watching _ loop | .joining loop => loop
  | .begun | .done => none

namespace World

/-- Whether the service has been started. -/
def isStarted (world : World σ) : Bool := world.tasks.any Task.isSupervisor

/-- Whether the task is a loop that has not ended. -/
def isLooping (world : World σ) (who : Nat) : Bool := world.tasks[who]?.any Task.isLooping

/-- **The service is started once**, at any time; everything else may happen as it likes. -/
def startsOnce (world : World σ) (event : Event σ) : Prop :=
  event = .startService → world.isStarted = false

/-- **The task that an event puts to the others**, if any. -/
def arrival? (world : World σ) : Event σ → Option Task
  | .goOn who =>
    match world.tasks[who]? with
    | some (.supervisor (.watching _ loop)) =>
      if !world.service.shuttingDown && loop.all world.isDone then some (.loop .top) else none
    | _ => none
  | .call call => some (.call (.begun call))
  | .startService => some (.supervisor .begun)
  | _ => none

theorem isStarted_of_task {world : World σ} {who : Nat} {stage : SupervisorStage}
    (h : world.tasks[who]? = some (.supervisor stage)) : world.isStarted = true :=
  List.any_eq_true.2 ⟨_, List.mem_of_getElem? h, rfl⟩

theorem exists_supervisor_of_isStarted {world : World σ} (h : world.isStarted = true) :
    ∃ (who : Nat) (stage : SupervisorStage), world.tasks[who]? = some (.supervisor stage) := by
  obtain ⟨task, hmem, hsupervisor⟩ := List.any_eq_true.1 h
  obtain ⟨who, htask⟩ := List.getElem?_of_mem hmem
  cases task with
  | supervisor stage => exact ⟨who, stage, htask⟩
  | call stage => exact absurd hsupervisor (by simp [Task.isSupervisor])
  | loop stage => exact absurd hsupervisor (by simp [Task.isSupervisor])

theorem isLooping_of_task {world : World σ} {who : Nat} {task : Task}
    (h : world.tasks[who]? = some task) : world.isLooping who = task.isLooping := by
  rw [isLooping, h, Option.any_some]

theorem isLooping_iff {world : World σ} {who : Nat} :
    world.isLooping who = true ↔
      ∃ stage, world.tasks[who]? = some (.loop stage) ∧ stage ≠ .done := by
  unfold isLooping
  rw [Option.any_eq_true]
  constructor
  · rintro ⟨task, htask, hlooping⟩
    rw [Task.isLooping.eq_def] at hlooping
    split at hlooping
    · exact absurd hlooping (by decide)
    · next stage hnot => exact ⟨stage, htask, fun h => hnot (by rw [h])⟩
    · exact absurd hlooping (by decide)
  · rintro ⟨stage, htask, hnot⟩
    refine ⟨_, htask, ?_⟩
    cases stage with
    | done => exact absurd rfl hnot
    | _ => rfl

/-- A loop that is not one that has not ended has ended. -/
theorem eq_done_of_isLooping {world : World σ} {who : Nat} {stage : LoopStage}
    (htask : world.tasks[who]? = some (.loop stage)) (hnot : world.isLooping who = false) :
    stage = .done := by
  rw [isLooping_of_task htask] at hnot
  cases stage with
  | done => rfl
  | _ => exact absurd hnot (by simp [Task.isLooping])

/-! ### Where tasks come from -/

theorem arrival?_eq_supervisor {world : World σ} {event : Event σ} {stage : SupervisorStage}
    (h : world.arrival? event = some (.supervisor stage)) :
    event = .startService ∧ stage = .begun := by
  unfold arrival? at h
  split at h
  · split at h
    · split at h <;> exact absurd h (by simp)
    · exact absurd h (by simp)
  · exact absurd h (by simp)
  · exact ⟨rfl, (Task.supervisor.inj (Option.some.inj h)).symm⟩
  · exact absurd h (by simp)

theorem arrival?_eq_call {world : World σ} {event : Event σ} {stage : CallStage}
    (h : world.arrival? event = some (.call stage)) :
    ∃ call, event = .call call ∧ stage = .begun call := by
  unfold arrival? at h
  split at h
  · split at h
    · split at h <;> exact absurd h (by simp)
    · exact absurd h (by simp)
  · exact ⟨_, rfl, (Task.call.inj (Option.some.inj h)).symm⟩
  · exact absurd h (by simp)
  · exact absurd h (by simp)

/-- **A supervisor starts a loop** when the one that it has looked after has ended. -/
structure Spawns (world : World σ) (event : Event σ) (who : Nat) (due : Int)
    (loop : Option Nat) : Prop where
  event_eq : event = .goOn who
  task : world.tasks[who]? = some (.supervisor (.watching due loop))
  running : world.service.shuttingDown = false
  ended : loop.all world.isDone = true

/-- It is the supervisor that goes on. -/
theorem Spawns.task_of_goOn {world : World σ} {who supervisor : Nat} {due : Int}
    {loop : Option Nat} (h : world.Spawns (.goOn who) supervisor due loop) :
    world.tasks[who]? = some (.supervisor (.watching due loop)) := by
  rw [Event.goOn.inj h.event_eq]
  exact h.task

theorem arrival?_eq_loop {world : World σ} {event : Event σ} {stage : LoopStage}
    (h : world.arrival? event = some (.loop stage)) :
    stage = .top ∧ ∃ who due loop, world.Spawns event who due loop := by
  unfold arrival? at h
  split at h
  · next who =>
    split at h
    · next due loop htask =>
      split at h
      · next hcondition =>
        rw [Bool.and_eq_true, Bool.not_eq_true'] at hcondition
        exact ⟨(Task.loop.inj (Option.some.inj h)).symm, who, due, loop, rfl, htask,
          hcondition.1, hcondition.2⟩
      · exact absurd h (by simp)
    · exact absurd h (by simp)
  · exact absurd h (by simp)
  · exact absurd h (by simp)
  · exact absurd h (by simp)

section Store

variable [FallibleStore σ]

/-- A loop that goes on comes to its next stage. -/
theorem task_step_of_loop {world : World σ} {who : Nat} {stage : LoopStage}
    (htask : world.tasks[who]? = some (.loop stage)) :
    (world.step who).tasks[who]? = some (.loop (world.loopStep who stage).1) := by
  rw [task_step, htask]
  rfl

/-- A supervisor that goes on comes to its next stage. -/
theorem task_step_of_supervisor {world : World σ} {who : Nat} {stage : SupervisorStage}
    (htask : world.tasks[who]? = some (.supervisor stage)) :
    (world.step who).tasks[who]? = some (.supervisor (world.supervisorStep stage).1) := by
  rw [task_step, htask]
  rfl

/-- What a task that goes on leaves behind has one more task at most. -/
theorem tasks_nextWorld {world : World σ} {who : Nat} {task : Task}
    (htask : world.tasks[who]? = some task) :
    (world.nextWorld who task).tasks =
      world.tasks ++ (world.arrival? (.goOn who)).toList := by
  unfold arrival?
  dsimp only
  rw [htask]
  cases task with
  | call stage => exact (tasks_callStep world who stage).trans (List.append_nil _).symm
  | loop stage => exact (tasks_loopStep world who stage).trans (List.append_nil _).symm
  | supervisor stage =>
    unfold nextWorld
    dsimp only
    have hmoves := world.supervisorMoves stage
    generalize world.supervisorStep stage = result at hmoves
    cases hmoves with
    | started hrunning hdone => dsimp only; rw [hrunning, hdone]; rfl
    | watched hrunning halive =>
      dsimp only
      rw [hrunning, halive]
      exact (List.append_nil _).symm
    | leftWatching hshut =>
      dsimp only
      rw [hshut]
      exact (List.append_nil _).symm
    | _ => exact (List.append_nil _).symm

/-- **What becomes of a task that does not go on**: it stays as it is. -/
theorem getElem?_tasks_after_of_ne (world : World σ) {event : Event σ} {who : Nat}
    (h : event ≠ .goOn who) :
    (world.after event).tasks[who]? = (world.tasks ++ (world.arrival? event).toList)[who]? := by
  cases event with
  | goOn other =>
    cases htask : world.tasks[other]? with
    | none =>
      unfold after arrival?
      dsimp only
      rw [step_of_none htask, htask]
      exact congrArg (·[who]?) (List.append_nil _).symm
    | some task =>
      unfold after
      dsimp only
      rw [step_eq htask, ← tasks_nextWorld htask]
      exact List.getElem?_set_ne fun heq => h (by rw [heq])
  | call call => rfl
  | startService => rfl
  | _ => exact congrArg (·[who]?) (List.append_nil _).symm

omit [FallibleStore σ] in
theorem getElem?_append_toList {α : Type} {items : List α} {last? : Option α} {index : Nat}
    {item : α} (h : (items ++ last?.toList)[index]? = some item) :
    items[index]? = some item ∨ index = items.length ∧ last? = some item := by
  by_cases hlt : index < items.length
  · rw [List.getElem?_append_left hlt] at h
    exact .inl h
  · rw [List.getElem?_append_right (Nat.not_lt.1 hlt)] at h
    cases last? with
    | none => exact absurd h (by simp)
    | some last =>
      -- There is one more place, the first behind the items.
      have hindex : index - items.length = 0 := by
        have hbound := (List.getElem?_eq_some_iff.1 h).1
        rw [Option.toList_some, List.length_singleton] at hbound
        omega
      rw [hindex] at h
      exact .inr ⟨by omega, h⟩

/-- **A task that is there** has gone on, or was there before and has not gone on, or has just
come. -/
theorem task_after_cases {world : World σ} {event : Event σ} {who : Nat} {later : Task}
    (h : (world.after event).tasks[who]? = some later) :
    event = .goOn who ∧ (∃ task, world.tasks[who]? = some task ∧ world.nextTask who task = later) ∨
      event ≠ .goOn who ∧ world.tasks[who]? = some later ∨
      who = world.tasks.length ∧ world.arrival? event = some later := by
  by_cases hevent : event = .goOn who
  · subst hevent
    have hnext : (world.step who).tasks[who]? = some later := h
    rw [task_step] at hnext
    exact .inl ⟨rfl, Option.map_eq_some_iff.1 hnext⟩
  · rw [getElem?_tasks_after_of_ne world hevent] at h
    exact .inr ((getElem?_append_toList h).imp_left fun hbefore => ⟨hevent, hbefore⟩)

/-- **A supervisor** was there before, or the service has just been started. -/
theorem supervisor_after_cases {world : World σ} {event : Event σ} {who : Nat}
    {later : SupervisorStage} (h : (world.after event).tasks[who]? = some (.supervisor later)) :
    event = .goOn who ∧ (∃ stage, world.tasks[who]? = some (.supervisor stage) ∧
        later = (world.supervisorStep stage).1) ∨
      event ≠ .goOn who ∧ world.tasks[who]? = some (.supervisor later) ∨
      event = .startService ∧ who = world.tasks.length ∧ later = .begun := by
  rcases task_after_cases h with ⟨hevent, task, htask, hlater⟩ | hbefore | ⟨hwho, hnew⟩
  · cases task with
    | supervisor stage => exact .inl ⟨hevent, stage, htask, (Task.supervisor.inj hlater).symm⟩
    | call stage => exact absurd hlater (by simp [nextTask])
    | loop stage => exact absurd hlater (by simp [nextTask])
  · exact .inr (.inl hbefore)
  · obtain ⟨hstart, hbegun⟩ := arrival?_eq_supervisor hnew
    exact .inr (.inr ⟨hstart, hwho, hbegun⟩)

/-- **A loop** was there before, or a supervisor has just started it. -/
theorem loop_after_cases {world : World σ} {event : Event σ} {who : Nat} {later : LoopStage}
    (h : (world.after event).tasks[who]? = some (.loop later)) :
    event = .goOn who ∧ (∃ stage, world.tasks[who]? = some (.loop stage) ∧
        later = (world.loopStep who stage).1) ∨
      event ≠ .goOn who ∧ world.tasks[who]? = some (.loop later) ∨
      (∃ supervisor due loop, world.Spawns event supervisor due loop) ∧
        who = world.tasks.length ∧ later = .top := by
  rcases task_after_cases h with ⟨hevent, task, htask, hlater⟩ | hbefore | ⟨hwho, hnew⟩
  · cases task with
    | loop stage => exact .inl ⟨hevent, stage, htask, (Task.loop.inj hlater).symm⟩
    | call stage => exact absurd hlater (by simp [nextTask])
    | supervisor stage => exact absurd hlater (by simp [nextTask])
  · exact .inr (.inl hbefore)
  · obtain ⟨htop, hspawns⟩ := arrival?_eq_loop hnew
    exact .inr (.inr ⟨hspawns, hwho, htop⟩)

/-- **A call** was there before, or it has just come in. -/
theorem call_after_cases {world : World σ} {event : Event σ} {who : Nat} {later : CallStage}
    (h : (world.after event).tasks[who]? = some (.call later)) :
    event = .goOn who ∧ (∃ stage, world.tasks[who]? = some (.call stage) ∧
        later = (world.callStep who stage).1) ∨
      event ≠ .goOn who ∧ world.tasks[who]? = some (.call later) ∨
      (∃ call, event = .call call ∧ later = .begun call) ∧ who = world.tasks.length := by
  rcases task_after_cases h with ⟨hevent, task, htask, hlater⟩ | hbefore | ⟨hwho, hnew⟩
  · cases task with
    | call stage => exact .inl ⟨hevent, stage, htask, (Task.call.inj hlater).symm⟩
    | loop stage => exact absurd hlater (by simp [nextTask])
    | supervisor stage => exact absurd hlater (by simp [nextTask])
  · exact .inr (.inl hbefore)
  · exact .inr (.inr ⟨arrival?_eq_call hnew, hwho⟩)

/-- The loop that a supervisor starts comes behind all others. -/
theorem Spawns.task_new {world : World σ} {event : Event σ} {supervisor : Nat} {due : Int}
    {loop : Option Nat} (h : world.Spawns event supervisor due loop) :
    (world.after event).tasks[world.tasks.length]? = some (.loop .top) := by
  have hsupervisor : event ≠ .goOn world.tasks.length := by
    rw [h.event_eq]
    intro heq
    have hlt := (List.getElem?_eq_some_iff.1 h.task).1
    rw [Event.goOn.inj heq] at hlt
    exact absurd hlt (Nat.lt_irrefl _)
  have harrival : world.arrival? event = some (.loop .top) := by
    unfold arrival?
    rw [h.event_eq]
    dsimp only
    rw [h.task]
    dsimp only
    rw [h.running, h.ended]
    rfl
  rw [getElem?_tasks_after_of_ne world hsupervisor, harrival, Option.toList_some,
    List.getElem?_concat_length]

/-- A supervisor that starts a loop leaves the service alone. -/
theorem Spawns.service_eq {world : World σ} {event : Event σ} {supervisor : Nat} {due : Int}
    {loop : Option Nat} (h : world.Spawns event supervisor due loop) :
    (world.after event).service = world.service := by
  rw [h.event_eq]
  show (world.step supervisor).service = world.service
  rw [service_step h.task, nextWorld, supervisorStep, h.running, if_neg (by decide)]
  dsimp only
  split <;> rfl

/-- A supervisor stays a supervisor. -/
theorem exists_supervisor_after {world : World σ} {event : Event σ} {who : Nat}
    {stage : SupervisorStage} (htask : world.tasks[who]? = some (.supervisor stage)) :
    ∃ later : SupervisorStage, (world.after event).tasks[who]? = some (.supervisor later) := by
  by_cases hevent : event = .goOn who
  · subst hevent
    exact ⟨_, task_step_of_supervisor htask⟩
  · exact ⟨stage, task_after_of_ne hevent htask⟩

/-- A loop stays a loop. -/
theorem exists_loop_after {world : World σ} {event : Event σ} {who : Nat} {stage : LoopStage}
    (htask : world.tasks[who]? = some (.loop stage)) :
    ∃ later : LoopStage, (world.after event).tasks[who]? = some (.loop later) := by
  by_cases hevent : event = .goOn who
  · subst hevent
    exact ⟨_, task_step_of_loop htask⟩
  · exact ⟨stage, task_after_of_ne hevent htask⟩

/-- Once the service has been started, it has been started. -/
theorem isStarted_after {world : World σ} {event : Event σ} (h : world.isStarted = true) :
    (world.after event).isStarted = true := by
  obtain ⟨who, stage, htask⟩ := exists_supervisor_of_isStarted h
  obtain ⟨later, hlater⟩ := exists_supervisor_after htask
  exact isStarted_of_task hlater

/-! ### One supervisor, one loop -/

/-- **The loops are looked after.** -/
structure Supervised (world : World σ) : Prop where
  /-- There is one supervisor at most. -/
  unique : ∀ {who other : Nat} {stage otherStage : SupervisorStage},
    world.tasks[who]? = some (.supervisor stage) →
    world.tasks[other]? = some (.supervisor otherStage) → who = other
  /-- Every loop that has not ended is the one that a supervisor looks after. -/
  watched : ∀ who, world.isLooping who = true → ∃ (supervisor : Nat) (stage : SupervisorStage),
    world.tasks[supervisor]? = some (.supervisor stage) ∧ stage.loop? = some who
  /-- What a supervisor looks after is a loop. -/
  isLoop : ∀ {who loop : Nat} {stage : SupervisorStage},
    world.tasks[who]? = some (.supervisor stage) → stage.loop? = some loop →
    ∃ later : LoopStage, world.tasks[loop]? = some (.loop later)

omit [FallibleStore σ] in
theorem supervised_start (clock : Int) (directory : Directory) (cache : Cache σ)
    (config : Config) : (start clock directory cache config).Supervised where
  unique {who _ _ _} hwho _ := absurd hwho (by simp [start])
  watched who hlooping := absurd hlooping (by simp [isLooping, start])
  isLoop hwho _ := absurd hwho (by simp [start])

namespace Supervised

variable {world : World σ} {event : Event σ}

omit [FallibleStore σ] in
/-- **At most one loop has not ended.** -/
theorem eq_of_isLooping (h : world.Supervised) {who other : Nat}
    (hwho : world.isLooping who = true) (hother : world.isLooping other = true) : who = other := by
  obtain ⟨supervisor, stage, htask, hloop⟩ := h.watched who hwho
  obtain ⟨otherSupervisor, otherStage, hotherTask, hotherLoop⟩ := h.watched other hother
  -- Both are looked after by the same supervisor, at the same moment.
  obtain rfl := h.unique htask hotherTask
  rw [htask] at hotherTask
  obtain rfl := Task.supervisor.inj (Option.some.inj hotherTask)
  exact Option.some.inj (hloop.symm.trans hotherLoop)

omit [FallibleStore σ] in
/-- **Where the loop that the supervisor looks after has ended**, no other is left. -/
theorem isLooping_eq_false (h : world.Supervised) {supervisor : Nat} {stage : SupervisorStage}
    (htask : world.tasks[supervisor]? = some (.supervisor stage))
    (hended : stage.loop?.all world.isDone = true) (who : Nat) : world.isLooping who = false := by
  rw [Bool.eq_false_iff]
  intro hlooping
  obtain ⟨other, otherStage, hother, hloop⟩ := h.watched who hlooping
  obtain rfl := h.unique htask hother
  rw [htask] at hother
  obtain rfl := Task.supervisor.inj (Option.some.inj hother)
  rw [hloop] at hended
  have hdone : (world.tasks[who]?.all Task.isDone) = true := hended
  obtain ⟨later, hlater, hnot⟩ := isLooping_iff.1 hlooping
  rw [hlater] at hdone
  cases later with
  | done => exact hnot rfl
  | _ => exact absurd hdone (by simp [Task.isDone])

omit [FallibleStore σ] in
/-- Where the service has not been started there is no loop. -/
theorem isStarted_of_isLooping (h : world.Supervised) {who : Nat}
    (hlooping : world.isLooping who = true) : world.isStarted = true := by
  obtain ⟨supervisor, stage, htask, -⟩ := h.watched who hlooping
  exact isStarted_of_task htask

theorem unique_after (h : world.Supervised) (hallowed : startsOnce world event)
    {who other : Nat} {stage otherStage : SupervisorStage}
    (hwho : (world.after event).tasks[who]? = some (.supervisor stage))
    (hother : (world.after event).tasks[other]? = some (.supervisor otherStage)) :
    who = other := by
  have hcases : ∀ {who stage}, (world.after event).tasks[who]? = some (.supervisor stage) →
      (∃ before, world.tasks[who]? = some (.supervisor before)) ∨
        world.isStarted = false ∧ who = world.tasks.length := by
    intro who stage hwho
    rcases supervisor_after_cases hwho with
      ⟨-, before, hbefore, -⟩ | ⟨-, hbefore⟩ | ⟨hstart, hlength, -⟩
    · exact .inl ⟨before, hbefore⟩
    · exact .inl ⟨_, hbefore⟩
    · exact .inr ⟨hallowed hstart, hlength⟩
  -- A supervisor that was there before and one that has just come exclude each other.
  rcases hcases hwho with ⟨before, hbefore⟩ | ⟨hnot, hlength⟩
  · rcases hcases hother with ⟨otherBefore, hotherBefore⟩ | ⟨hnot, -⟩
    · exact h.unique hbefore hotherBefore
    · exact absurd (isStarted_of_task hbefore) (by simp [hnot])
  · rcases hcases hother with ⟨otherBefore, hotherBefore⟩ | ⟨-, hotherLength⟩
    · exact absurd (isStarted_of_task hotherBefore) (by simp [hnot])
    · rw [hlength, hotherLength]

/-- A loop that has not ended was there before and had not ended, or it was just started. -/
theorem isLooping_after_cases {who : Nat} (h : (world.after event).isLooping who = true) :
    world.isLooping who = true ∨
      (∃ supervisor due loop, world.Spawns event supervisor due loop) ∧
        who = world.tasks.length := by
  obtain ⟨later, hlater, hnot⟩ := isLooping_iff.1 h
  rcases loop_after_cases hlater with ⟨-, stage, htask, rfl⟩ | ⟨-, htask⟩ | ⟨hspawns, hwho, -⟩
  · refine .inl (isLooping_iff.2 ⟨stage, htask, ?_⟩)
    -- A loop that has ended does not go on.
    rintro rfl
    exact hnot rfl
  · exact .inl (isLooping_iff.2 ⟨later, htask, hnot⟩)
  · exact .inr ⟨hspawns, hwho⟩

omit [FallibleStore σ] in
/-- The supervisor goes on looking after a loop that has not ended. -/
theorem loop?_supervisorStep {supervisor who : Nat} {stage : SupervisorStage}
    (htask : world.tasks[supervisor]? = some (.supervisor stage))
    (hready : world.isReady supervisor = true) (hloop : stage.loop? = some who)
    (hlooping : world.isLooping who = true) :
    (world.supervisorStep stage).1.loop? = some who := by
  have halive : (some who).all world.isDone = false := by
    obtain ⟨later, hlater, hnot⟩ := isLooping_iff.1 hlooping
    show (world.tasks[who]?.all Task.isDone) = false
    rw [hlater]
    cases later with
    | done => exact absurd rfl hnot
    | _ => rfl
  have hmoves := world.supervisorMoves stage
  generalize world.supervisorStep stage = result at hmoves
  cases hmoves with
  | began _ => exact absurd hloop (by simp [SupervisorStage.loop?])
  | leftBegun _ => exact absurd hloop (by simp [SupervisorStage.loop?])
  | started _ hdone =>
    obtain rfl : _ = some who := hloop
    exact absurd (halive.symm.trans hdone) (by decide)
  | watched _ _ => exact hloop
  | leftWatching _ => exact hloop
  | stopped loop =>
    -- The supervisor waits for the loop to end.
    obtain rfl : loop = some who := hloop
    rw [isReady_of_task htask] at hready
    exact absurd (halive.symm.trans hready) (by decide)
  | done => exact absurd hloop (by simp [SupervisorStage.loop?])

theorem watched_after (h : world.Supervised) (hadmits : world.Admits event) {who : Nat}
    (hlooping : (world.after event).isLooping who = true) :
    ∃ (supervisor : Nat) (stage : SupervisorStage),
      (world.after event).tasks[supervisor]? = some (.supervisor stage) ∧
        stage.loop? = some who := by
  rcases isLooping_after_cases hlooping with
    hbefore | ⟨⟨supervisor, due, loop, rfl, htask, hrunning, hended⟩, hwho⟩
  · obtain ⟨supervisor, stage, htask, hloop⟩ := h.watched who hbefore
    by_cases hevent : event = .goOn supervisor
    · subst hevent
      exact ⟨supervisor, _, task_step_of_supervisor htask,
        loop?_supervisorStep htask hadmits hloop hbefore⟩
    · exact ⟨supervisor, stage, task_after_of_ne hevent htask, hloop⟩
  · -- The loop is the one that the supervisor has just started.
    refine ⟨supervisor, _, task_step_of_supervisor htask, ?_⟩
    rw [supervisorStep, hrunning, if_neg (by decide), hwho]
    dsimp only
    rw [if_pos hended]
    rfl

theorem isLoop_after (h : world.Supervised) {who loop : Nat} {later : SupervisorStage}
    (htask : (world.after event).tasks[who]? = some (.supervisor later))
    (hloop : later.loop? = some loop) :
    ∃ later : LoopStage, (world.after event).tasks[loop]? = some (.loop later) := by
  rcases supervisor_after_cases htask with
    ⟨rfl, stage, hbefore, rfl⟩ | ⟨-, hbefore⟩ | ⟨-, -, rfl⟩
  · have hmoves := world.supervisorMoves stage
    generalize hresult : world.supervisorStep stage = result at hmoves hloop
    cases hmoves with
    | @started due looked hrunning hdone =>
      obtain rfl := Option.some.inj hloop
      exact ⟨.top, Spawns.task_new ⟨rfl, hbefore, hrunning, hdone⟩⟩
    | watched _ _ =>
      obtain ⟨stage, hstage⟩ := h.isLoop hbefore hloop
      exact exists_loop_after hstage
    | leftWatching _ =>
      obtain ⟨stage, hstage⟩ := h.isLoop hbefore hloop
      exact exists_loop_after hstage
    | _ => exact absurd hloop (by simp [SupervisorStage.loop?])
  · obtain ⟨stage, hstage⟩ := h.isLoop hbefore hloop
    exact exists_loop_after hstage
  · exact absurd hloop (by simp [SupervisorStage.loop?])

/-- **The loops are looked after** whatever happens, if the service is started once. -/
theorem after (h : world.Supervised) (hallowed : startsOnce world event)
    (hadmits : world.Admits event) : (world.after event).Supervised where
  unique hwho hother := h.unique_after hallowed hwho hother
  watched _ hlooping := h.watched_after hadmits hlooping
  isLoop htask hloop := h.isLoop_after htask hloop

end Supervised

theorem Course.supervised {allowed : World σ → Event σ → Prop} {start world : World σ}
    {log : List Attempt} (h : Course allowed start log world) (hstart : start.Supervised)
    (hallowed : ∀ world event, allowed world event → startsOnce world event) :
    world.Supervised :=
  h.invariant hstart fun _ _ hevent hadmits hworld => hworld.after (hallowed _ _ hevent) hadmits

end Store

end World

end DeviceScope
