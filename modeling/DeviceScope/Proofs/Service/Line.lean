import DeviceScope.Proofs.Service.Moves
import DeviceScope.Proofs.Service.Stages

/-!
# The line for the turn

Those that want to run a cycle stand in a line (`Service.line`): the first has the turn and the
others wait for it. A task that runs no cycle changes the line only to go to its end
(`World.StepsAside`), and a cycle that goes on leaves it as it is, or leaves it
(`World.LineMoves`). So the line is in order whatever happens (`World.Orderly`,
`World.Course.orderly`), and nobody but its first is in the middle of a cycle
(`World.Orderly.turn_eq`).
-/

namespace DeviceScope

variable {σ : Type}

namespace Service

/-- Those that want to run a cycle, in the order in which they will. -/
def line (service : Service) : List Nat := service.turn.toList ++ service.queue

/-- Whoever wants to run a cycle goes to the end of the line. -/
theorem line_claimTurn {service : Service} (hfree : service.turn = none → service.queue = [])
    (who : Nat) : (service.claimTurn who).line = service.line ++ [who] := by
  unfold claimTurn line
  split
  · next hturn => rw [hturn, hfree hturn]; rfl
  · next other hturn => rw [hturn]; rfl

end Service

namespace World

variable [FallibleStore σ]

/-! ### Tasks that run no cycle -/

/-- **The task runs no cycle**: it may go to the end of the line (which is the stage that it comes
to then), and leaves everything about cycles as it is otherwise. -/
structure StepsAside (world later : World σ) (who : Nat) (stage : Option CycleStage) : Prop where
  shuttingDown_eq : later.service.shuttingDown = world.service.shuttingDown
  stats_eq : later.service.stats = world.service.stats
  listings_eq : later.directory.listings = world.directory.listings
  crashesNext_eq : later.directory.crashesNext = world.directory.crashesNext
  line : stage = none ∧ later.service.turn = world.service.turn ∧
      later.service.queue = world.service.queue ∨
    stage = some .queued ∧ later.service = world.service.claimTurn who

theorem stepsAside_callStep (world : World σ) (who : Nat) {stage : CallStage}
    (hnone : Task.cycleStage? (.call stage) = none) :
    StepsAside world (world.callStep who stage).2 who
      (Task.cycleStage? (.call (world.callStep who stage).1)) := by
  have hturns := world.callTurns who stage
  generalize world.callStep who stage = result at hturns
  cases hturns with
  | replied _ reply => exact ⟨rfl, rfl, rfl, rfl, .inl ⟨rfl, rfl, rfl⟩⟩
  | asked _ id purpose => exact ⟨rfl, rfl, rfl, rfl, .inl ⟨rfl, rfl, rfl⟩⟩
  | heard id purpose due =>
    -- The directory counts the look-up, and no listing.
    have hlistings : (world.directory.lookup (.parse id)).2.listings =
        world.directory.listings ∧
        (world.directory.lookup (.parse id)).2.crashesNext = world.directory.crashesNext := by
      unfold Directory.lookup
      dsimp only
      split <;> exact ⟨rfl, rfl⟩
    exact ⟨rfl, rfl, hlistings.1, hlistings.2, .inl ⟨rfl, rfl, rfl⟩⟩
  | concluded id purpose answer => exact ⟨rfl, rfl, rfl, rfl, .inl ⟨rfl, rfl, rfl⟩⟩
  | wrote _ reply => exact ⟨rfl, rfl, rfl, rfl, .inl ⟨rfl, rfl, rfl⟩⟩
  | claimed =>
    exact ⟨Service.shuttingDown_claimTurn _ _, Service.stats_claimTurn _ _, rfl, rfl,
      .inr ⟨rfl, rfl⟩⟩
  | wentOn h => exact absurd hnone (by simp [Task.cycleStage?])
  | ended h => exact absurd hnone (by simp [Task.cycleStage?])
  | crashed h => exact absurd hnone (by simp [Task.cycleStage?])

theorem stepsAside_loopStep (world : World σ) (who : Nat) {stage : LoopStage}
    (hnone : Task.cycleStage? (.loop stage) = none) :
    StepsAside world (world.loopStep who stage).2 who
      (Task.cycleStage? (.loop (world.loopStep who stage).1)) := by
  have hmoves := world.loopMoves who stage
  generalize world.loopStep who stage = result at hmoves
  cases hmoves with
  | claimed _ =>
    exact ⟨Service.shuttingDown_claimTurn _ _, Service.stats_claimTurn _ _, rfl, rfl,
      .inr ⟨rfl, rfl⟩⟩
  | cycling _ => exact absurd hnone (by simp [Task.cycleStage?])
  | resumed _ _ =>
    exact ⟨Service.shuttingDown_publish _ _, Service.stats_publish _ _, rfl, rfl,
      .inl ⟨rfl, Service.turn_publish _ _, Service.queue_publish _ _⟩⟩
  | parked _ _ =>
    exact ⟨Service.shuttingDown_publish _ _, Service.stats_publish _ _, rfl, rfl,
      .inl ⟨rfl, Service.turn_publish _ _, Service.queue_publish _ _⟩⟩
  | _ => exact ⟨rfl, rfl, rfl, rfl, .inl ⟨rfl, rfl, rfl⟩⟩

omit [FallibleStore σ] in
theorem stepsAside_supervisorStep (world : World σ) (who : Nat) (stage : SupervisorStage) :
    StepsAside world (world.supervisorStep stage).2 who
      (Task.cycleStage? (.supervisor (world.supervisorStep stage).1)) := by
  have hmoves := world.supervisorMoves stage
  generalize world.supervisorStep stage = result at hmoves
  cases hmoves <;> exact ⟨rfl, rfl, rfl, rfl, .inl ⟨rfl, rfl, rfl⟩⟩

/-- **A task that runs no cycle** steps aside when it goes on. -/
theorem stepsAside_step {world : World σ} {who : Nat} (hnone : world.cycleStage? who = none) :
    StepsAside world (world.step who) who ((world.step who).cycleStage? who) := by
  have hlater : (world.step who).cycleStage? who =
      (world.tasks[who]?.map (world.nextTask who)).bind Task.cycleStage? := by
    rw [cycleStage?, task_step]
  rw [hlater]
  cases htask : world.tasks[who]? with
  | none =>
    rw [step_of_none htask]
    exact ⟨rfl, rfl, rfl, rfl, .inl ⟨rfl, rfl, rfl⟩⟩
  | some task =>
    have haside : StepsAside world (world.nextWorld who task) who
        (world.nextTask who task).cycleStage? := by
      rw [cycleStage?_of_task htask] at hnone
      cases task with
      | call stage => exact stepsAside_callStep world who hnone
      | loop stage => exact stepsAside_loopStep world who hnone
      | supervisor stage => exact stepsAside_supervisorStep world who stage
    -- Setting the task itself changes nothing that is asked about.
    rw [step_eq htask]
    exact ⟨haside.shuttingDown_eq, haside.stats_eq, haside.listings_eq, haside.crashesNext_eq,
      haside.line⟩

/-! ### What an event does to the line -/

/-- **What an event does to the line.** -/
inductive LineMoves (world : World σ) (event : Event σ) : Prop where
  /-- Nobody comes, nobody goes, and no cycle goes on. -/
  | same (hturn : (world.after event).service.turn = world.service.turn)
    (hqueue : (world.after event).service.queue = world.service.queue)
    (hstages : ∀ who, (world.after event).cycleStage? who = world.cycleStage? who)
  /-- A task goes to the end of the line. -/
  | claimed {who : Nat} (hevent : event = .goOn who) (hnone : world.cycleStage? who = none)
    (hservice : (world.after event).service = world.service.claimTurn who)
    (hlater : (world.after event).cycleStage? who = some .queued)
  /-- A cycle goes on. -/
  | wentOn {who : Nat} {stage later : CycleStage} (hevent : event = .goOn who)
    (hstage : world.cycleStage? who = some stage)
    (hstep : (world.cycleStep stage).1 = .goesOn later)
    (hturn : (world.after event).service.turn = world.service.turn)
    (hqueue : (world.after event).service.queue = world.service.queue)
    (hlater : (world.after event).cycleStage? who = some later)
  /-- A cycle is over, and the turn goes to the one that has waited longest. -/
  | left {who : Nat} {stage : CycleStage} (hevent : event = .goOn who)
    (hstage : world.cycleStage? who = some stage)
    (hstep : ∀ later, (world.cycleStep stage).1 ≠ .goesOn later)
    (hturn : (world.after event).service.turn = world.service.queue.head?)
    (hqueue : (world.after event).service.queue = world.service.queue.tail)
    (hlater : (world.after event).cycleStage? who = none)

/-- **A cycle keeps the turn as long as it goes on**, and passes it on when it is over. -/
theorem turn_cycleStep (world : World σ) (stage : CycleStage) :
    (∃ later, (world.cycleStep stage).1 = .goesOn later ∧
        (world.cycleStep stage).2.service.turn = world.service.turn ∧
        (world.cycleStep stage).2.service.queue = world.service.queue) ∨
      (∀ later, (world.cycleStep stage).1 ≠ .goesOn later) ∧
        (world.cycleStep stage).2.service.turn = world.service.queue.head? ∧
        (world.cycleStep stage).2.service.queue = world.service.queue.tail := by
  have hmoves := world.cycleMoves stage
  generalize world.cycleStep stage = result at hmoves
  cases hmoves with
  | began _ _ => exact .inl ⟨_, rfl, Service.turn_publish _ _, Service.queue_publish _ _⟩
  | closed _ _ => exact .inl ⟨_, rfl, Service.turn_publish _ _, Service.queue_publish _ _⟩
  | fetched _ _ _ _ _ => exact .inl ⟨_, rfl, rfl, rfl⟩
  | tookIn _ => exact .inl ⟨_, rfl, rfl, rfl⟩
  | marked _ _ _ => exact .inl ⟨_, rfl, rfl, rfl⟩
  | crashed _ _ =>
    have hqueue : world.service.beginCycle.queue = world.service.queue :=
      Service.queue_publish _ _
    exact .inr ⟨by simp, congrArg List.head? hqueue, congrArg List.tail hqueue⟩
  | _ => exact .inr ⟨by simp [endCycle], rfl, rfl⟩

theorem lineMoves_of_cycleStage? {world : World σ} {who : Nat} {stage : CycleStage}
    (hstage : world.cycleStage? who = some stage) : world.LineMoves (.goOn who) := by
  have hlater := cycleStage?_step_of_some hstage
  obtain ⟨task, hworld⟩ := exists_step_eq_of_cycleStage? hstage
  have hservice : (world.step who).service = (world.cycleStep stage).2.service := by
    rw [hworld]
    rfl
  rcases world.turn_cycleStep stage with ⟨later, hstep, hturn, hqueue⟩ | ⟨hstep, hturn, hqueue⟩
  · rw [hstep] at hlater
    exact .wentOn rfl hstage hstep ((congrArg Service.turn hservice).trans hturn)
      ((congrArg Service.queue hservice).trans hqueue) hlater
  · refine .left rfl hstage hstep ((congrArg Service.turn hservice).trans hturn)
      ((congrArg Service.queue hservice).trans hqueue) (hlater.trans ?_)
    split
    · next later hgoesOn => exact absurd hgoesOn (hstep later)
    · rfl

/-- **Whatever happens to the line** is one of these. -/
theorem lineMoves (world : World σ) (event : Event σ) : world.LineMoves event := by
  have hothers : ∀ who, event ≠ .goOn who →
      (world.after event).cycleStage? who = world.cycleStage? who :=
    fun who hne => cycleStage?_after_of_ne world hne
  cases event with
  | goOn who =>
    cases hstage : world.cycleStage? who with
    | some stage => exact lineMoves_of_cycleStage? hstage
    | none =>
      rcases (stepsAside_step hstage).line with ⟨hlater, hturn, hqueue⟩ | ⟨hlater, hservice⟩
      · refine .same hturn hqueue fun other => ?_
        by_cases hother : other = who
        · rw [hother, hstage]
          exact hlater
        · refine hothers other fun heq => hother (Event.goOn.inj heq).symm
      · exact .claimed rfl hstage hservice hlater
  | requestRefresh =>
    exact .same (Service.turn_requestRefresh _) (Service.queue_requestRefresh _)
      fun who => hothers who (by simp)
  | _ => exact .same rfl rfl fun who => hothers who (by simp)

/-! ### The line is in order -/

/-- **The line is in order.** Whoever wants to run a cycle stands in it, once; nobody behind the
first has begun one; and nobody waits for a turn that nobody has. -/
structure Orderly (world : World σ) : Prop where
  mem_line_iff : ∀ who, who ∈ world.service.line ↔ (world.cycleStage? who).isSome = true
  nodup : world.service.line.Nodup
  queued : ∀ who ∈ world.service.queue, world.cycleStage? who = some .queued
  free : world.service.turn = none → world.service.queue = []

omit [FallibleStore σ] in
theorem orderly_start (clock : Int) (directory : Directory) (cache : Cache σ) (config : Config) :
    (start clock directory cache config).Orderly where
  mem_line_iff who := by
    show who ∈ ([] : List Nat) ↔ (([] : List Task)[who]?.bind Task.cycleStage?).isSome = true
    simp
  nodup := List.nodup_nil
  queued who hmem := absurd hmem List.not_mem_nil
  free _ := rfl

namespace Orderly

section

variable {world : World σ} {who : Nat} {stage : CycleStage}

omit [FallibleStore σ] in
/-- **Whoever is in the middle of a cycle has the turn.** -/
theorem turn_eq (h : world.Orderly) (hunderWay : world.isUnderWay who = true) :
    world.service.turn = some who := by
  obtain ⟨stage, hstage, hunderWay⟩ := isUnderWay_iff.1 hunderWay
  have hmem : who ∈ world.service.line := (h.mem_line_iff who).2 (by rw [hstage]; rfl)
  rcases List.mem_append.1 hmem with hturn | hqueue
  · exact Option.mem_toList.1 hturn
  · -- Nobody that waits has begun.
    rw [h.queued who hqueue] at hstage
    rw [← Option.some.inj hstage] at hunderWay
    exact absurd hunderWay (by decide)

omit [FallibleStore σ] in
/-- **At most one task is in the middle of a cycle.** -/
theorem eq_of_isUnderWay (h : world.Orderly) {other : Nat} (hwho : world.isUnderWay who = true)
    (hother : world.isUnderWay other = true) : who = other :=
  Option.some.inj ((h.turn_eq hwho).symm.trans (h.turn_eq hother))

omit [FallibleStore σ] in
/-- Whoever has the turn does not wait for it. -/
theorem not_mem_queue (h : world.Orderly) (hturn : world.service.turn = some who) :
    who ∉ world.service.queue := by
  have hnodup := h.nodup
  unfold Service.line at hnodup
  rw [hturn] at hnodup
  exact (List.nodup_cons.1 hnodup).1

omit [FallibleStore σ] in
/-- A cycle that goes on has the turn. -/
theorem turn_eq_of_isReady (h : world.Orderly) (hstage : world.cycleStage? who = some stage)
    (hready : world.isReady who = true) : world.service.turn = some who := by
  cases stage with
  | queued =>
    -- One that has not begun is ready only if it has the turn.
    rw [isReady_eq_of_cycleStage? hstage] at hready
    exact of_decide_eq_true hready
  | walking cycle => exact h.turn_eq (isUnderWay_iff.2 ⟨_, hstage, rfl⟩)
  | marking report gone => exact h.turn_eq (isUnderWay_iff.2 ⟨_, hstage, rfl⟩)

end

omit [FallibleStore σ] in
/-- The line stays in order when a task goes to its end. -/
theorem claimed {world later : World σ} {who : Nat} (h : world.Orderly)
    (hnone : world.cycleStage? who = none)
    (hservice : later.service = world.service.claimTurn who)
    (hlater : later.cycleStage? who = some .queued)
    (hothers : ∀ other, other ≠ who → later.cycleStage? other = world.cycleStage? other) :
    later.Orderly := by
  have hline : later.service.line = world.service.line ++ [who] := by
    rw [hservice]
    exact Service.line_claimTurn h.free who
  have habsent : who ∉ world.service.line := by
    intro hmem
    have hsome := (h.mem_line_iff who).1 hmem
    rw [hnone] at hsome
    exact absurd hsome (by decide)
  constructor
  case mem_line_iff =>
    -- The new one stands in the line and is queued; of the others nothing has changed.
    intro other
    rw [hline, List.mem_append, List.mem_singleton, h.mem_line_iff]
    by_cases hother : other = who
    · simp [hother, hlater]
    · rw [hothers other hother]
      simp [hother]
  case nodup =>
    rw [hline, List.nodup_append]
    refine ⟨h.nodup, by simp, ?_⟩
    intro other hmem last hlast heq
    rw [List.mem_singleton.1 hlast] at heq
    exact habsent (heq ▸ hmem)
  case queued =>
    intro other hmem
    rw [hservice] at hmem
    unfold Service.claimTurn at hmem
    by_cases hother : other = who
    · rw [hother, hlater]
    · -- Whoever waits and is not the new one has waited before.
      rw [hothers other hother]
      split at hmem
      · exact h.queued other hmem
      · rcases List.mem_append.1 hmem with hbefore | hlast
        · exact h.queued other hbefore
        · exact absurd (List.mem_singleton.1 hlast) hother
  case free =>
    rw [hservice]
    unfold Service.claimTurn
    intro hfree
    split at hfree
    · exact absurd hfree (by simp)
    · next hturn => exact absurd (hturn.symm.trans hfree) (by simp)

omit [FallibleStore σ] in
/-- The line stays in order when its first goes on. -/
theorem wentOn {world later : World σ} {who : Nat} {stage : CycleStage} (h : world.Orderly)
    (hwho : world.service.turn = some who) (hturn : later.service.turn = world.service.turn)
    (hqueue : later.service.queue = world.service.queue)
    (hlater : later.cycleStage? who = some stage)
    (hothers : ∀ other, other ≠ who → later.cycleStage? other = world.cycleStage? other) :
    later.Orderly := by
  have hline : later.service.line = world.service.line := by
    unfold Service.line
    rw [hturn, hqueue]
  constructor
  case mem_line_iff =>
    intro other
    rw [hline]
    by_cases hother : other = who
    · have hmem : who ∈ world.service.line :=
        List.mem_append_left _ (Option.mem_toList.2 hwho)
      simp [hother, hlater, hmem]
    · rw [hothers other hother]
      exact h.mem_line_iff other
  case nodup => rw [hline]; exact h.nodup
  case queued =>
    intro other hmem
    rw [hqueue] at hmem
    -- The first does not wait for itself, so nothing has changed for those that wait.
    have hother : other ≠ who := by
      rintro rfl
      exact h.not_mem_queue hwho hmem
    rw [hothers other hother]
    exact h.queued other hmem
  case free =>
    intro hfree
    rw [hqueue]
    exact h.free (hturn ▸ hfree)

omit [FallibleStore σ] in
/-- The line stays in order when its first leaves. -/
theorem left {world later : World σ} {who : Nat} (h : world.Orderly)
    (hwho : world.service.turn = some who)
    (hturn : later.service.turn = world.service.queue.head?)
    (hqueue : later.service.queue = world.service.queue.tail)
    (hlater : later.cycleStage? who = none)
    (hothers : ∀ other, other ≠ who → later.cycleStage? other = world.cycleStage? other) :
    later.Orderly := by
  have hbefore : world.service.line = who :: world.service.queue := by
    unfold Service.line
    rw [hwho]
    rfl
  have hline : later.service.line = world.service.queue := by
    unfold Service.line
    rw [hturn, hqueue]
    cases world.service.queue <;> rfl
  have hnodup := h.nodup
  rw [hbefore, List.nodup_cons] at hnodup
  -- Whoever stood behind the first stands behind nobody else now, and was not the first itself.
  have hne : ∀ other ∈ world.service.queue, other ≠ who := by
    rintro other hmem rfl
    exact hnodup.1 hmem
  constructor
  case mem_line_iff =>
    intro other
    rw [hline]
    by_cases hother : other = who
    · rw [hother, hlater]
      simp [hnodup.1]
    · rw [hothers other hother, ← h.mem_line_iff, hbefore]
      simp [hother]
  case nodup => rw [hline]; exact hnodup.2
  case queued =>
    intro other hmem
    rw [hqueue] at hmem
    have hwaited := List.mem_of_mem_tail hmem
    rw [hothers other (hne other hwaited)]
    exact h.queued other hwaited
  case free =>
    intro hfree
    rw [hturn, List.head?_eq_none_iff] at hfree
    rw [hqueue, hfree]
    rfl

/-- **The line stays in order** whatever happens. -/
theorem after {world : World σ} {event : Event σ} (h : world.Orderly)
    (hadmits : world.Admits event) : (world.after event).Orderly := by
  have hothers : ∀ who, event = .goOn who → ∀ other, other ≠ who →
      (world.after event).cycleStage? other = world.cycleStage? other := by
    rintro who rfl other hother
    exact cycleStage?_after_of_ne world fun heq => hother (Event.goOn.inj heq).symm
  cases world.lineMoves event with
  | same hturn hqueue hstages =>
    have hline : (world.after event).service.line = world.service.line := by
      unfold Service.line
      rw [hturn, hqueue]
    exact ⟨fun who => by rw [hline, hstages]; exact h.mem_line_iff who,
      by rw [hline]; exact h.nodup,
      fun who hmem => by rw [hqueue] at hmem; rw [hstages]; exact h.queued who hmem,
      fun hfree => by rw [hqueue]; exact h.free (hturn ▸ hfree)⟩
  | claimed hevent hnone hservice hlater =>
    exact h.claimed hnone hservice hlater (hothers _ hevent)
  | wentOn hevent hstage hstep hturn hqueue hlater =>
    subst hevent
    exact h.wentOn (h.turn_eq_of_isReady hstage hadmits) hturn hqueue hlater (hothers _ rfl)
  | left hevent hstage hstep hturn hqueue hlater =>
    subst hevent
    exact h.left (h.turn_eq_of_isReady hstage hadmits) hturn hqueue hlater (hothers _ rfl)

end Orderly

/-- **The line is in order** at every moment of every course. -/
theorem Course.orderly {allowed : World σ → Event σ → Prop} {start world : World σ}
    {log : List Attempt} (h : Course allowed start log world) (hstart : start.Orderly) :
    world.Orderly :=
  h.invariant hstart fun _ _ _ hadmits hworld => hworld.after hadmits

end World

end DeviceScope
