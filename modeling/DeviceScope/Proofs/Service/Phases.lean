import DeviceScope.Proofs.Service.Exclusion

/-!
# The phase that is published

Where nobody but the loop of the service runs cycles, and the service is started once, the phase
that is published follows the loop: what stage the loop has come to says what the phase is
(`LoopStage.Fits`), each of its steps keeps this so (`World.fits_loopStep`) and publishes a
documented change of the phase if any (`World.advances_loopStep`, `Phase.Next`). Nobody else
changes the phase but the supervisor, when it stops the service (`World.PhaseMoves`), and then no
loop is left. The invariant that all of this rests on is `World.Phased`.

The phase is listing or diffing exactly as long as a cycle is in progress, whenever nothing can go
on (`World.Phased.underWay_iff`), and what a cycle writes, it writes in the phase for it
(`World.Phased.phase_of_write?`).
-/

namespace DeviceScope

variable {σ : Type}

/-- **The documented changes of phase.** -/
inductive Phase.Next : Phase → Phase → Prop where
  /-- The first cycle begins. -/
  | begun : Next .idle .listing
  /-- The listing was walked to its end. -/
  | listed : Next .listing .diffing
  /-- The listing has broken off or taken too long. -/
  | brokenOff : Next .listing .waiting
  | completed : Next .diffing .waiting
  /-- The next cycle begins. -/
  | again : Next .waiting .listing
  | stopped {phase : Phase} (h : phase ≠ .stopped) : Next phase .stopped

namespace Service

/-- **The phase stays as it is, or a documented change is published.** -/
def Advances (service later : Service) : Prop :=
  later.phase = service.phase ∧ later.published = service.published ∨
    later.published = service.published + 1 ∧ Phase.Next service.phase later.phase

theorem phase_publish {service : Service} (hstopped : service.phase ≠ .stopped) (phase : Phase) :
    (service.publish phase).phase = phase := by
  unfold publish
  by_cases hsame : service.phase = phase
  · rw [if_pos (.inr hsame)]
    exact hsame
  · rw [if_neg (not_or.2 ⟨hstopped, hsame⟩)]

theorem advances_publish {service : Service} {phase : Phase}
    (h : service.phase ≠ phase → Phase.Next service.phase phase) :
    service.Advances (service.publish phase) := by
  unfold publish
  by_cases hsame : service.phase = .stopped ∨ service.phase = phase
  · rw [if_pos hsame]
    exact .inl ⟨rfl, rfl⟩
  · rw [if_neg hsame]
    exact .inr ⟨rfl, h fun heq => hsame (.inr heq)⟩

theorem phase_beginCycle {service : Service} (hstopped : service.phase ≠ .stopped) :
    service.beginCycle.phase = .listing := by
  unfold beginCycle
  exact phase_publish (by exact hstopped) _

theorem advances_beginCycle {service : Service} (hstopped : service.phase ≠ .stopped)
    (hdiffing : service.phase ≠ .diffing) : service.Advances service.beginCycle := by
  have hadvances : Advances { service with stats := { service.stats with
      cyclesStarted := service.stats.cyclesStarted + 1 } } service.beginCycle := by
    refine advances_publish fun hlisting => ?_
    show Phase.Next service.phase .listing
    cases hphase : service.phase with
    | idle => exact .begun
    | waiting => exact .again
    | listing => exact absurd hphase hlisting
    | diffing => exact absurd hphase hdiffing
    | stopped => exact absurd hphase hstopped
  exact hadvances

end Service

/-- **The phase fits the stage of the loop.** -/
def LoopStage.Fits (service : Service) : LoopStage → Prop
  | .top | .cycling .queued => service.phase ≠ .diffing
  | .cycling (.walking _) => service.phase = .listing
  | .cycling (.marking _ _) => service.phase = .diffing
  -- A cycle that was turned away leaves the phase as it was, but then the service is shutting down.
  | .rest => service.shuttingDown = true ∨ service.phase = .listing ∨ service.phase = .diffing
  | .parked _ => service.phase = .waiting
  | .done => True

/-- Whether the call runs a cycle or is about to. -/
def CallStage.runsCycle : CallStage → Bool
  | .begun .runCycle | .cycling _ => true
  | _ => false

namespace World

/-- **Nobody but the loop runs cycles**, and the service is started once. -/
def unattended (world : World σ) (event : Event σ) : Prop :=
  startsOnce world event ∧ event ≠ .call .runCycle

variable [FallibleStore σ]

/-! ### Steps of the loop -/

/-- **The phase fits the loop** after each of its steps. -/
theorem fits_loopStep {world : World σ} {stage : LoopStage} (who : Nat)
    (hfits : stage.Fits world.service) (hphase : world.service.phase ≠ .stopped) :
    (world.loopStep who stage).1.Fits (world.loopStep who stage).2.service := by
  have hmoves := world.loopMoves who stage
  generalize world.loopStep who stage = result at hmoves
  -- One case for each thing that the loop can do, and within a cycle for each move of it.
  cases hmoves with
  | leftTop _ => trivial
  | claimed _ =>
    show (world.service.claimTurn who).phase ≠ .diffing
    rw [Service.phase_claimTurn]
    exact hfits
  | cycling hmove =>
    cases hmove with
    | cancelled hshut => exact .inl hshut
    | began _ _ => exact Service.phase_beginCycle hphase
    | crashed _ _ => trivial
    | closed _ _ => exact Service.phase_publish hphase _
    | fell _ _ _ _ => trivial
    | fetched _ _ _ _ _ => exact hfits
    | brokeOff _ _ _ _ _ => exact .inr (.inl hfits)
    | tookLong _ _ _ => exact .inr (.inl hfits)
    | tookIn _ => exact hfits
    | completed _ => exact .inr (.inr hfits)
    | marked _ _ _ => exact hfits
  | leftRest _ => trivial
  | resumed _ _ =>
    show (world.service.publish .waiting).phase ≠ .diffing
    rw [Service.phase_publish hphase]
    decide
  | parked _ _ => exact Service.phase_publish hphase _
  | unparked due =>
    have hwaiting : world.service.phase = .waiting := hfits
    show world.service.phase ≠ .diffing
    rw [hwaiting]
    decide
  | done => trivial

/-- **A step of the loop publishes a documented change of phase**, if any, and does not stop the
service. -/
theorem advances_loopStep {world : World σ} {stage : LoopStage} (who : Nat)
    (hfits : stage.Fits world.service) (hphase : world.service.phase ≠ .stopped) :
    world.service.Advances (world.loopStep who stage).2.service ∧
      (world.loopStep who stage).2.service.phase ≠ .stopped := by
  -- After a cycle that was not turned away the phase is that of its last part.
  have hwaits : world.service.shuttingDown = false → LoopStage.Fits world.service .rest →
      world.service.Advances (world.service.publish .waiting) ∧
        (world.service.publish .waiting).phase ≠ .stopped := by
    intro hrunning hrest
    refine ⟨Service.advances_publish fun _ => ?_, by rw [Service.phase_publish hphase]; decide⟩
    rcases hrest with hshut | hlisting | hdiffing
    · exact absurd (hshut.symm.trans hrunning) (by decide)
    · rw [hlisting]
      exact .brokenOff
    · rw [hdiffing]
      exact .completed
  have hbegins : world.service.phase ≠ .diffing →
      world.service.Advances world.service.beginCycle ∧
        world.service.beginCycle.phase ≠ .stopped := by
    intro hdiffing
    refine ⟨Service.advances_beginCycle hphase hdiffing, ?_⟩
    rw [Service.phase_beginCycle hphase]
    decide
  have hmoves := world.loopMoves who stage
  generalize world.loopStep who stage = result at hmoves
  cases hmoves with
  | claimed _ =>
    refine ⟨.inl ⟨Service.phase_claimTurn _ _, Service.published_claimTurn _ _⟩, ?_⟩
    show (world.service.claimTurn who).phase ≠ .stopped
    rw [Service.phase_claimTurn]
    exact hphase
  | cycling hmove =>
    cases hmove with
    | began _ _ => exact hbegins hfits
    | crashed _ _ => exact hbegins hfits
    | closed _ _ =>
      have hlisting : world.service.phase = .listing := hfits
      refine ⟨Service.advances_publish fun _ => ?_, ?_⟩
      · rw [hlisting]
        exact .listed
      · show (world.service.publish .diffing).phase ≠ .stopped
        rw [Service.phase_publish hphase]
        decide
    | _ => exact ⟨.inl ⟨rfl, rfl⟩, hphase⟩
  | resumed hrunning _ => exact hwaits hrunning hfits
  | parked hrunning _ => exact hwaits hrunning hfits
  | _ => exact ⟨.inl ⟨rfl, rfl⟩, hphase⟩

/-! ### Who changes the phase -/

/-- A call that runs no cycle leaves the service alone, and goes on not running one. -/
theorem runsCycle_callStep {world : World σ} (who : Nat) {stage : CallStage}
    (h : stage.runsCycle = false) :
    (world.callStep who stage).1.runsCycle = false ∧
      (world.callStep who stage).2.service = world.service := by
  have hturns := world.callTurns who stage
  generalize world.callStep who stage = result at hturns
  cases hturns with
  | claimed => exact absurd h (by decide)
  | wentOn _ => exact absurd h (by simp [CallStage.runsCycle])
  | ended _ => exact absurd h (by simp [CallStage.runsCycle])
  | crashed _ => exact absurd h (by simp [CallStage.runsCycle])
  | _ => exact ⟨rfl, rfl⟩

/-- **What an event does to the phase**, where no call runs a cycle. -/
inductive PhaseMoves (world : World σ) (event : Event σ) : Prop where
  /-- No loop goes on, and the phase stays as it is. -/
  | same (hphase : (world.after event).service.phase = world.service.phase)
    (hpublished : (world.after event).service.published = world.service.published)
    (hloops : ∀ who, event = .goOn who → world.isLooping who = false)
  /-- A loop goes on. -/
  | loop {who : Nat} {stage : LoopStage} (hevent : event = .goOn who)
    (htask : world.tasks[who]? = some (.loop stage)) (hnot : stage ≠ .done)
    (hservice : (world.after event).service = (world.loopStep who stage).2.service)
  /-- The supervisor stops the service. -/
  | stopped {who : Nat} {loop : Option Nat} (hevent : event = .goOn who)
    (htask : world.tasks[who]? = some (.supervisor (.joining loop)))
    (hservice : (world.after event).service = world.service.stop)

/-- Who leaves the service alone and is no loop leaves the phase as it is. -/
theorem PhaseMoves.of_service_eq {world : World σ} {who : Nat}
    (hservice : (world.step who).service = world.service) (hnot : world.isLooping who = false) :
    world.PhaseMoves (.goOn who) := by
  refine .same (congrArg Service.phase hservice) (congrArg Service.published hservice) ?_
  intro other heq
  rwa [← Event.goOn.inj heq]

theorem phaseMoves_of_supervisor {world : World σ} {who : Nat} {stage : SupervisorStage}
    (htask : world.tasks[who]? = some (.supervisor stage)) : world.PhaseMoves (.goOn who) := by
  have hservice : (world.step who).service = (world.supervisorStep stage).2.service :=
    service_step htask
  have hmoves := world.supervisorMoves stage
  generalize world.supervisorStep stage = result at hmoves hservice
  cases hmoves with
  | stopped loop => exact .stopped rfl htask hservice
  | _ => exact .of_service_eq hservice (isLooping_of_task htask)

/-- **The phase is changed** in one of these ways. -/
theorem phaseMoves {world : World σ}
    (hcalls : ∀ (who : Nat) (stage : CallStage), world.tasks[who]? = some (.call stage) →
      stage.runsCycle = false)
    (event : Event σ) : world.PhaseMoves event := by
  cases event with
  | goOn who =>
    cases htask : world.tasks[who]? with
    | none =>
      refine .of_service_eq (by rw [step_of_none htask]) ?_
      rw [isLooping, htask]
      rfl
    | some task =>
      have hservice := service_step htask
      cases task with
      | call stage =>
        exact .of_service_eq (hservice.trans (runsCycle_callStep who (hcalls who stage htask)).2)
          (isLooping_of_task htask)
      | supervisor stage => exact phaseMoves_of_supervisor htask
      | loop stage =>
        by_cases hdone : stage = .done
        · subst hdone
          exact .of_service_eq hservice (isLooping_of_task htask)
        · exact .loop rfl htask hdone hservice
  | requestRefresh =>
    exact .same (Service.phase_requestRefresh _) (Service.published_requestRefresh _)
      fun who heq => absurd heq (by simp)
  | _ => exact .same rfl rfl fun who heq => absurd heq (by simp)

/-! ### The phase and the tasks -/

/-- **The phase is that of the tasks**, where nobody but the loop runs cycles. -/
structure Phased (mayCrash : Prop) (world : World σ) : Prop where
  supervised : world.Supervised
  calls : ∀ (who : Nat) (stage : CallStage), world.tasks[who]? = some (.call stage) →
    stage.runsCycle = false
  /-- The phase fits every loop, of which one at most has not ended. -/
  fits : ∀ (who : Nat) (stage : LoopStage), world.tasks[who]? = some (.loop stage) →
    stage.Fits world.service
  /-- The service has stopped when its supervisor has come to its end. -/
  stopped_iff : ∀ (who : Nat) (stage : SupervisorStage),
    world.tasks[who]? = some (.supervisor stage) →
    (world.service.phase = .stopped ↔ stage = .done)
  /-- The supervisor waits for its loop only when the service is shutting down. -/
  joining : ∀ (who : Nat) (loop : Option Nat),
    world.tasks[who]? = some (.supervisor (.joining loop)) → world.service.shuttingDown = true
  unstarted : world.isStarted = false → world.service.phase = .idle
  /-- Where there is no loop although the service runs, none was started yet, or one has
  crashed. -/
  unlooped : world.service.shuttingDown = false → (∀ who, world.isLooping who = false) →
    world.service.phase = .idle ∨ mayCrash ∧ world.service.phase = .listing

omit [FallibleStore σ] in
theorem phased_start (mayCrash : Prop) (clock : Int) (directory : Directory) (cache : Cache σ)
    (config : Config) : Phased mayCrash (start clock directory cache config) where
  supervised := supervised_start clock directory cache config
  calls _ _ htask := absurd htask (by simp [start])
  fits _ _ htask := absurd htask (by simp [start])
  stopped_iff _ _ htask := absurd htask (by simp [start])
  joining _ _ htask := absurd htask (by simp [start])
  unstarted _ := rfl
  unlooped _ _ := .inl rfl

namespace Phased

variable {mayCrash : Prop} {world : World σ} {event : Event σ}

omit [FallibleStore σ] in
/-- As long as a loop has not ended, the service has not stopped. -/
theorem ne_stopped (h : Phased mayCrash world) {who : Nat}
    (hlooping : world.isLooping who = true) : world.service.phase ≠ .stopped := by
  obtain ⟨supervisor, stage, htask, hloop⟩ := h.supervised.watched who hlooping
  intro hstopped
  obtain rfl := (h.stopped_iff supervisor stage htask).1 hstopped
  exact absurd hloop (by simp [SupervisorStage.loop?])

omit [FallibleStore σ] in
/-- The supervisor does not stop the service as long as a loop has not ended. -/
theorem not_looping_of_joining (h : Phased mayCrash world) {supervisor who : Nat}
    {loop : Option Nat} (htask : world.tasks[supervisor]? = some (.supervisor (.joining loop)))
    (hready : world.isReady supervisor = true) : world.isLooping who = false := by
  refine h.supervised.isLooping_eq_false htask ?_ who
  rwa [isReady_of_task htask] at hready

/-- As long as a loop has not ended and does not go on itself, the phase stays as it is. -/
theorem phase_after_of_isLooping (h : Phased mayCrash world) (hadmits : world.Admits event)
    {who : Nat} (hlooping : world.isLooping who = true) (hne : event ≠ .goOn who) :
    (world.after event).service.phase = world.service.phase := by
  cases phaseMoves h.calls event with
  | same hphase _ _ => exact hphase
  | loop hevent htask hnot _ =>
    have hother := h.supervised.eq_of_isLooping hlooping (isLooping_iff.2 ⟨_, htask, hnot⟩)
    exact absurd (hother ▸ hevent) hne
  | stopped hevent htask _ =>
    subst hevent
    exact absurd hlooping (by rw [h.not_looping_of_joining htask hadmits]; decide)

theorem calls_after (h : Phased mayCrash world) (hallowed : unattended world event) {who : Nat}
    {later : CallStage} (htask : (world.after event).tasks[who]? = some (.call later)) :
    later.runsCycle = false := by
  rcases call_after_cases htask with
    ⟨-, stage, hbefore, rfl⟩ | ⟨-, hbefore⟩ | ⟨⟨call, rfl, rfl⟩, -⟩
  · exact (runsCycle_callStep who (h.calls who stage hbefore)).1
  · exact h.calls who later hbefore
  · cases call with
    | runCycle => exact absurd rfl hallowed.2
    | _ => rfl

theorem fits_after (h : Phased mayCrash world) (hadmits : world.Admits event) {who : Nat}
    {later : LoopStage} (htask : (world.after event).tasks[who]? = some (.loop later)) :
    later.Fits (world.after event).service := by
  rcases loop_after_cases htask with
    ⟨rfl, stage, hbefore, rfl⟩ | ⟨hne, hbefore⟩ | ⟨⟨supervisor, due, loop, hspawns⟩, -, rfl⟩
  · -- The loop itself has gone on.
    have hservice : (world.step who).service = (world.loopStep who stage).2.service :=
      service_step hbefore
    by_cases hdone : stage = .done
    · subst hdone
      trivial
    · show (world.loopStep who stage).1.Fits (world.step who).service
      rw [hservice]
      exact fits_loopStep who (h.fits who stage hbefore)
        (h.ne_stopped (isLooping_iff.2 ⟨stage, hbefore, hdone⟩))
  · -- Something else has happened, and while the loop is there nobody else changes the phase.
    by_cases hdone : later = .done
    · subst hdone
      trivial
    · have hphase := h.phase_after_of_isLooping hadmits
        (isLooping_iff.2 ⟨later, hbefore, hdone⟩) hne
      have hfits := h.fits who later hbefore
      cases later with
      | top => exact fun heq => hfits (hphase.symm.trans heq)
      | cycling stage =>
        cases stage with
        | queued => exact fun heq => hfits (hphase.symm.trans heq)
        | walking cycle => exact hphase.trans hfits
        | marking report gone => exact hphase.trans hfits
      | rest =>
        rcases hfits with hshut | hlisting | hdiffing
        · exact .inl (shuttingDown_after hshut event)
        · exact .inr (.inl (hphase.trans hlisting))
        · exact .inr (.inr (hphase.trans hdiffing))
      | parked due => exact hphase.trans hfits
      | done => trivial
  · -- The supervisor has just started the loop, when there was none.
    have hnone := h.supervised.isLooping_eq_false hspawns.task hspawns.ended
    have hphase : (world.after event).service.phase = world.service.phase :=
      congrArg Service.phase hspawns.service_eq
    show (world.after event).service.phase ≠ .diffing
    rw [hphase]
    rcases h.unlooped hspawns.running hnone with hidle | ⟨-, hlisting⟩
    · rw [hidle]
      decide
    · rw [hlisting]
      decide

theorem stopped_iff_after (h : Phased mayCrash world) (hallowed : unattended world event)
    (hadmits : world.Admits event) {who : Nat} {later : SupervisorStage}
    (htask : (world.after event).tasks[who]? = some (.supervisor later)) :
    (world.after event).service.phase = .stopped ↔ later = .done := by
  rcases supervisor_after_cases htask with
    ⟨rfl, stage, hbefore, rfl⟩ | ⟨hne, hbefore⟩ | ⟨rfl, -, rfl⟩
  · -- The supervisor itself has gone on.
    have hservice : (world.step who).service = (world.supervisorStep stage).2.service :=
      service_step hbefore
    have hiff := h.stopped_iff who stage hbefore
    show (world.step who).service.phase = .stopped ↔ _
    rw [hservice]
    have hmoves := world.supervisorMoves stage
    generalize world.supervisorStep stage = result at hmoves
    cases hmoves with
    | stopped loop => exact iff_of_true rfl rfl
    | done => exact hiff
    | _ => exact iff_of_false (fun heq => absurd (hiff.1 heq) (by simp)) (by simp)
  · have hiff := h.stopped_iff who later hbefore
    cases phaseMoves h.calls event with
    | same hphase _ _ => rw [hphase]; exact hiff
    | @loop other stage hevent hloop hnot hservice =>
      -- The supervisor looks after this loop, so neither has come to its end.
      have hlooping := isLooping_iff.2 ⟨stage, hloop, hnot⟩
      have hrunning := h.ne_stopped hlooping
      rw [hservice]
      exact iff_of_false (advances_loopStep other (h.fits other stage hloop) hrunning).2
        fun hdone => hrunning (hiff.2 hdone)
    | stopped hevent hjoining _ =>
      rw [h.supervised.unique hjoining hbefore] at hevent
      exact absurd hevent hne
  · -- The service has just been started.
    have hidle := h.unstarted (hallowed.1 rfl)
    show world.service.phase = .stopped ↔ _
    rw [hidle]
    exact iff_of_false (by decide) (by simp)

theorem joining_after (h : Phased mayCrash world) {who : Nat} {loop : Option Nat}
    (htask : (world.after event).tasks[who]? = some (.supervisor (.joining loop))) :
    (world.after event).service.shuttingDown = true := by
  rcases supervisor_after_cases htask with
    ⟨-, stage, hbefore, hlater⟩ | ⟨-, hbefore⟩ | ⟨-, -, hbegun⟩
  · refine shuttingDown_after ?_ event
    have hmoves := world.supervisorMoves stage
    generalize world.supervisorStep stage = result at hmoves hlater
    cases hmoves with
    | leftBegun hshut => exact hshut
    | leftWatching hshut => exact hshut
    | _ => exact absurd hlater (by simp)
  · exact shuttingDown_after (h.joining who loop hbefore) event
  · exact absurd hbegun (by simp)

theorem unstarted_after (h : Phased mayCrash world)
    (hnot : (world.after event).isStarted = false) :
    (world.after event).service.phase = .idle := by
  have hbefore : world.isStarted = false := by
    rw [Bool.eq_false_iff]
    intro hstarted
    have hlater : (world.after event).isStarted = true := isStarted_after hstarted
    exact absurd hlater (by simp [hnot])
  cases phaseMoves h.calls event with
  | same hphase _ _ => exact hphase.trans (h.unstarted hbefore)
  | loop _ htask hlooping _ =>
    have hstarted := h.supervised.isStarted_of_isLooping (isLooping_iff.2 ⟨_, htask, hlooping⟩)
    exact absurd hstarted (by simp [hbefore])
  | stopped _ htask _ => exact absurd (isStarted_of_task htask) (by simp [hbefore])

/-- A loop that has just come to its end although the service runs has crashed, and the phase is
that of the listing. -/
theorem crashes_of_loopStep {who : Nat} {stage : LoopStage}
    (htask : world.tasks[who]? = some (.loop stage)) (hready : world.isReady who = true)
    (hrunning : world.service.shuttingDown = false) (hnot : stage ≠ .done)
    (hfits : stage.Fits world.service) (hphase : world.service.phase ≠ .stopped)
    (hdone : (world.loopStep who stage).1 = .done) :
    world.Crashes who ∧ (world.loopStep who stage).2.service.phase = .listing := by
  cases stage with
  | cycling stage =>
    have hstage : world.cycleStage? who = some stage := cycleStage?_of_task htask
    rw [loopStep_cycling] at hdone ⊢
    -- A cycle that goes on or has ended leaves the loop where it is.
    have hmoves := world.cycleMoves stage
    generalize hresult : world.cycleStep stage = result at hmoves hdone
    cases hmoves with
    | crashed _ _ =>
      exact ⟨⟨_, hstage, hready, by rw [hresult]⟩, Service.phase_beginCycle hphase⟩
    | fell _ _ _ _ => exact ⟨⟨_, hstage, hready, by rw [hresult]⟩, hfits⟩
    | _ => exact absurd hdone (by simp [CycleStep.loopStage, endCycle])
  | top =>
    rw [loopStep, hrunning] at hdone
    exact absurd hdone (by simp)
  | rest =>
    rw [loopStep, hrunning, if_neg (by decide)] at hdone
    dsimp only at hdone
    split at hdone <;> exact absurd hdone (by simp)
  | parked due => exact absurd hdone (by simp [loopStep])
  | done => exact absurd rfl hnot

theorem unlooped_after (h : Phased mayCrash world) (hadmits : world.Admits event)
    (hcrash : ¬ mayCrash → ∀ who, event = .goOn who → ¬ world.Crashes who)
    (hrunning : (world.after event).service.shuttingDown = false)
    (hnone : ∀ who, (world.after event).isLooping who = false) :
    (world.after event).service.phase = .idle ∨
      mayCrash ∧ (world.after event).service.phase = .listing := by
  have hbefore := running_of_after hrunning
  cases phaseMoves h.calls event with
  | same hphase _ hloops =>
    rw [hphase]
    refine h.unlooped hbefore fun who => ?_
    rw [Bool.eq_false_iff]
    intro hlooping
    -- A loop that does not go on does not end.
    have hne : event ≠ .goOn who := fun heq => absurd hlooping (by simp [hloops who heq])
    obtain ⟨stage, htask, hnot⟩ := isLooping_iff.1 hlooping
    have hlater := isLooping_iff.2 ⟨stage, task_after_of_ne hne htask, hnot⟩
    exact absurd hlater (by simp [hnone who])
  | @loop who stage hevent htask hnot hservice =>
    subst hevent
    -- The loop has just come to its end, which it does only by crashing.
    have hdone := eq_done_of_isLooping (task_step_of_loop htask) (hnone who)
    obtain ⟨hcrashes, hphase⟩ := crashes_of_loopStep htask hadmits hbefore hnot
      (h.fits who stage htask) (h.ne_stopped (isLooping_iff.2 ⟨stage, htask, hnot⟩)) hdone
    have hmay : mayCrash := Classical.byContradiction fun hmay => hcrash hmay who rfl hcrashes
    refine .inr ⟨hmay, ?_⟩
    rw [hservice]
    exact hphase
  | stopped _ htask _ => exact absurd (h.joining _ _ htask) (by simp [hbefore])

/-- **The phase is that of the tasks** whatever happens. -/
theorem after (h : Phased mayCrash world) (hallowed : unattended world event)
    (hadmits : world.Admits event)
    (hcrash : ¬ mayCrash → ∀ who, event = .goOn who → ¬ world.Crashes who) :
    Phased mayCrash (world.after event) where
  supervised := h.supervised.after hallowed.1 hadmits
  calls _ _ htask := h.calls_after hallowed htask
  fits _ _ htask := h.fits_after hadmits htask
  stopped_iff _ _ htask := h.stopped_iff_after hallowed hadmits htask
  joining _ _ htask := h.joining_after htask
  unstarted hnot := h.unstarted_after hnot
  unlooped hrunning hnone := h.unlooped_after hadmits hcrash hrunning hnone

/-- **An event publishes a documented change of phase**, if any. -/
theorem advances (h : Phased mayCrash world) (event : Event σ) :
    world.service.Advances (world.after event).service := by
  cases phaseMoves h.calls event with
  | same hphase hpublished _ => exact .inl ⟨hphase, hpublished⟩
  | @loop who stage _ htask hnot hservice =>
    rw [hservice]
    exact (advances_loopStep who (h.fits who stage htask)
      (h.ne_stopped (isLooping_iff.2 ⟨stage, htask, hnot⟩))).1
  | stopped _ htask hservice =>
    rw [hservice]
    refine .inr ⟨rfl, .stopped fun hstopped => ?_⟩
    exact absurd ((h.stopped_iff _ _ htask).1 hstopped) (by simp)

omit [FallibleStore σ] in
/-- Only a loop runs a cycle. -/
theorem loop_of_cycleStage? (h : Phased mayCrash world) {who : Nat} {stage : CycleStage}
    (hstage : world.cycleStage? who = some stage) :
    world.tasks[who]? = some (.loop (.cycling stage)) := by
  obtain ⟨task, htask, hcycle⟩ := Option.bind_eq_some_iff.1 hstage
  rw [Task.cycleStage?.eq_def] at hcycle
  split at hcycle
  · exact absurd (h.calls who _ htask) (by simp [CallStage.runsCycle])
  · rw [← Option.some.inj hcycle]
    exact htask
  · exact absurd hcycle (by simp)

omit [FallibleStore σ] in
/-- A loop that wants to run a cycle has its turn, since nobody else runs one. -/
theorem turn_eq_of_queued (h : Phased mayCrash world) (horderly : world.Orderly) {who : Nat}
    (hqueued : world.cycleStage? who = some .queued) : world.service.turn = some who := by
  have hlooping : ∀ other, (world.cycleStage? other).isSome = true →
      world.isLooping other = true := by
    intro other hsome
    obtain ⟨stage, hstage⟩ := Option.isSome_iff_exists.1 hsome
    exact isLooping_iff.2 ⟨_, h.loop_of_cycleStage? hstage, by simp⟩
  have hmem : who ∈ world.service.line := (horderly.mem_line_iff who).2 (by rw [hqueued]; rfl)
  cases hturn : world.service.turn with
  | none =>
    unfold Service.line at hmem
    rw [hturn, horderly.free hturn] at hmem
    exact absurd hmem List.not_mem_nil
  | some first =>
    have hfirst : first ∈ world.service.line :=
      List.mem_append_left _ (Option.mem_toList.2 hturn)
    rw [h.supervised.eq_of_isLooping (hlooping first ((horderly.mem_line_iff first).1 hfirst))
      (hlooping who ((horderly.mem_line_iff who).1 hmem))]

omit [FallibleStore σ] in
theorem isTaskReady_eq_false {who : Nat} {task : Task} (hquiet : world.isReady who = false)
    (htask : world.tasks[who]? = some task) : world.isTaskReady who task = false :=
  (isReady_of_task htask).symm.trans hquiet

omit [FallibleStore σ] in
/-- Where there is no loop and nothing can go on, the service has not begun to work, or it has
stopped. -/
theorem phase_of_not_isLooping (h : Phased False world)
    (hquiet : ∀ who, world.isReady who = false) (hnone : ∀ who, world.isLooping who = false) :
    world.service.phase = .idle ∨ world.service.phase = .stopped := by
  cases hshut : world.service.shuttingDown with
  | false =>
    rcases h.unlooped hshut hnone with hidle | ⟨hfalse, -⟩
    · exact .inl hidle
    · exact hfalse.elim
  | true =>
    cases hstarted : world.isStarted with
    | false => exact .inl (h.unstarted hstarted)
    | true =>
      -- The supervisor can go on until it has come to its end.
      obtain ⟨supervisor, stage, htask⟩ := exists_supervisor_of_isStarted hstarted
      have hnot := isTaskReady_eq_false (hquiet supervisor) htask
      cases stage with
      | begun => exact absurd hnot (by simp [isTaskReady])
      | watching due loop => exact absurd hnot (by simp [isTaskReady, hshut])
      | joining loop =>
        have hended : loop.all world.isDone = true := by
          cases loop with
          | none => rfl
          | some loop =>
            have hwatched : (SupervisorStage.joining (some loop)).loop? = some loop := rfl
            obtain ⟨later, hlater⟩ := h.supervised.isLoop htask hwatched
            show (world.tasks[loop]?.all Task.isDone) = true
            rw [hlater, eq_done_of_isLooping hlater (hnone loop)]
            rfl
        exact absurd (hnot.symm.trans hended) (by decide)
      | done => exact .inr ((h.stopped_iff supervisor .done htask).2 rfl)

omit [FallibleStore σ] in
/-- **Whenever nothing can go on**, the phase is listing or diffing exactly if a cycle is in
progress. -/
theorem underWay_iff (h : Phased False world) (horderly : world.Orderly)
    (hquiet : ∀ who, world.isReady who = false) :
    (world.service.phase = .listing ∨ world.service.phase = .diffing) ↔
      ∃ who, world.isUnderWay who = true := by
  constructor
  · intro hphase
    by_cases hloop : ∃ who, world.isLooping who = true
    · -- The only stages at which the loop waits are in the middle of a cycle, and between two.
      obtain ⟨who, hlooping⟩ := hloop
      obtain ⟨stage, htask, hnot⟩ := isLooping_iff.1 hlooping
      have hwaits := isTaskReady_eq_false (hquiet who) htask
      cases stage with
      | top => exact absurd hwaits (by simp [isTaskReady])
      | rest => exact absurd hwaits (by simp [isTaskReady])
      | done => exact absurd rfl hnot
      | parked due =>
        have hwaiting : world.service.phase = .waiting := h.fits who _ htask
        rw [hwaiting] at hphase
        exact absurd hphase (by decide)
      | cycling stage =>
        have hstage : world.cycleStage? who = some stage := cycleStage?_of_task htask
        cases stage with
        | queued =>
          have hturn := h.turn_eq_of_queued horderly hstage
          exact absurd hwaits (by simp [isTaskReady, isCycleReady, hturn])
        | walking cycle => exact ⟨who, isUnderWay_iff.2 ⟨_, hstage, rfl⟩⟩
        | marking report gone => exact ⟨who, isUnderWay_iff.2 ⟨_, hstage, rfl⟩⟩
    · have hnone : ∀ who, world.isLooping who = false := fun who =>
        Bool.eq_false_iff.2 fun hlooping => hloop ⟨who, hlooping⟩
      rcases h.phase_of_not_isLooping hquiet hnone with hidle | hstopped
      · rw [hidle] at hphase
        exact absurd hphase (by decide)
      · rw [hstopped] at hphase
        exact absurd hphase (by decide)
  · rintro ⟨who, hunderWay⟩
    obtain ⟨stage, hstage, hstageUnderWay⟩ := isUnderWay_iff.1 hunderWay
    have hfits := h.fits who _ (h.loop_of_cycleStage? hstage)
    cases stage with
    | queued => exact absurd hstageUnderWay (by decide)
    | walking cycle => exact .inl hfits
    | marking report gone => exact .inr hfits

omit [FallibleStore σ] in
/-- **What a loop writes, it writes in the phase for it**: identities while it lists, removals while
it tells what is gone. -/
theorem phase_of_write? (h : Phased mayCrash world) {who : Nat} {stage : LoopStage}
    {record : Record} (htask : world.tasks[who]? = some (.loop stage))
    (hwrite : world.write? (.goOn who) = some record) :
    world.service.phase = if record.entry.isPresent then .listing else .diffing := by
  rw [write?, htask, Option.bind_some] at hwrite
  have hfits := h.fits who stage htask
  cases stage with
  | cycling stage =>
    cases stage with
    | queued => exact absurd hwrite (by simp [taskWrite?, cycleWrite?])
    | walking cycle =>
      obtain ⟨identity, -, rfl⟩ := Option.map_eq_some_iff.1 hwrite
      exact hfits
    | marking report gone =>
      obtain ⟨id, -, rfl⟩ := Option.map_eq_some_iff.1 hwrite
      exact hfits
  | _ => exact absurd hwrite (by simp [taskWrite?])

end Phased

theorem Course.phased {mayCrash : Prop} {allowed : World σ → Event σ → Prop} {start world : World σ}
    {log : List Attempt} (h : Course allowed start log world) (hstart : Phased mayCrash start)
    (hallowed : ∀ world event, allowed world event → unattended world event)
    (hcrash : ¬ mayCrash → ∀ world event, allowed world event →
      ∀ who, event = .goOn who → ¬ world.Crashes who) : Phased mayCrash world :=
  h.invariant hstart fun _ _ hevent hadmits hworld => hworld.after (hallowed _ _ hevent) hadmits
    fun hmay who heq => hcrash hmay _ _ hevent who heq

/-- **Nobody but the loop runs cycles, and none of them crashes.** -/
def uncrashed (world : World σ) (event : Event σ) : Prop :=
  unattended world event ∧ ∀ who, event = .goOn who → ¬ world.Crashes who

end World

end DeviceScope
