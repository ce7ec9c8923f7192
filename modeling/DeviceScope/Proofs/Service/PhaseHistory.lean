import DeviceScope.Proofs.Service.Phases

/-!
# How the phase comes about

What the phase says of the past: the phase of listing is left for that of waiting only after a cycle
that was broken off (`World.WasBrokenOff`), and the phase of diffing is entered only when the
listing was walked to its end (`World.HasWalked`). Either is found by going back along the course to
the step of the loop that has changed the phase. Together with the invariant `World.Phased` this is
`World.phase_follows_loop`.
-/

namespace DeviceScope

variable {σ : Type}

/-- The cycle has begun, and was broken off while its listing was walked through. -/
def CycleOutcome.isBrokenOff : CycleOutcome → Bool
  | .aborted _ _ | .timedOut _ => true
  | _ => false

namespace World

variable [FallibleStore σ]

section Along

variable {mayCrash : Prop} {allowed : World σ → Event σ → Prop} {start world : World σ}
  {log : List Attempt} {who : Nat}

/-- What happens while the loop is at rest after a cycle. -/
def resting (who : Nat) : World σ → Event σ → Prop :=
  fun world _ => world.tasks[who]? = some (.loop .rest)

/-- **The last cycle of the task was broken off**: it has ended so at some moment on the way, and
the loop has been at rest since. -/
def WasBrokenOff (allowed : World σ → Event σ → Prop) (start world : World σ) (who : Nat) : Prop :=
  ∃ earlier before stage outcome since, Course allowed start earlier before ∧
    before.cycleStage? who = some stage ∧ (before.cycleStep stage).1 = .ended outcome ∧
    outcome.isBrokenOff = true ∧ Course (resting who) (before.step who) since world

/-- A loop whose cycle has just ended in the phase of listing, although the service runs, has had
it broken off. -/
theorem isBrokenOff_of_loopStep {stage : LoopStage} (htask : world.tasks[who]? = some (.loop stage))
    (hfits : stage.Fits world.service) (hrunning : world.service.shuttingDown = false)
    (hrest : (world.loopStep who stage).1 = .rest)
    (hlisting : (world.loopStep who stage).2.service.phase = .listing) :
    ∃ last outcome, world.cycleStage? who = some last ∧
      (world.cycleStep last).1 = .ended outcome ∧ outcome.isBrokenOff = true := by
  cases stage with
  | cycling stage =>
    have hstage : world.cycleStage? who = some stage := cycleStage?_of_task htask
    rw [loopStep_cycling] at hrest hlisting
    have hmoves := world.cycleMoves stage
    generalize hresult : world.cycleStep stage = result at hmoves hrest hlisting
    cases hmoves with
    | cancelled hshut => exact absurd (hshut.symm.trans hrunning) (by decide)
    | brokeOff _ _ _ _ _ => exact ⟨_, _, hstage, by rw [hresult]; rfl, rfl⟩
    | tookLong _ _ _ => exact ⟨_, _, hstage, by rw [hresult]; rfl, rfl⟩
    | completed report =>
      -- One that was completed has left the phase of listing behind.
      have hdiffing : world.service.phase = .diffing := hfits
      exact absurd (hdiffing.symm.trans hlisting) (by decide)
    | _ => exact absurd hrest (by simp [CycleStep.loopStage])
  | top =>
    rw [loopStep, hrunning] at hrest
    exact absurd hrest (by simp)
  | rest =>
    rw [loopStep, hrunning, if_neg (by decide)] at hrest
    dsimp only at hrest
    split at hrest <;> exact absurd hrest (by simp)
  | parked due => exact absurd hrest (by simp [loopStep])
  | done => exact absurd hrest (by simp [loopStep])

/-- **A loop that is at rest in the phase of listing** has had its last cycle broken off. -/
theorem Course.wasBrokenOff (h : Course allowed start log world) (hstart : Phased True start)
    (hallowed : ∀ world event, allowed world event → unattended world event)
    (hnew : start.tasks[who]? ≠ some (.loop .rest))
    (hrest : world.tasks[who]? = some (.loop .rest))
    (hrunning : world.service.shuttingDown = false) (hlisting : world.service.phase = .listing) :
    WasBrokenOff allowed start world who := by
  induction h with
  | here => exact absurd hrest hnew
  | @next log world event hcourse hevent hadmits ih =>
    have hphased := hcourse.phased hstart hallowed (fun hmay => absurd trivial hmay)
    have hbefore := running_of_after hrunning
    rcases loop_after_cases hrest with ⟨rfl, stage, htask, hlater⟩ | ⟨hne, htask⟩ | ⟨-, -, htop⟩
    · -- The loop has just come to rest, and this it does when a cycle has ended.
      have hservice : (world.step who).service = (world.loopStep who stage).2.service :=
        service_step htask
      obtain ⟨last, outcome, hstage, hended, hbroken⟩ := isBrokenOff_of_loopStep htask
        (hphased.fits who stage htask) hbefore hlater.symm (by rw [← hservice]; exact hlisting)
      exact ⟨log, world, last, outcome, [], hcourse, hstage, hended, hbroken, .here⟩
    · -- Something else has happened while the loop was at rest.
      have hphase := hphased.phase_after_of_isLooping hadmits
        (isLooping_iff.2 ⟨.rest, htask, by simp⟩) hne
      obtain ⟨earlier, before, stage, outcome, since, hearlier, hstage, hended, hbroken, hsince⟩ :=
        ih htask hbefore (hphase.symm.trans hlisting)
      exact ⟨earlier, before, stage, outcome, _, hearlier, hstage, hended, hbroken,
        hsince.next htask hadmits⟩
    · exact absurd htop (by simp)

/-- **A step of the loop leaves the phase as it is**, or begins a cycle, or closes the listing, or
follows a cycle. -/
theorem phase_loopStep_cases (who : Nat) (stage : LoopStage)
    (hphase : world.service.phase ≠ .stopped) :
    (world.loopStep who stage).2.service.phase = world.service.phase ∨
      (world.loopStep who stage).2.service.phase = .listing ∨
      (world.loopStep who stage).2.service.phase = .diffing ∧
        (∃ cycle, stage = .cycling (.walking cycle) ∧ cycle.page = [] ∧
          cycle.listing.hasNext = false) ∨
      (world.loopStep who stage).2.service.phase = .waiting ∧ stage = .rest ∧
        world.service.shuttingDown = false := by
  have hmoves := world.loopMoves who stage
  generalize world.loopStep who stage = result at hmoves
  cases hmoves with
  | claimed _ => exact .inl (Service.phase_claimTurn _ _)
  | resumed hrunning _ =>
    exact .inr (.inr (.inr ⟨Service.phase_publish hphase _, rfl, hrunning⟩))
  | parked hrunning _ =>
    exact .inr (.inr (.inr ⟨Service.phase_publish hphase _, rfl, hrunning⟩))
  | cycling hmove =>
    cases hmove with
    | began _ _ => exact .inr (.inl (Service.phase_beginCycle hphase))
    | crashed _ _ => exact .inr (.inl (Service.phase_beginCycle hphase))
    | closed hpage hend =>
      exact .inr (.inr (.inl ⟨Service.phase_publish hphase _, _, rfl, hpage, hend⟩))
    | _ => exact .inl rfl
  | _ => exact .inl rfl

/-- A loop leaves the phase of listing for that of waiting only when it is at rest. -/
theorem rest_of_loopStep {stage : LoopStage} (hlisting : world.service.phase = .listing)
    (hwaiting : (world.loopStep who stage).2.service.phase = .waiting) :
    stage = .rest ∧ world.service.shuttingDown = false := by
  rcases phase_loopStep_cases who stage (by rw [hlisting]; decide) with
    hsame | hbegan | ⟨hclosed, -⟩ | ⟨-, hrest⟩
  · exact absurd (hwaiting.symm.trans (hsame.trans hlisting)) (by decide)
  · exact absurd (hwaiting.symm.trans hbegan) (by decide)
  · exact absurd (hwaiting.symm.trans hclosed) (by decide)
  · exact hrest

/-- **The phase of listing is left for that of waiting** only by a loop whose cycle was broken
off. -/
theorem Course.exists_wasBrokenOff {event : Event σ} (h : Course allowed start log world)
    (hstart : Phased True start)
    (hallowed : ∀ world event, allowed world event → unattended world event)
    (hnew : ∀ who : Nat, start.tasks[who]? ≠ some (.loop .rest))
    (hlisting : world.service.phase = .listing)
    (hwaiting : (world.after event).service.phase = .waiting) :
    ∃ who, event = .goOn who ∧ WasBrokenOff allowed start world who := by
  have hphased := h.phased hstart hallowed fun hmay => absurd trivial hmay
  cases phaseMoves hphased.calls event with
  | same hphase _ _ =>
    rw [hphase, hlisting] at hwaiting
    exact absurd hwaiting (by decide)
  | stopped _ _ hservice =>
    rw [hservice] at hwaiting
    exact absurd hwaiting (by simp [Service.stop])
  | @loop who stage hevent htask _ hservice =>
    rw [hservice] at hwaiting
    obtain ⟨rfl, hrunning⟩ := rest_of_loopStep hlisting hwaiting
    exact ⟨who, hevent, h.wasBrokenOff hstart hallowed (hnew who) htask hrunning hlisting⟩

/-- **The task has walked through its listing**: it has opened it at some moment on the way, when it
had waited for its turn, has been in the middle of this cycle ever since, and has taken in all that
the listing shows. -/
def HasWalked (allowed : World σ → Event σ → Prop) (start world : World σ) (who : Nat) : Prop :=
  ∃ cycle earlier before since, world.IsWalking who cycle ∧ Course allowed start earlier before ∧
    before.cycleStage? who = some .queued ∧ Course (during who) (before.step who) since world ∧
    cycle.Follows before.directory.listing before.directory.listing.pages.flatten ∧
    cycle.page = [] ∧ cycle.listing.hasNext = false

/-- A loop enters the phase of diffing only when its listing is over. -/
theorem closed_of_loopStep {stage : LoopStage} (hphase : world.service.phase ≠ .stopped)
    (hnot : world.service.phase ≠ .diffing)
    (hdiffing : (world.loopStep who stage).2.service.phase = .diffing) :
    ∃ cycle, stage = .cycling (.walking cycle) ∧ cycle.page = [] ∧
      cycle.listing.hasNext = false := by
  rcases phase_loopStep_cases who stage hphase with hsame | hbegan | ⟨-, hclosed⟩ | ⟨hwaiting, -⟩
  · exact absurd (hsame.symm.trans hdiffing) hnot
  · exact absurd (hdiffing.symm.trans hbegan) (by decide)
  · exact hclosed
  · exact absurd (hdiffing.symm.trans hwaiting) (by decide)

/-- **The phase of diffing is entered** only by a loop that has walked through its listing. -/
theorem Course.hasWalked {event : Event σ} (h : Course allowed start log world)
    (hphased : Phased mayCrash world) (hnew : ∀ who, start.isUnderWay who = false)
    (hnot : world.service.phase ≠ .diffing)
    (hdiffing : (world.after event).service.phase = .diffing) :
    ∃ who, event = .goOn who ∧ HasWalked allowed start world who := by
  cases phaseMoves hphased.calls event with
  | same hphase _ _ => exact absurd (hphase.symm.trans hdiffing) hnot
  | stopped _ _ hservice =>
    rw [hservice] at hdiffing
    exact absurd hdiffing (by simp [Service.stop])
  | @loop who stage hevent htask hlooping hservice =>
    rw [hservice] at hdiffing
    obtain ⟨cycle, rfl, hpage, hend⟩ := closed_of_loopStep
      (hphased.ne_stopped (isLooping_iff.2 ⟨stage, htask, hlooping⟩)) hnot hdiffing
    have hwalking : world.cycleStage? who = some (.walking cycle) := cycleStage?_of_task htask
    -- The cycle began with the listing that it has followed since.
    obtain ⟨earlier, before, since, hearlier, hqueued, hsince⟩ :=
      h.exists_opening (hnew who) (isUnderWay_iff.2 ⟨_, hwalking, rfl⟩)
    obtain ⟨written, hfollows⟩ := hsince.exists_follows hqueued hwalking rfl
    have hwritten : written = before.directory.listing.pages.flatten :=
      Cycle.Follows.written_eq hfollows hpage hend
    subst hwritten
    exact ⟨who, hevent, cycle, earlier, before, since, hwalking, hearlier, hqueued, hsince,
      hfollows, hpage, hend⟩

end Along

/-- **The phase follows the loop.** Where nobody but the loop runs cycles and the service is started
once, whatever else happens,

* every change of the phase that is published is a documented one;
* listing is followed by waiting only after a cycle that was broken off, and diffing is entered only
  when the listing was walked to its end;
* the loop writes down identities only in the phase of listing, and removals only in that of
  diffing;
* as long as no listing crashes, the phase is listing or diffing exactly if a cycle is in progress,
  whenever nothing can go on. -/
theorem phase_follows_loop {clock : Int} {directory : Directory} {cache : Cache σ}
    {config : Config} {log : List Attempt} {world : World σ}
    (h : Course unattended (start clock directory cache config) log world) :
    (∀ event, world.Admits event →
      world.service.Advances (world.after event).service ∧
      (world.service.phase = .listing → (world.after event).service.phase = .waiting →
        ∃ who, event = .goOn who ∧
          WasBrokenOff unattended (start clock directory cache config) world who) ∧
      (world.service.phase ≠ .diffing → (world.after event).service.phase = .diffing →
        ∃ who, event = .goOn who ∧
          HasWalked unattended (start clock directory cache config) world who)) ∧
    (∀ who (stage : LoopStage) record, world.tasks[who]? = some (.loop stage) →
      world.write? (.goOn who) = some record →
      world.service.phase = if record.entry.isPresent then .listing else .diffing) ∧
    (Course uncrashed (start clock directory cache config) log world →
      (∀ who, world.isReady who = false) →
      ((world.service.phase = .listing ∨ world.service.phase = .diffing) ↔
        ∃ who, world.isUnderWay who = true)) := by
  have hphased := h.phased (phased_start True clock directory cache config)
    (fun _ _ hallowed => hallowed) (fun hmay => absurd trivial hmay)
  refine ⟨fun event _ => ⟨hphased.advances event, ?_, ?_⟩,
    fun _ _ _ => hphased.phase_of_write?, ?_⟩
  · intro hlisting hwaiting
    exact h.exists_wasBrokenOff (phased_start True clock directory cache config)
      (fun _ _ hallowed => hallowed) (fun _ => by simp [start]) hlisting hwaiting
  · intro hnot hdiffing
    exact h.hasWalked hphased (fun _ => rfl) hnot hdiffing
  · intro huncrashed hquiet
    refine Phased.underWay_iff ?_ (h.orderly (orderly_start clock directory cache config)) hquiet
    exact huncrashed.phased (phased_start False clock directory cache config)
      (fun _ _ hallowed => hallowed.1) fun _ _ _ hallowed => hallowed.2

/-- The loop has begun a cycle and waits for the first page. -/
theorem phase_follows_loop_listing :
    ∃ (log : List Attempt) (directory : Directory) (world : World MemoryStore),
      Course uncrashed (start 0 directory .blank .standard) log world ∧
      (∀ who, world.isReady who = false) ∧ world.service.phase = .listing ∧
      ∃ who, world.isUnderWay who = true := by
  let directory : Directory :=
    { Directory.empty.upsert (.ofDevice "d" "1" .none .enabled) with
      pageDelay := some (.ofSeconds 1) }
  let first : World MemoryStore := start 0 directory .blank .standard
  have hgoOn : ∀ (world : World MemoryStore) who,
      world.directory.Opens ∧ (world.cycleStage? who).all CycleStage.lasts = true →
      uncrashed world (.goOn who) := by
    rintro world who ⟨hopens, hlasts⟩
    refine ⟨⟨startsOnce_of_ne (by simp), by simp⟩, fun other heq => ?_⟩
    rw [← Event.goOn.inj heq]
    exact not_crashes_of_opens hopens hlasts
  have hfirst : uncrashed first .startService :=
    ⟨⟨fun _ => by decide +kernel, by simp⟩, fun _ heq => absurd heq (by simp)⟩
  have hstarted : Course uncrashed first _ first.startService := Course.here.next hfirst trivial
  have hwatching := hstarted.goOn 0 (hgoOn _ _ (by decide +kernel)) (by decide +kernel)
  have hlooping := hwatching.goOn 0 (hgoOn _ _ (by decide +kernel)) (by decide +kernel)
  have hqueued := hlooping.goOn 1 (hgoOn _ _ (by decide +kernel)) (by decide +kernel)
  have hlisting := hqueued.goOn 1 (hgoOn _ _ (by decide +kernel)) (by decide +kernel)
  let world : World MemoryStore := (((first.startService.step 0).step 0).step 1).step 1
  -- Of the two tasks the one waits for its tick and the other one for its page.
  have hquiet : ∀ who, world.isReady who = false := by
    intro who
    have hlength : world.tasks.length = 2 := by decide +kernel
    rcases Nat.lt_or_ge who 2 with hlt | hge
    · have hboth : ∀ who < 2, world.isReady who = false := by decide +kernel
      exact hboth who hlt
    · rw [isReady, List.getElem?_eq_none (by omega)]
      rfl
  have hphase : world.service.phase = .listing := by decide +kernel
  have hcourse : Course unattended first _ world := hlisting.mono fun _ _ hallowed => hallowed.1
  obtain ⟨-, -, hunderWay⟩ := phase_follows_loop hcourse
  exact ⟨_, directory, world, hlisting, hquiet, hphase, (hunderWay hlisting hquiet).1 (.inl hphase)⟩

end World

end DeviceScope
