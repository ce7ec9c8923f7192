import DeviceScope.Proofs.Service.Moves
import DeviceScope.Proofs.Service.Refreshing

/-!
# Cycles that come to their end

A cycle that is run alone is completed, if the turn is free, the service is not shutting down, and
the directory is listed without failure or crash (`World.exists_completed`). The induction follows
the data: what is left of a page (`World.exists_page_end`), what remains of the listing
(`World.exists_marking`), and what is left to be marked absent
(`World.exists_completed_of_marking`). That writes may fail on the way makes no difference.
-/

namespace DeviceScope.World

variable {σ : Type} [FallibleStore σ]

section Along

variable {start world : World σ} {who : Nat} {log : List Attempt}

/-- A cycle that can go on does so. -/
theorem Course.advanceCycle {stage later : CycleStage} (h : Course (lone who) start log world)
    (htask : world.tasks[who]? = some (.call (.cycling stage)))
    (hready : world.isCycleReady who stage = true)
    (hstep : (world.cycleStep stage).1 = .goesOn later) :
    Course (lone who) start (log ++ world.attempts (.goOn who)) (world.step who) ∧
      (world.step who).tasks[who]? = some (.call (.cycling later)) := by
  obtain ⟨hcourse, hnext⟩ := h.advance htask hready
  refine ⟨hcourse, ?_⟩
  rw [hnext, callStep_cycling, hstep]
  rfl

/-- Everything on a page is taken in. -/
theorem exists_page_end (page : List Identity) {cycle : Cycle} (hpage : cycle.page = page)
    (htask : world.tasks[who]? = some (.call (.cycling (.walking cycle)))) :
    ∃ log later after, Course (lone who) world log later ∧
      later.tasks[who]? = some (.call (.cycling (.walking after))) ∧
      after.page = [] ∧ after.listing = cycle.listing := by
  induction page generalizing world cycle with
  | nil => exact ⟨[], world, cycle, .here, htask, hpage, rfl⟩
  | cons identity rest ih =>
    have hready : world.isCycleReady who (.walking cycle) = true := by
      show cycle.isReady world.clock = true
      rw [Cycle.isReady, hpage]
      rfl
    -- One identity is taken in, and the rest of the page is what the induction is about.
    obtain ⟨due, hdue⟩ := Cycle.exists_resume_eq
      ({ cycle with page := rest }.takeIn world.cache identity world.now).1 world.clock
    have hstep : (world.cycleStep (.walking cycle)).1 = .goesOn (.walking
        { ({ cycle with page := rest }.takeIn world.cache identity world.now).1 with due }) := by
      rw [cycleStep, walk, hpage, ← hdue]
    obtain ⟨hfirst, hnext⟩ := Course.here.advanceCycle htask hready hstep
    have htaken : ({ ({ cycle with page := rest }.takeIn world.cache identity world.now).1 with
        due } : Cycle).page = rest ∧
        ({ ({ cycle with page := rest }.takeIn world.cache identity world.now).1 with
          due } : Cycle).listing = cycle.listing := by
      rw [Cycle.takeIn_eq]
      exact ⟨rfl, rfl⟩
    obtain ⟨more, later, after, hlater, hafter, hempty, hlisting⟩ := ih htaken.1 hnext
    exact ⟨_, later, after, hfirst.trans hlater, hafter, hempty, hlisting.trans htaken.2⟩

/-- A page arrives once it is due, and less of the listing remains. -/
theorem exists_fetched {cycle : Cycle} (hpage : cycle.page = [])
    (hmore : cycle.listing.hasNext = true) (hsound : cycle.listing.IsSound)
    (htask : world.tasks[who]? = some (.call (.cycling (.walking cycle)))) :
    ∃ log later after, Course (lone who) world log later ∧
      later.tasks[who]? = some (.call (.cycling (.walking after))) ∧
      after.listing.remaining < cycle.listing.remaining ∧ after.listing.IsSound := by
  -- The clock moves to the moment at which the page is due, so it is in time.
  let clock : Int := cycle.due.getD world.clock
  have harrived : cycle.hasPage clock = true := by
    unfold Cycle.hasPage
    cases hdue : cycle.due <;> simp [clock, hdue]
  have hticked := Course.here.tick clock (lone_clock who world clock)
  have hnext : ∃ page rest, cycle.listing.next = (.ok page, rest) ∧ rest.IsSound := by
    unfold Listing.next
    rw [hsound.failure_eq]
    exact ⟨_, _, rfl, rfl, hsound.crash_eq⟩
  obtain ⟨page, rest, hnext, hrest⟩ := hnext
  have hless : rest.remaining < cycle.listing.remaining := by
    have hlt := Listing.remaining_next_lt hmore
    rwa [hnext] at hlt
  have hready : { world with clock }.isCycleReady who (.walking cycle) = true := by
    show cycle.isReady clock = true
    rw [Cycle.isReady, harrived]
    simp
  obtain ⟨due, hdue⟩ := Cycle.exists_resume_eq { cycle with listing := rest, page } clock
  have hstep : ({ world with clock }.cycleStep (.walking cycle)).1 =
      .goesOn (.walking { cycle with listing := rest, page, due }) := by
    rw [cycleStep, walk, hpage]
    show ({ world with clock }.fetch cycle).1 = _
    rw [fetch, hmore, if_neg (by decide), if_pos harrived, Listing.crashes_eq_false hsound.crash_eq,
      if_neg (by decide), hnext, ← hdue]
  obtain ⟨hfetched, hafter⟩ := hticked.advanceCycle htask hready hstep
  exact ⟨_, _, _, hfetched, hafter, hless, hrest⟩

/-- When nothing is left of the listing, it is known what is gone. -/
theorem exists_closed {cycle : Cycle} (hpage : cycle.page = [])
    (hend : cycle.listing.hasNext = false)
    (htask : world.tasks[who]? = some (.call (.cycling (.walking cycle)))) :
    ∃ log later report gone, Course (lone who) world log later ∧
      later.tasks[who]? = some (.call (.cycling (.marking report gone))) := by
  have hready : world.isCycleReady who (.walking cycle) = true := by
    show cycle.isReady world.clock = true
    rw [Cycle.isReady, hend]
    simp
  have hstep : (world.cycleStep (.walking cycle)).1 =
      .goesOn (.marking cycle.report (cycle.gone world.cache)) := by
    rw [cycleStep, walk, hpage]
    show (world.fetch cycle).1 = _
    rw [fetch, hend]
    rfl
  obtain ⟨hclosed, hmarking⟩ := Course.here.advanceCycle htask hready hstep
  exact ⟨_, _, _, _, hclosed, hmarking⟩

/-- **A listing with nothing wrong is walked to its end.** -/
theorem exists_marking (remaining : Nat) {cycle : Cycle}
    (hremaining : cycle.listing.remaining = remaining) (hsound : cycle.listing.IsSound)
    (htask : world.tasks[who]? = some (.call (.cycling (.walking cycle)))) :
    ∃ log later report gone, Course (lone who) world log later ∧
      later.tasks[who]? = some (.call (.cycling (.marking report gone))) := by
  induction remaining using Nat.strongRecOn generalizing world cycle with
  | ind remaining ih =>
    -- First what is left of the page, then one more page or the end of the listing.
    obtain ⟨taken, middle, between, hmiddle, hwalking, hempty, hlisting⟩ :=
      exists_page_end cycle.page rfl htask
    rw [← hlisting] at hremaining hsound
    by_cases hmore : between.listing.hasNext = true
    · obtain ⟨fetched, turned, after, hturned, hafter, hless, hrest⟩ :=
        exists_fetched hempty hmore hsound hwalking
      rw [hremaining] at hless
      obtain ⟨walked, later, report, gone, hlater, hmarking⟩ := ih _ hless rfl hrest hafter
      exact ⟨_, later, report, gone, (hmiddle.trans hturned).trans hlater, hmarking⟩
    · obtain ⟨closed, later, report, gone, hlater, hmarking⟩ :=
        exists_closed hempty (Bool.eq_false_iff.2 hmore) hwalking
      exact ⟨_, later, report, gone, hmiddle.trans hlater, hmarking⟩

/-- **What is gone is marked absent**, one id after another, and then the cycle is completed. -/
theorem exists_completed_of_marking (gone : List String) {report : Report}
    (htask : world.tasks[who]? = some (.call (.cycling (.marking report gone)))) :
    ∃ log later report, Course (lone who) world log later ∧
      later.reply? who = some (.ranCycle (.completed report)) := by
  induction gone generalizing world report with
  | nil =>
    obtain ⟨hdone, hnext⟩ := Course.here.advance htask rfl
    exact ⟨_, _, report, hdone, reply?_eq_some_iff.2 hnext⟩
  | cons id gone ih =>
    obtain ⟨hmarked, hnext⟩ := Course.here.advanceCycle htask rfl rfl
    obtain ⟨log, later, report, hlater, hreply⟩ := ih hnext
    exact ⟨_, later, report, hmarked.trans hlater, hreply⟩

end Along

/-- **Nothing stands in the way of a cycle**: the directory can be listed, nobody has the turn, and
the service is not shutting down. -/
structure Unhindered (world : World σ) : Prop where
  reachable_eq : world.directory.reachable = true
  listingFailure_eq : world.directory.listingFailure = none
  crashesNext_eq : world.directory.crashesNext = false
  pageCrash_eq : world.directory.pageCrash = none
  turn_eq : world.service.turn = none
  shuttingDown_eq : world.service.shuttingDown = false

/-- A cycle that has its turn begins with the listing of the directory. -/
theorem exists_walking {world : World σ} {who : Nat}
    (htask : world.tasks[who]? = some (.call (.cycling .queued)))
    (hturn : world.service.turn = some who) (hrunning : world.service.shuttingDown = false)
    (hreachable : world.directory.reachable = true)
    (hcrashes : world.directory.crashesNext = false) :
    ∃ log later cycle, Course (lone who) world log later ∧
      later.tasks[who]? = some (.call (.cycling (.walking cycle))) ∧
      cycle.listing = world.directory.listing := by
  have hopened : ∃ directory, world.directory.openListing? =
      (some world.directory.listing, directory) := by
    rw [Directory.openListing?, hreachable, hcrashes]
    exact ⟨_, rfl⟩
  obtain ⟨directory, hopened⟩ := hopened
  have hbegun : ∃ timeout, (world.cycleStep .queued).1 =
      .goesOn (.walking (.start world.directory.listing timeout world.clock)) := by
    rw [cycleStep, beginCycle, hrunning, hopened]
    exact ⟨_, rfl⟩
  obtain ⟨timeout, hbegun⟩ := hbegun
  have hready : world.isCycleReady who .queued = true := decide_eq_true hturn
  obtain ⟨hwalking, hnext⟩ := Course.here.advanceCycle htask hready hbegun
  exact ⟨_, _, _, hwalking, hnext, rfl⟩

/-- **A cycle that is run alone is completed**, if nothing stands in its way and time passes. -/
theorem exists_completed {world : World σ} (h : world.Unhindered) :
    ∃ log later report, Course (lone world.tasks.length) (world.begin .runCycle) log later ∧
      later.reply? world.tasks.length = some (.ranCycle (.completed report)) := by
  let who : Nat := world.tasks.length
  obtain ⟨hclaimed, hqueued⟩ := Course.here.advance (task_begin world .runCycle) rfl
  -- The turn is free, so the call has it at once.
  have hstep : (world.begin .runCycle).step who =
      ((world.begin .runCycle).beginCall who .runCycle).2.setTask who (.call (.cycling .queued)) :=
    step_of_call (task_begin world .runCycle)
  have hservice : ((world.begin .runCycle).step who).service =
      { world.service with turn := some who } := by
    rw [hstep]
    show world.service.claimTurn who = _
    rw [Service.claimTurn, h.turn_eq]
  have hdirectory : ((world.begin .runCycle).step who).directory = world.directory := by
    rw [hstep]
    rfl
  obtain ⟨begun, walking, cycle, hwalking, htask, hlisting⟩ := exists_walking hqueued
    (by rw [hservice]) (by rw [hservice]; exact h.shuttingDown_eq)
    (by rw [hdirectory]; exact h.reachable_eq) (by rw [hdirectory]; exact h.crashesNext_eq)
  have hsound : cycle.listing.IsSound := by
    rw [hlisting, hdirectory, Directory.listing, if_pos h.reachable_eq]
    exact ⟨h.listingFailure_eq, h.pageCrash_eq⟩
  -- The listing is walked to its end, and what is gone is marked absent.
  obtain ⟨walked, middle, report, gone, hmiddle, htask⟩ := exists_marking _ rfl hsound htask
  obtain ⟨marked, later, report, hlater, hreply⟩ := exists_completed_of_marking gone htask
  exact ⟨_, later, report, ((hclaimed.trans hwalking).trans hmiddle).trans hlater, hreply⟩

end DeviceScope.World
