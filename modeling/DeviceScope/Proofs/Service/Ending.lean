import DeviceScope.Proofs.Service.Line

/-!
# Cycles come to an end, and whoever waits has its turn

A cycle that is under way can always be carried on until it is over, whatever its listing does and
whether or not the service is shutting down: each step brings the end nearer (`CycleStage.rank`,
`World.rank_lt_of_goesOn`), and all that it takes is that time passes. Then it has come to its end,
or its listing has crashed (`World.exists_over`). In either case the turn is passed on
(`World.exists_passed`), and so everybody who stands in line comes to have it (`World.exists_turn`).

Once the service is shutting down, whoever has the turn then is turned away
(`World.exists_cancelled`); otherwise it begins a cycle, if opening the listing does not crash
(`World.exists_underWay`).
-/

namespace DeviceScope

variable {σ : Type}

/-- How far a cycle is from its end: first the listing has to be walked through, page by page, and
then ids are to be marked absent. -/
def CycleStage.rank : CycleStage → Nat × Nat × Nat
  | .queued => (2, 0, 0)
  | .walking cycle => (1, cycle.listing.remaining, cycle.page.length)
  | .marking _ gone => (0, 0, gone.length)

/-- Whether the listing that the cycle walks through, if it has come so far, does not crash. -/
def CycleStage.lasts : CycleStage → Bool
  | .walking cycle => cycle.listing.crash.isNone
  | .queued | .marking _ _ => true

/-- Opening a listing does not crash. -/
def Directory.Opens (directory : Directory) : Prop :=
  directory.openListing?.1.isSome = true

instance (directory : Directory) : Decidable directory.Opens :=
  inferInstanceAs (Decidable (directory.openListing?.1.isSome = true))

theorem Directory.opens_iff {directory : Directory} :
    directory.Opens ↔ directory.reachable = true → directory.crashesNext = false := by
  unfold Opens openListing?
  cases directory.reachable <;> cases directory.crashesNext <;> simp

/-- After a listing was opened, or opening it has crashed, the next one opens. -/
theorem Directory.opens_openListing? {directory : Directory} (later : Option Listing)
    (rest : Directory) (h : directory.openListing? = (later, rest))
    (hopens : directory.Opens ∨ later = none) : rest.Opens := by
  rw [opens_iff] at hopens ⊢
  unfold openListing? at h
  split at h
  · next hunreachable =>
    -- A directory that is out of reach is not touched.
    obtain ⟨rfl, rfl⟩ := Prod.mk.inj h
    intro hreachable
    rw [hreachable] at hunreachable
    exact absurd hunreachable (by decide)
  · split at h
    · obtain ⟨rfl, rfl⟩ := Prod.mk.inj h
      exact fun _ => rfl
    · next hcrashes =>
      obtain ⟨rfl, rfl⟩ := Prod.mk.inj h
      exact fun _ => Bool.eq_false_iff.2 hcrashes

namespace World

variable [FallibleStore σ]

/-! ### Every step brings the end nearer -/

theorem rank_lt_of_goesOn {world : World σ} {stage later : CycleStage}
    (h : (world.cycleStep stage).1 = .goesOn later) :
    Prod.Lex (· < ·) (Prod.Lex (· < ·) (· < ·)) later.rank stage.rank := by
  have hmoves := world.cycleMoves stage
  generalize world.cycleStep stage = result at hmoves h
  cases hmoves with
  | began _ _ =>
    obtain rfl := CycleStep.goesOn.inj h
    exact .left _ _ (by decide)
  | closed _ _ =>
    obtain rfl := CycleStep.goesOn.inj h
    exact .left _ _ (by decide)
  | @fetched cycle page rest _ hmore _ _ hnext =>
    -- The page is full again, but less of the listing remains.
    obtain rfl := CycleStep.goesOn.inj h
    obtain ⟨due, hdue⟩ :=
      Cycle.exists_resume_eq { cycle with listing := rest, page } world.clock
    have hless := Listing.remaining_next_lt hmore
    rw [hnext] at hless
    rw [hdue]
    exact .right _ (.left _ _ hless)
  | @tookIn cycle identity page hpage =>
    obtain rfl := CycleStep.goesOn.inj h
    obtain ⟨due, hdue⟩ := Cycle.exists_resume_eq
      ({ cycle with page }.takeIn world.cache identity world.now).1 world.clock
    have hless : page.length < cycle.page.length := by
      rw [hpage]
      exact Nat.lt_succ_self _
    rw [hdue, Cycle.takeIn_eq]
    exact .right _ (.right _ hless)
  | marked report id gone =>
    obtain rfl := CycleStep.goesOn.inj h
    exact .right _ (.right _ (Nat.lt_succ_self _))
  | cancelled _ => exact absurd h (by simp [endCycle])
  | crashed _ _ => exact absurd h (by simp)
  | fell _ _ _ _ => exact absurd h (by simp)
  | brokeOff _ _ _ _ _ => exact absurd h (by simp [endCycle])
  | tookLong _ _ _ => exact absurd h (by simp [endCycle])
  | completed _ => exact absurd h (by simp [endCycle])

/-- A cycle that goes on is under way. -/
theorem isUnderWay_of_goesOn {world : World σ} {stage later : CycleStage}
    (h : (world.cycleStep stage).1 = .goesOn later) : later.isUnderWay = true := by
  have hturns := turns_of_goesOn h
  cases hturns <;> rfl

/-- Once a cycle is under way it does not crash, unless its listing does. -/
theorem not_crashed_of_lasts {world : World σ} {stage : CycleStage}
    (hunderWay : stage.isUnderWay = true) (hlasts : stage.lasts = true) :
    (world.cycleStep stage).1 ≠ .crashed := by
  have hmoves := world.cycleMoves stage
  generalize world.cycleStep stage = result at hmoves
  intro h
  cases hmoves with
  | crashed _ _ => exact absurd hunderWay (by decide)
  | fell _ _ _ hcrashes =>
    rw [Listing.crashes, Option.isNone_iff_eq_none.1 hlasts] at hcrashes
    exact absurd hcrashes (by simp)
  | _ => exact absurd h (by simp [endCycle])

/-- The listing of a cycle that goes on does not come to crash. -/
theorem lasts_of_goesOn {world : World σ} {stage later : CycleStage}
    (hunderWay : stage.isUnderWay = true) (hlasts : stage.lasts = true)
    (h : (world.cycleStep stage).1 = .goesOn later) : later.lasts = true := by
  have hturns := turns_of_goesOn h
  cases hturns with
  | began _ => exact absurd hunderWay (by decide)
  | fetched _ _ _ hnext =>
    obtain ⟨-, rfl, -⟩ := Listing.of_next_ok hnext
    exact hlasts
  | tookIn _ _ =>
    rw [Cycle.takeIn_eq]
    exact hlasts
  | closed _ _ => rfl
  | marked _ _ _ => rfl

omit [FallibleStore σ] in
/-- A cycle that is under way can go on once the next page has arrived. -/
theorem exists_isCycleReady (world : World σ) (who : Nat) {stage : CycleStage}
    (hunderWay : stage.isUnderWay = true) :
    ∃ clock, world.clock ≤ clock ∧ { world with clock }.isCycleReady who stage = true := by
  cases stage with
  | queued => exact absurd hunderWay (by decide)
  | marking report gone => exact ⟨world.clock, Int.le_refl _, rfl⟩
  | walking cycle =>
    refine ⟨max world.clock (cycle.due.getD world.clock), Int.le_max_left _ _, ?_⟩
    have harrived : cycle.hasPage (max world.clock (cycle.due.getD world.clock)) = true := by
      unfold Cycle.hasPage
      cases cycle.due with
      | none => rfl
      | some due => exact decide_eq_true (Int.le_max_right _ _)
    show cycle.isReady _ = true
    unfold Cycle.isReady
    rw [harrived]
    simp

/-! ### A cycle on its own -/

/-- **Nothing happens but that the task goes on with its cycle**, and that time passes. -/
def pursuing (who : Nat) (world : World σ) (event : Event σ) : Prop :=
  world.isUnderWay who = true ∧
    (event = .goOn who ∨ ∃ clock, event = .clock clock ∧ world.clock ≤ clock)

/-- **A cycle that is under way can be carried on until it is over.** If its listing does not crash,
it comes to its end. -/
theorem exists_over {world : World σ} {who : Nat} (stage : CycleStage)
    (hstage : world.cycleStage? who = some stage) (hunderWay : stage.isUnderWay = true) :
    ∃ log before last, Course (pursuing who) world log before ∧
      before.cycleStage? who = some last ∧ last.isUnderWay = true ∧
      before.isReady who = true ∧ (∀ later, (before.cycleStep last).1 ≠ .goesOn later) ∧
      (stage.lasts = true → last.lasts = true) := by
  obtain ⟨clock, hclock, hready⟩ := exists_isCycleReady world who hunderWay
  have hpursued := (isUnderWay_eq hstage).trans hunderWay
  have hticked : Course (pursuing who) world [] { world with clock } :=
    Course.here.tick clock ⟨hpursued, .inr ⟨clock, rfl, hclock⟩⟩
  have hstage : { world with clock }.cycleStage? who = some stage := hstage
  have hready := (isReady_eq_of_cycleStage? hstage).trans hready
  cases hstep : ({ world with clock }.cycleStep stage).1 with
  | ended outcome =>
    exact ⟨_, _, stage, hticked, hstage, hunderWay, hready, by simp [hstep], id⟩
  | crashed => exact ⟨_, _, stage, hticked, hstage, hunderWay, hready, by simp [hstep], id⟩
  | goesOn later =>
    -- One more step is done, and what is left is less.
    have hlater : ({ world with clock }.step who).cycleStage? who = some later := by
      rw [cycleStage?_step_of_some hstage, hstep]
    have hstepped := hticked.goOn who ⟨hpursued, .inl rfl⟩ hready
    obtain ⟨log, before, last, hbefore, hlast, hlastUnderWay, hlastReady, hover, hlasts⟩ :=
      exists_over later hlater (isUnderWay_of_goesOn hstep)
    exact ⟨_, before, last, hstepped.trans hbefore, hlast, hlastUnderWay, hlastReady, hover,
      fun h => hlasts (lasts_of_goesOn hunderWay h hstep)⟩
termination_by stage.rank
decreasing_by exact rank_lt_of_goesOn hstep

/-- The task of a cycle leaves the others as they are. -/
theorem getElem?_tasks_step_of_cycleStage? {world : World σ} {who other : Nat}
    {stage : CycleStage} (hstage : world.cycleStage? who = some stage) (hother : other ≠ who) :
    (world.step who).tasks[other]? = world.tasks[other]? := by
  obtain ⟨task, hworld⟩ := exists_step_eq_of_cycleStage? hstage
  rw [hworld]
  show ((world.cycleStep stage).2.tasks.set who task)[other]? = _
  rw [List.getElem?_set_ne fun heq => hother heq.symm, tasks_cycleStep]

/-- As long as the cycle is not over, those that wait for the turn wait on. -/
theorem queue_step_of_cycleStage? {world : World σ} {who : Nat} {stage later : CycleStage}
    (hstage : world.cycleStage? who = some stage)
    (hlater : (world.step who).cycleStage? who = some later) :
    (world.step who).service.queue = world.service.queue := by
  cases world.lineMoves (.goOn who) with
  | same _ hsame _ => exact hsame
  | claimed hevent hnone _ _ =>
    rw [← Event.goOn.inj hevent, hstage] at hnone
    exact absurd hnone (by simp)
  | wentOn _ _ _ _ hsame _ => exact hsame
  | left hevent _ _ _ _ hnone =>
    rw [← Event.goOn.inj hevent] at hnone
    exact absurd (hlater.symm.trans hnone) (by simp)

/-- As long as the cycle is under way, nobody comes and nobody goes. -/
theorem Course.kept_of_pursuing {world later : World σ} {who : Nat} {log : List Attempt}
    (h : Course (pursuing who) world log later) (hunderWay : later.isUnderWay who = true) :
    later.service.queue = world.service.queue ∧
      ∀ other, other ≠ who → later.tasks[other]? = world.tasks[other]? := by
  induction h with
  | here => exact ⟨rfl, fun _ _ => rfl⟩
  | @next log between event hcourse hallowed hadmits ih =>
    obtain ⟨hqueue, htasks⟩ := ih hallowed.1
    rcases hallowed.2 with rfl | ⟨clock, rfl, -⟩
    · obtain ⟨stage, hstage, -⟩ := isUnderWay_iff.1 hallowed.1
      obtain ⟨later, hlater, -⟩ := isUnderWay_iff.1 hunderWay
      exact ⟨(queue_step_of_cycleStage? hstage hlater).trans hqueue, fun other hother =>
        (getElem?_tasks_step_of_cycleStage? hstage hother).trans (htasks other hother)⟩
    · exact ⟨hqueue, htasks⟩

/-! ### Cycles only -/

/-- **Nothing happens but that cycles go on**, and that time passes. -/
def cyclesOnly (world : World σ) (event : Event σ) : Prop :=
  (∃ who, event = .goOn who ∧ (world.cycleStage? who).isSome = true) ∨
    ∃ clock, event = .clock clock ∧ world.clock ≤ clock

omit [FallibleStore σ] in
theorem cyclesOnly_goOn {world : World σ} {who : Nat} {stage : CycleStage}
    (h : world.cycleStage? who = some stage) : cyclesOnly world (.goOn who) :=
  .inl ⟨who, rfl, by rw [h]; rfl⟩

omit [FallibleStore σ] in
theorem cyclesOnly_of_pursuing {who : Nat} (world : World σ) (event : Event σ)
    (h : pursuing who world event) : cyclesOnly world event := by
  obtain ⟨hunderWay, rfl | ⟨clock, rfl, hclock⟩⟩ := h
  · obtain ⟨stage, hstage, -⟩ := isUnderWay_iff.1 hunderWay
    exact cyclesOnly_goOn hstage
  · exact .inr ⟨clock, rfl, hclock⟩

theorem shuttingDown_cycleStep (world : World σ) (stage : CycleStage) :
    (world.cycleStep stage).2.service.shuttingDown = world.service.shuttingDown := by
  have hmoves := world.cycleMoves stage
  generalize world.cycleStep stage = result at hmoves
  cases hmoves with
  | began _ _ => exact Service.shuttingDown_publish _ _
  | crashed _ _ => exact Service.shuttingDown_publish _ _
  | closed _ _ => exact Service.shuttingDown_publish _ _
  | _ => rfl

/-- Where the listing opens, and does not crash later, no cycle crashes. -/
theorem not_crashed_of_opens {world : World σ} (hopens : world.directory.Opens)
    {stage : CycleStage} (hlasts : stage.lasts = true) : (world.cycleStep stage).1 ≠ .crashed := by
  cases hunderWay : stage.isUnderWay with
  | true => exact not_crashed_of_lasts hunderWay hlasts
  | false =>
    have hmoves := world.cycleMoves stage
    generalize world.cycleStep stage = result at hmoves
    intro hcrashed
    cases hmoves with
    | crashed _ hopened =>
      unfold Directory.Opens at hopens
      rw [hopened] at hopens
      exact absurd hopens (by simp)
    | fell _ _ _ _ => exact Bool.noConfusion hunderWay
    | _ => exact absurd hcrashed (by simp [endCycle])

theorem opens_cycleStep {world : World σ} (stage : CycleStage) (h : world.directory.Opens) :
    (world.cycleStep stage).2.directory.Opens := by
  have hmoves := world.cycleMoves stage
  generalize world.cycleStep stage = result at hmoves
  cases hmoves with
  | began _ hopened => exact Directory.opens_openListing? _ _ hopened (.inl h)
  | crashed _ hopened => exact Directory.opens_openListing? _ _ hopened (.inr rfl)
  | _ => exact h

/-- While nothing happens but that cycles go on, the service is not shut down, and what the
directory lists can still be listed. -/
theorem Course.kept_of_cyclesOnly {world later : World σ} {log : List Attempt}
    (h : Course cyclesOnly world log later) :
    later.service.shuttingDown = world.service.shuttingDown ∧
      (world.directory.Opens → later.directory.Opens) := by
  refine h.invariant (P := fun later => later.service.shuttingDown = world.service.shuttingDown ∧
    (world.directory.Opens → later.directory.Opens)) ⟨rfl, id⟩ ?_
  rintro between event hallowed - ⟨hshut, hopens⟩
  rcases hallowed with ⟨who, rfl, hsome⟩ | ⟨clock, rfl, -⟩
  · obtain ⟨stage, hstage⟩ := Option.isSome_iff_exists.1 hsome
    obtain ⟨task, hworld⟩ := exists_step_eq_of_cycleStage? hstage
    show (between.step who).service.shuttingDown = _ ∧ (_ → (between.step who).directory.Opens)
    rw [hworld]
    exact ⟨(shuttingDown_cycleStep between stage).trans hshut,
      fun h => opens_cycleStep stage (hopens h)⟩
  · exact ⟨hshut, hopens⟩

/-- The turn was passed on by the task that had it, and nothing else was done. -/
structure Passed (world later : World σ) (who : Nat) : Prop where
  stage_eq : later.cycleStage? who = none
  turn_eq : later.service.turn = world.service.queue.head?
  queue_eq : later.service.queue = world.service.queue.tail
  others : ∀ other, other ≠ who → later.tasks[other]? = world.tasks[other]?

omit [FallibleStore σ] in
/-- Whatever the task itself has done before, it has passed the turn on if it does so now. -/
theorem Passed.after_own {world between later : World σ} {who : Nat}
    (h : Passed between later who) (hqueue : between.service.queue = world.service.queue)
    (hothers : ∀ other, other ≠ who → between.tasks[other]? = world.tasks[other]?) :
    Passed world later who where
  stage_eq := h.stage_eq
  turn_eq := by rw [h.turn_eq, hqueue]
  queue_eq := by rw [h.queue_eq, hqueue]
  others other hother := (h.others other hother).trans (hothers other hother)

/-- A task whose cycle does not go on passes the turn on. -/
theorem passed_step {world : World σ} {who : Nat} {stage : CycleStage}
    (hstage : world.cycleStage? who = some stage)
    (hstep : ∀ later, (world.cycleStep stage).1 ≠ .goesOn later) :
    Passed world (world.step who) who := by
  have hothers : ∀ other, other ≠ who → (world.step who).tasks[other]? = world.tasks[other]? :=
    fun other hother => getElem?_tasks_step_of_cycleStage? hstage hother
  cases world.lineMoves (.goOn who) with
  | same _ _ hstages =>
    -- The cycle is over, so its task is no longer in line.
    have hlater := (hstages who).trans hstage
    rw [show (world.after (.goOn who)).cycleStage? who = _ from
      cycleStage?_step_of_some hstage] at hlater
    split at hlater
    · next later hgoesOn => exact absurd hgoesOn (hstep later)
    · exact absurd hlater (by simp)
  | claimed hevent hnone _ _ =>
    rw [← Event.goOn.inj hevent, hstage] at hnone
    exact absurd hnone (by simp)
  | wentOn hevent hother hgoesOn _ _ _ =>
    rw [← Event.goOn.inj hevent, hstage] at hother
    rw [← Option.some.inj hother] at hgoesOn
    exact absurd hgoesOn (hstep _)
  | left hevent _ _ hturn hqueue hlater =>
    rw [← Event.goOn.inj hevent] at hlater
    exact ⟨hlater, hturn, hqueue, hothers⟩

/-- A cycle that is under way comes to be over, and the turn is passed on. -/
theorem exists_passed_of_isUnderWay {world : World σ} {who : Nat}
    (hunderWay : world.isUnderWay who = true) :
    ∃ log later, Course cyclesOnly world log later ∧ Passed world later who := by
  obtain ⟨stage, hstage, hstageUnderWay⟩ := isUnderWay_iff.1 hunderWay
  obtain ⟨log, before, last, hbefore, hlast, hlastUnderWay, hready, hover, -⟩ :=
    exists_over stage hstage hstageUnderWay
  obtain ⟨hqueue, htasks⟩ :=
    hbefore.kept_of_pursuing ((isUnderWay_eq hlast).trans hlastUnderWay)
  have hpassed := passed_step hlast hover
  exact ⟨_, _, (hbefore.mono cyclesOnly_of_pursuing).goOn who (cyclesOnly_goOn hlast) hready,
    hpassed.after_own hqueue htasks⟩

/-- **Whoever has the turn passes it on.** -/
theorem exists_passed {world : World σ} {who : Nat} (h : world.Orderly)
    (hturn : world.service.turn = some who) :
    ∃ log later, Course cyclesOnly world log later ∧ Passed world later who := by
  have hmem : who ∈ world.service.line := List.mem_append_left _ (Option.mem_toList.2 hturn)
  obtain ⟨stage, hstage⟩ := Option.isSome_iff_exists.1 ((h.mem_line_iff who).1 hmem)
  cases stage with
  | queued =>
    have hready : world.isReady who = true :=
      (isReady_eq_of_cycleStage? hstage).trans (decide_eq_true hturn)
    have hstepped := Course.here.goOn who (cyclesOnly_goOn hstage) hready
    by_cases hgoesOn : ∃ later, (world.cycleStep .queued).1 = .goesOn later
    · -- It begins a cycle, which comes to its end.
      obtain ⟨later, hgoesOn⟩ := hgoesOn
      have hlater : (world.step who).cycleStage? who = some later := by
        rw [cycleStage?_step_of_some hstage, hgoesOn]
      obtain ⟨log, after, hafter, hpassed⟩ := exists_passed_of_isUnderWay
        (isUnderWay_iff.2 ⟨later, hlater, isUnderWay_of_goesOn hgoesOn⟩)
      exact ⟨_, after, hstepped.trans hafter,
        hpassed.after_own (queue_step_of_cycleStage? hstage hlater) fun _ hother =>
          getElem?_tasks_step_of_cycleStage? hstage hother⟩
    · -- It is turned away, or opening its listing crashes.
      exact ⟨_, _, hstepped, passed_step hstage fun later hlater => hgoesOn ⟨later, hlater⟩⟩
  | walking cycle =>
    exact exists_passed_of_isUnderWay (isUnderWay_iff.2 ⟨_, hstage, rfl⟩)
  | marking report gone =>
    exact exists_passed_of_isUnderWay (isUnderWay_iff.2 ⟨_, hstage, rfl⟩)

/-- Where one waits, another one has the turn, and passes it on. -/
theorem exists_passed_of_mem {world : World σ} {who : Nat} (h : world.Orderly)
    (hwaits : who ∈ world.service.queue) :
    ∃ first log later, who ≠ first ∧ Course cyclesOnly world log later ∧
      Passed world later first := by
  obtain ⟨first, hturn⟩ : ∃ first, world.service.turn = some first := by
    cases hturn : world.service.turn with
    | some first => exact ⟨first, rfl⟩
    | none =>
      rw [h.free hturn] at hwaits
      exact absurd hwaits List.not_mem_nil
  obtain ⟨log, later, hlater, hpassed⟩ := exists_passed h hturn
  refine ⟨first, log, later, ?_, hlater, hpassed⟩
  rintro rfl
  exact absurd hwaits (h.not_mem_queue hturn)

/-- **Whoever waits comes to have the turn.** -/
theorem exists_turn_of_getElem? (place : Nat) {world : World σ} {who : Nat} (h : world.Orderly)
    (hplace : world.service.queue[place]? = some who) :
    ∃ log later, Course cyclesOnly world log later ∧ later.service.turn = some who ∧
      later.tasks[who]? = world.tasks[who]? := by
  induction place generalizing world with
  | zero =>
    obtain ⟨first, log, later, hother, hlater, hpassed⟩ :=
      exists_passed_of_mem h (List.mem_of_getElem? hplace)
    refine ⟨log, later, hlater, ?_, hpassed.others who hother⟩
    rw [hpassed.turn_eq, List.head?_eq_getElem?]
    exact hplace
  | succ place ih =>
    obtain ⟨first, log, later, hother, hlater, hpassed⟩ :=
      exists_passed_of_mem h (List.mem_of_getElem? hplace)
    -- The line is shorter by one, and the task has come nearer.
    have hnearer : later.service.queue[place]? = some who := by
      rw [hpassed.queue_eq, List.getElem?_tail]
      exact hplace
    obtain ⟨more, last, hlast, hturn, htask⟩ := ih (hlater.orderly h) hnearer
    exact ⟨_, last, hlater.trans hlast, hturn, htask.trans (hpassed.others who hother)⟩

/-- **Whoever stands in line and has not begun comes to have the turn.** -/
theorem exists_turn {world : World σ} {who : Nat} (h : world.Orderly)
    (hqueued : world.cycleStage? who = some .queued) :
    ∃ log later, Course cyclesOnly world log later ∧ later.service.turn = some who ∧
      later.tasks[who]? = world.tasks[who]? := by
  have hmem : who ∈ world.service.line := (h.mem_line_iff who).2 (by rw [hqueued]; rfl)
  rcases List.mem_append.1 hmem with hturn | hqueue
  · exact ⟨[], world, .here, Option.mem_toList.1 hturn, rfl⟩
  · obtain ⟨place, hplace⟩ := List.getElem?_of_mem hqueue
    exact exists_turn_of_getElem? place h hplace

/-! ### What comes of having the turn -/

/-- **Whoever stands in line begins a cycle**, unless the service is shutting down or opening the
listing crashes. -/
theorem exists_underWay {world : World σ} {who : Nat} (h : world.Orderly)
    (hqueued : world.cycleStage? who = some .queued)
    (hrunning : world.service.shuttingDown = false) (hopens : world.directory.Opens) :
    ∃ log later, Course cyclesOnly world log later ∧ later.isUnderWay who = true := by
  obtain ⟨log, before, hbefore, hturn, htask⟩ := exists_turn h hqueued
  obtain ⟨hshut, hkept⟩ := hbefore.kept_of_cyclesOnly
  have hstage : before.cycleStage? who = some .queued := by
    unfold cycleStage?
    rw [htask]
    exact hqueued
  have hready : before.isReady who = true :=
    (isReady_eq_of_cycleStage? hstage).trans (decide_eq_true hturn)
  -- Nothing keeps the cycle from beginning.
  have hgoesOn : ∃ later, (before.cycleStep .queued).1 = .goesOn later := by
    obtain ⟨listing, hlisting⟩ := Option.isSome_iff_exists.1 (hkept hopens)
    rw [cycleStep, beginCycle, hshut, hrunning, if_neg (by decide)]
    dsimp only
    split
    · exact ⟨_, rfl⟩
    · next hnone => rw [hnone] at hlisting; exact absurd hlisting (by simp)
  obtain ⟨stage, hgoesOn⟩ := hgoesOn
  refine ⟨_, _, hbefore.goOn who (cyclesOnly_goOn hstage) hready, isUnderWay_iff.2
    ⟨stage, ?_, isUnderWay_of_goesOn hgoesOn⟩⟩
  rw [cycleStage?_step_of_some hstage, hgoesOn]

/-- **Whoever stands in line is turned away** once the service is shutting down. -/
theorem exists_cancelled {world : World σ} {who : Nat} (h : world.Orderly)
    (hqueued : world.tasks[who]? = some (.call (.cycling .queued)))
    (hshut : world.service.shuttingDown = true) :
    ∃ log later, Course cyclesOnly world log later ∧
      later.tasks[who]? = some (.call (.done (.ranCycle .cancelled))) := by
  have hstage : world.cycleStage? who = some .queued := cycleStage?_of_task hqueued
  obtain ⟨log, before, hbefore, hturn, htask⟩ := exists_turn h hstage
  have hstill := hbefore.kept_of_cyclesOnly.1.trans hshut
  rw [hqueued] at htask
  have hstage : before.cycleStage? who = some .queued := cycleStage?_of_task htask
  have hready : before.isReady who = true :=
    (isReady_eq_of_cycleStage? hstage).trans (decide_eq_true hturn)
  refine ⟨_, _, hbefore.goOn who (cyclesOnly_goOn hstage) hready, ?_⟩
  rw [task_step, htask, Option.map_some, nextTask, callStep, cycleStep, beginCycle, if_pos hstill]
  rfl

/-- **Whoever stands in line comes to an end** of its cycle. -/
theorem exists_left {world : World σ} {who : Nat} {stage : CycleStage} (h : world.Orderly)
    (hstage : world.cycleStage? who = some stage) :
    ∃ log later, Course cyclesOnly world log later ∧ later.cycleStage? who = none := by
  cases stage with
  | queued =>
    obtain ⟨log, before, hbefore, hturn, -⟩ := exists_turn h hstage
    obtain ⟨more, later, hlater, hpassed⟩ := exists_passed (hbefore.orderly h) hturn
    exact ⟨_, later, hbefore.trans hlater, hpassed.stage_eq⟩
  | walking cycle =>
    obtain ⟨log, later, hlater, hpassed⟩ :=
      exists_passed_of_isUnderWay (isUnderWay_iff.2 ⟨_, hstage, rfl⟩)
    exact ⟨log, later, hlater, hpassed.stage_eq⟩
  | marking report gone =>
    obtain ⟨log, later, hlater, hpassed⟩ :=
      exists_passed_of_isUnderWay (isUnderWay_iff.2 ⟨_, hstage, rfl⟩)
    exact ⟨log, later, hlater, hpassed.stage_eq⟩

end World

end DeviceScope
