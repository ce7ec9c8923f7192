import DeviceScope.Proofs.Cache.Presence
import DeviceScope.Proofs.Service.Answering
import DeviceScope.Proofs.Service.Journal

/-!
# The counters of a gateway

The cache and the service count what they do in several places: a look-up when it is asked for, a
refresh that has failed when it ends, a cycle when it begins, and what it has done when it returns,
which it may do in several ways or not at all. What they have counted is what the journal of the
gateway tells (`World.Balances`), whatever has happened and whatever has failed
(`World.counters_balance`).

Each part is a step and a run: what one event counts is what it enters in the journal
(`World.counts_after`, `World.stats_after`), so what a course has counted is what the journal tells
at its end (`World.Journaled.counts_eq`, `World.Journaled.stats_eq`).
-/

namespace DeviceScope

variable {σ : Type}

/-! ### What the service counts -/

namespace Service.Stats

/-- The statistics with all that a journal tells of cycles. -/
def enter (stats : Stats) (journal : Journal) : Stats :=
  { stats with
    cyclesStarted := stats.cyclesStarted + journal.total Happening.starts
    cyclesCompleted := stats.cyclesCompleted + journal.total Happening.completions
    cyclesAborted := stats.cyclesAborted + journal.total Happening.aborts
    cyclesTimedOut := stats.cyclesTimedOut + journal.total Happening.timeouts
    identitiesListed := stats.identitiesListed + journal.total (·.report.listed)
    removalsApplied := stats.removalsApplied + journal.total (·.report.removed)
    itemFailures := stats.itemFailures + journal.total (·.report.failures) }

/-- A cycle that has returned is counted as the journal tells. -/
theorem account_eq (stats : Stats) (outcome : CycleOutcome) :
    stats.account outcome = stats.enter [.returned outcome] := by
  cases outcome <;> rfl

/-- Requests are not counted with the cycles. -/
theorem enter_append (stats : Stats) (wakeRequests later : Nat) (journal more : Journal) :
    { ({ stats.enter journal with wakeRequests }).enter more with wakeRequests := later } =
      { stats.enter (journal ++ more) with wakeRequests := later } := by
  simp only [enter, Journal.total_append, Nat.add_assoc]

end Service.Stats

/-! ### What the cache holds -/

namespace Cache

/-- **The numbers of records** fit each other, and the ids that are listed as present. -/
structure CountsRecords (cache : Cache σ) : Prop where
  records : cache.stats.records = cache.stats.present + cache.stats.absent
  enabled : cache.stats.enabled ≤ cache.stats.present
  present : cache.stats.present = cache.presentIds.length
  /-- No id is listed twice. -/
  nodup : cache.presentIds.Nodup

theorem countsRecords {cache : Cache σ} (h : cache.records.KeyedBy Record.id) :
    cache.CountsRecords := by
  constructor
  case records =>
    exact (Nat.add_sub_cancel' List.countP_le_length).symm
  case enabled =>
    apply List.countP_mono_left
    intro entry _ henabled
    -- Only an identity can be enabled.
    cases entry with
    | present identity => rfl
    | absent => exact absurd henabled (by decide)
  case present =>
    show (cache.records.values.map Record.entry).countP Entry.isPresent = _
    rw [List.countP_map, List.countP_eq_length_filter, presentIds, List.length_map]
    rfl
  case nodup => exact nodup_presentIds h

theorem counts_of_create [KeyValueStore σ] {store : σ} {config : Config} {cache : Cache σ}
    (h : create store config = .ok cache) : cache.lookups = 0 ∧ cache.retained = 0 := by
  rw [create] at h
  split at h
  · exact absurd h (by simp)
  · split at h
    · exact absurd h (by simp)
    · rw [← Except.ok.inj h]
      exact ⟨rfl, rfl⟩

end Cache

/-! ### What a summary counts -/

/-- The number of refreshes that a summary tells of. -/
def RefreshSummary.total (summary : RefreshSummary) : Nat :=
  summary.inScope + summary.outOfScope + summary.retained

theorem RefreshSummary.total_add (summary : RefreshSummary) (outcome : RefreshOutcome) :
    (summary.add outcome).total = summary.total + 1 := by
  unfold total add
  cases outcome <;> dsimp only <;> omega

/-- How far a call can have come that was called for so many ids: what the summary tells of, the id
that was asked for and the ids that are left are all of them. -/
def CallStage.Sums (count : Nat) : CallStage → Prop
  | .begun call => ∃ ids, call = .refreshMany ids ∧ ids.length = count
  | .asking _ purpose _ | .heard _ purpose _ | .concluded _ purpose _ =>
    ∃ rest summary, purpose = .refreshMany rest summary ∧ summary.total + 1 + rest.length = count
  | .cycling _ => False
  | .done reply => ∃ summary, reply = .refreshedMany summary ∧ summary.total = count

namespace World

variable [FallibleStore σ]

omit [FallibleStore σ] in
theorem sums_askMany (world : World σ) (ids : List String) (summary : RefreshSummary) :
    (world.askMany ids summary).1.Sums (summary.total + ids.length) := by
  cases ids with
  | nil => exact ⟨summary, rfl, rfl⟩
  | cons id rest =>
    refine ⟨rest, summary, rfl, ?_⟩
    rw [List.length_cons]
    omega

/-- Whatever becomes of a refresh, it is counted in the summary. -/
theorem sums_callStep {world : World σ} {who : Nat} {stage : CallStage} {count : Nat}
    (h : stage.Sums count) : (world.callStep who stage).1.Sums count := by
  cases stage with
  | begun call =>
    obtain ⟨ids, rfl, rfl⟩ := h
    have hsums := sums_askMany world ids .none
    rwa [show RefreshSummary.none.total + ids.length = ids.length from Nat.zero_add _] at hsums
  | asking id purpose due => exact h
  | heard id purpose answer => exact h
  | concluded id purpose outcome =>
    obtain ⟨rest, summary, rfl, rfl⟩ := h
    have hsums := sums_askMany world rest (summary.add outcome)
    rwa [RefreshSummary.total_add] at hsums
  | cycling stage => exact absurd h (by simp [CallStage.Sums])
  | done reply => exact h

/-- **Several ids that are refreshed together** are all counted in the summary, whatever happens
meanwhile and whatever fails. -/
theorem Course.refreshedMany {world later : World σ} {ids : List String} {log : List Attempt}
    {reply : Reply} (h : Course anything (world.begin (.refreshMany ids)) log later)
    (hreply : later.reply? world.tasks.length = some reply) :
    ∃ summary, reply = .refreshedMany summary ∧
      summary.inScope + summary.outOfScope + summary.retained = ids.length := by
  obtain ⟨stage, htask, hstage⟩ := h.stage_induction (task_begin world (.refreshMany ids))
    (P := fun _ _ stage => stage.Sums ids.length) ⟨ids, rfl, rfl⟩
    (fun _ _ _ _ _ _ hsums => sums_callStep hsums) (fun _ _ _ _ _ _ _ _ hsums => hsums)
  obtain rfl := stage_eq_of_reply? hreply htask
  exact hstage

/-! ### What one event counts -/

/-- **The cache and the directory count look-ups** as the journal tells. -/
structure Counts (world later : World σ) (entries : Journal) : Prop where
  lookups : later.cache.lookups = world.cache.lookups + entries.total Happening.lookups
  retained : later.cache.retained = world.cache.retained + entries.total Happening.retentions
  reachable : later.directory.reachable = world.directory.reachable
  /-- A directory that cannot be reached counts nothing. -/
  received : world.directory.reachable = true →
    later.directory.lookups = world.directory.lookups + entries.total Happening.answers

omit [FallibleStore σ] in
/-- What counts nothing is a step that enters nothing. -/
theorem Counts.nothing {world later : World σ}
    (hlookups : later.cache.lookups = world.cache.lookups)
    (hretained : later.cache.retained = world.cache.retained)
    (hdirectory : later.directory = world.directory) : Counts world later [] :=
  ⟨hlookups, hretained, congrArg _ hdirectory, fun _ => congrArg _ hdirectory⟩

/-- A call counts that it asks, and what becomes of the refresh; the directory counts that it has
answered. -/
theorem counts_callStep (world : World σ) (who : Nat) {stage : CallStage}
    (hnone : Task.cycleStage? (.call stage) = none) :
    Counts world (world.callStep who stage).2
      (world.callStep who stage).1.happening?.toList := by
  have hturns := world.callTurns who stage
  generalize world.callStep who stage = result at hturns ⊢
  cases hturns with
  | replied _ reply => exact .nothing rfl rfl rfl
  | asked _ id purpose => exact ⟨rfl, rfl, rfl, fun _ => rfl⟩
  | heard id purpose due =>
    refine ⟨rfl, rfl, ?_, fun hreachable => ?_⟩
    · show (world.directory.lookup (.parse id)).2.reachable = _
      unfold Directory.lookup
      dsimp only
      split <;> rfl
    · show (world.directory.lookup (.parse id)).2.lookups = _
      unfold Directory.lookup
      dsimp only
      rw [if_pos hreachable]
      rfl
  | concluded id purpose answer =>
    refine ⟨Cache.lookups_conclude _ _ _ _, ?_, rfl, fun _ => rfl⟩
    have hretained := Cache.retained_conclude world.cache id answer world.now
    show (world.cache.conclude id answer world.now).2.retained = _ +
      Journal.total [.refreshed id (world.cache.conclude id answer world.now).1] _
    rw [hretained]
    cases (world.cache.conclude id answer world.now).1 <;> rfl
  | wrote _ reply =>
    exact .nothing (Cache.settings_write _ _).1 (Cache.settings_write _ _).2.1 rfl
  | claimed => exact .nothing rfl rfl rfl
  | wentOn _ => exact absurd hnone (by simp [Task.cycleStage?])
  | ended _ => exact absurd hnone (by simp [Task.cycleStage?])
  | crashed _ => exact absurd hnone (by simp [Task.cycleStage?])

/-- A cycle asks for no look-up. -/
theorem counts_cycleStep (world : World σ) (stage : CycleStage) :
    Counts world (world.cycleStep stage).2 [] := by
  have hcache := cache_cycleStep world stage
  have hsettings := Cache.settings_writeIf world.cache (world.cycleWrite? stage)
  rw [← hcache] at hsettings
  -- Opening a listing is the only thing that a cycle does to the directory.
  have hdirectory : (world.cycleStep stage).2.directory.reachable = world.directory.reachable ∧
      (world.cycleStep stage).2.directory.lookups = world.directory.lookups := by
    have hopened : ∀ {listing : Option Listing} {directory : Directory},
        world.directory.openListing? = (listing, directory) →
        directory.reachable = world.directory.reachable ∧
          directory.lookups = world.directory.lookups := by
      intro listing directory h
      rw [Directory.openListing?] at h
      split at h
      · rw [← (Prod.mk.inj h).2]
        exact ⟨rfl, rfl⟩
      · split at h <;> rw [← (Prod.mk.inj h).2] <;> exact ⟨rfl, rfl⟩
    have hmoves := world.cycleMoves stage
    generalize world.cycleStep stage = result at hmoves
    cases hmoves with
    | began _ h => exact hopened h
    | crashed _ h => exact hopened h
    | _ => exact ⟨rfl, rfl⟩
  exact ⟨hsettings.1, hsettings.2.1, hdirectory.1, fun _ => hdirectory.2⟩

/-- **The directory goes on counting**: whatever changes about it, it can be reached, and its count
is not touched. -/
def keepsCounting (world : World σ) (event : Event σ) : Prop :=
  ∀ directory, event = .directory directory →
    directory.reachable = true ∧ directory.lookups = world.directory.lookups

theorem counts_step (world : World σ) (who : Nat) :
    Counts world (world.step who) (world.entries (.goOn who)) := by
  cases hstage : world.cycleStage? who with
  | some stage =>
    obtain ⟨task, hworld⟩ := exists_step_eq_of_cycleStage? hstage
    have hcounts := counts_cycleStep world stage
    rw [hworld]
    -- No entry about a cycle is a look-up, a refresh or an answer.
    rcases entries_cases_of_cycleStage? hstage with h | h | h | h | ⟨outcome, h⟩ <;> rw [h] <;>
      exact ⟨hcounts.lookups, hcounts.retained, hcounts.reachable, hcounts.received⟩
  | none =>
    cases htask : world.tasks[who]? with
    | none =>
      rw [entries_eq_nil hstage fun _ => by rw [htask]; simp, step_of_none htask]
      exact .nothing rfl rfl rfl
    | some task =>
      have hnone := (cycleStage?_of_task htask).symm.trans hstage
      rw [step_eq htask]
      cases task with
      | call stage =>
        have hcounts := counts_callStep world who hnone
        rw [entries_of_call htask hnone]
        exact ⟨hcounts.lookups, hcounts.retained, hcounts.reachable, hcounts.received⟩
      | loop stage =>
        rw [entries_eq_nil hstage fun _ => by rw [htask]; simp]
        obtain ⟨cycle, rfl⟩ | ⟨-, later, service, hstep, -⟩ := loopStep_cases world who stage
        · exact absurd hnone (by simp [Task.cycleStage?])
        · rw [nextWorld, hstep]
          exact .nothing rfl rfl rfl
      | supervisor stage =>
        rw [entries_eq_nil hstage fun _ => by rw [htask]; simp]
        rw [nextWorld, nextTask]
        have hmoves := world.supervisorMoves stage
        generalize world.supervisorStep stage = result at hmoves ⊢
        cases hmoves <;> exact .nothing rfl rfl rfl

/-- **What an event makes the cache count** is what it enters in the journal. -/
theorem counts_after (world : World σ) (event : Event σ) :
    (world.after event).cache.lookups =
        world.cache.lookups + (world.entries event).total Happening.lookups ∧
      (world.after event).cache.retained =
        world.cache.retained + (world.entries event).total Happening.retentions := by
  cases event with
  | goOn who => exact ⟨(counts_step world who).lookups, (counts_step world who).retained⟩
  | _ => exact ⟨rfl, rfl⟩

/-- **What an event makes the directory count**, if it goes on counting. -/
theorem received_after {world : World σ} {event : Event σ} (hcounting : world.keepsCounting event)
    (hreachable : world.directory.reachable = true) :
    (world.after event).directory.reachable = true ∧
      (world.after event).directory.lookups =
        world.directory.lookups + (world.entries event).total Happening.answers := by
  cases event with
  | goOn who =>
    have hcounts := counts_step world who
    exact ⟨hcounts.reachable.trans hreachable, hcounts.received hreachable⟩
  | directory directory => exact hcounting directory rfl
  | _ => exact ⟨hreachable, rfl⟩

/-- A cycle is counted when it begins and when it returns. -/
theorem stats_cycleStep (world : World σ) (stage : CycleStage) :
    (world.cycleStep stage).2.service.stats =
      world.service.stats.enter ((world.cycleStep stage).1.happening? stage).toList := by
  have hended : ∀ outcome, (world.endCycle outcome).2.service.stats =
      world.service.stats.enter [.returned outcome] :=
    fun outcome => Service.Stats.account_eq world.service.stats outcome
  have hmoves := world.cycleMoves stage
  generalize world.cycleStep stage = result at hmoves ⊢
  cases hmoves with
  | cancelled _ => exact hended _
  | began _ _ => exact Service.stats_publish _ _
  | crashed _ _ => exact Service.stats_publish _ _
  | closed _ _ => exact Service.stats_publish _ _
  | brokeOff _ _ _ _ _ => exact hended _
  | tookLong _ _ _ => exact hended _
  | completed _ => exact hended _
  | fell _ _ _ _ => rfl
  | fetched _ _ _ _ _ => rfl
  | tookIn _ => rfl
  | marked _ _ _ => rfl

/-- **What an event makes the service count** is what it enters in the journal; requests are counted
apart from that. -/
theorem stats_after (world : World σ) (event : Event σ) :
    (world.after event).service.stats =
      { world.service.stats.enter (world.entries event) with
        wakeRequests := (world.after event).service.stats.wakeRequests } := by
  cases event with
  | goOn who =>
    show (world.step who).service.stats =
      { world.service.stats.enter (world.entries (.goOn who)) with
        wakeRequests := (world.step who).service.stats.wakeRequests }
    cases hstage : world.cycleStage? who with
    | some stage =>
      obtain ⟨task, hworld⟩ := exists_step_eq_of_cycleStage? hstage
      have hstats : (world.step who).service.stats =
          world.service.stats.enter (world.entries (.goOn who)) := by
        rw [entries_of_cycleStage? hstage, hworld]
        exact stats_cycleStep world stage
      rw [hstats]
    | none =>
      rw [(stepsAside_step hstage).stats_eq]
      rcases entries_cases_of_none hstage with h | ⟨id, h⟩ | ⟨id, h⟩ | ⟨id, outcome, h⟩ <;>
        rw [h] <;> rfl
  | requestRefresh =>
    show world.service.requestRefresh.stats = { world.service.stats.enter [] with
      wakeRequests := world.service.requestRefresh.stats.wakeRequests }
    rw [Service.requestRefresh_eq]
    rfl
  | _ => rfl

/-! ### What a course has counted -/

section Along

variable {allowed : World σ → Event σ → Prop} {start world : World σ} {journal : Journal}

/-- **The cache has counted** the look-ups and the refreshes that failed. -/
theorem Journaled.counts_eq (h : Journaled allowed start journal world) :
    world.cache.lookups = start.cache.lookups + journal.total Happening.lookups ∧
      world.cache.retained = start.cache.retained + journal.total Happening.retentions := by
  induction h with
  | here => exact ⟨rfl, rfl⟩
  | @next journal world event _ _ _ ih =>
    have hnext := counts_after world event
    constructor
    · rw [hnext.1, ih.1, Journal.total_append, Nat.add_assoc]
    · rw [hnext.2, ih.2, Journal.total_append, Nat.add_assoc]

/-- **The directory has counted** the look-ups that it has answered, if it goes on counting. -/
theorem Journaled.received_eq (h : Journaled allowed start journal world)
    (hcounting : ∀ world event, allowed world event → world.keepsCounting event)
    (hreachable : start.directory.reachable = true) :
    world.directory.reachable = true ∧
      world.directory.lookups = start.directory.lookups + journal.total Happening.answers := by
  induction h with
  | here => exact ⟨hreachable, rfl⟩
  | next _ hallowed _ ih =>
    have hnext := received_after (hcounting _ _ hallowed) ih.1
    refine ⟨hnext.1, ?_⟩
    rw [hnext.2, ih.2, Journal.total_append, Nat.add_assoc]

/-- **The service has counted** all that the journal tells of cycles. -/
theorem Journaled.stats_eq (h : Journaled allowed start journal world) :
    world.service.stats = { start.service.stats.enter journal with
      wakeRequests := world.service.stats.wakeRequests } := by
  induction h with
  | here => rfl
  | @next journal world event _ _ _ ih =>
    refine (stats_after world event).trans ?_
    rw [ih]
    exact Service.Stats.enter_append _ _ _ _ _

end Along

end World

/-- Every cycle that is counted has begun or has crashed at once. -/
theorem Journal.total_starts (journal : Journal) :
    journal.total Happening.starts =
      journal.total Happening.begins + journal.total Happening.crashesAtOnce := by
  rw [← total_add]
  apply congrArg journal.total
  ext happening
  cases happening <;> rfl

/-- Every cycle that was in progress and is no more was completed, was broken off, took too long or
has crashed. -/
theorem Journal.total_ends (journal : Journal) :
    journal.total Happening.ends = journal.total Happening.completions +
      journal.total Happening.aborts + journal.total Happening.timeouts +
        journal.total Happening.falls := by
  rw [← total_add, ← total_add, ← total_add]
  apply congrArg journal.total
  ext happening
  cases happening with
  | returned outcome => cases outcome <;> rfl
  | _ => rfl

namespace World

variable [FallibleStore σ]

/-- **The counters account for everything that has happened** since a start. Here `allowed` says
what may have happened. -/
structure Balances (allowed : World σ → Event σ → Prop) (start : World σ) (journal : Journal)
    (world : World σ) : Prop where
  /-- The cache has counted every look-up that the directory was asked for. -/
  asked : world.cache.stats.lookups = journal.total Happening.lookups
  /-- Each of them was answered, unless its answer is still awaited. -/
  answered : world.awaited + journal.total Happening.answers = journal.total Happening.lookups
  /-- A directory that can be reached, and whose own count is not touched, has counted them, too. -/
  received : (∀ world event, allowed world event → world.keepsCounting event) →
    start.directory.reachable = true →
    world.directory.lookups + world.awaited =
      start.directory.lookups + world.cache.stats.lookups
  /-- The refreshes that left the record as it was. -/
  retained : world.cache.stats.retained = journal.total Happening.retentions
  /-- Ids that are refreshed together from now on will all be counted. -/
  refreshedMany : ∀ ids log later reply,
    Course anything (world.begin (.refreshMany ids)) log later →
    later.reply? world.tasks.length = some reply →
    ∃ summary, reply = .refreshedMany summary ∧
      summary.inScope + summary.outOfScope + summary.retained = ids.length
  /-- Every cycle that has begun has come to an end in one of these ways, or is in progress. A crash
  is one at the opening of a listing or at one of its pages. -/
  started : world.service.stats.cyclesStarted =
    world.service.stats.cyclesCompleted + world.service.stats.cyclesAborted +
      world.service.stats.cyclesTimedOut + journal.total Happening.crashes + world.underWay
  /-- Whenever none is in progress, every cycle that has begun has come to an end. -/
  settled : (∀ who, world.isUnderWay who = false) → world.service.stats.cyclesStarted =
    world.service.stats.cyclesCompleted + world.service.stats.cyclesAborted +
      world.service.stats.cyclesTimedOut + journal.total Happening.crashes
  completed : world.service.stats.cyclesCompleted = journal.total Happening.completions
  aborted : world.service.stats.cyclesAborted = journal.total Happening.aborts
  timedOut : world.service.stats.cyclesTimedOut = journal.total Happening.timeouts
  /-- What the cycles that have returned have reported. -/
  listed : world.service.stats.identitiesListed = journal.total (·.report.listed)
  removed : world.service.stats.removalsApplied = journal.total (·.report.removed)
  failures : world.service.stats.itemFailures = journal.total (·.report.failures)
  records : world.cache.CountsRecords

/-- **The counters account for everything that has happened**, whatever calls came in, cycles were
run and failures there were, and whether or not the service was shut down. -/
theorem counters_balance {store : σ} {config : Config} {cache : Cache σ} {clock : Int}
    {directory : Directory} {allowed : World σ → Event σ → Prop} {journal : Journal}
    {world : World σ} (hcreate : Cache.create store config = .ok cache)
    (hjournal : Journaled allowed (start clock directory cache config) journal world) :
    Balances allowed (start clock directory cache config) journal world := by
  have hzero := Cache.counts_of_create hcreate
  have hasked : world.cache.lookups = journal.total Happening.lookups := by
    rw [hjournal.counts_eq.1]
    show cache.lookups + _ = _
    rw [hzero.1, Nat.zero_add]
  have hanswered : world.awaited + journal.total Happening.answers =
      journal.total Happening.lookups :=
    hjournal.awaited_eq.trans (Nat.zero_add _)
  -- A service that has not been started has counted nothing.
  have hstats := hjournal.stats_eq
  have hcompleted : world.service.stats.cyclesCompleted = journal.total Happening.completions := by
    rw [hstats]
    exact Nat.zero_add _
  have haborted : world.service.stats.cyclesAborted = journal.total Happening.aborts := by
    rw [hstats]
    exact Nat.zero_add _
  have htimedOut : world.service.stats.cyclesTimedOut = journal.total Happening.timeouts := by
    rw [hstats]
    exact Nat.zero_add _
  have hstarted : world.service.stats.cyclesStarted =
      world.service.stats.cyclesCompleted + world.service.stats.cyclesAborted +
        world.service.stats.cyclesTimedOut + journal.total Happening.crashes + world.underWay := by
    have hcounted : world.service.stats.cyclesStarted = journal.total Happening.starts := by
      rw [hstats]
      exact Nat.zero_add _
    have hbegun : world.underWay + journal.total Happening.ends =
        journal.total Happening.begins :=
      hjournal.underWay_eq.trans (Nat.zero_add _)
    have hcrashed : journal.total Happening.crashes =
        journal.total Happening.crashesAtOnce + journal.total Happening.falls :=
      journal.total_add _ _
    rw [hcounted, hcompleted, haborted, htimedOut, hcrashed, Journal.total_starts, ← hbegun,
      Journal.total_ends]
    omega
  have hkeyed : world.cache.records.KeyedBy Record.id := by
    obtain ⟨log, hcourse⟩ := hjournal.course
    rw [hcourse.records_eq]
    exact Attempt.keyedBy_replay (Cache.keyedBy_of_create hcreate) log
  constructor
  case asked => exact hasked
  case answered => exact hanswered
  case received =>
    intro hcounting hreachable
    have hreceived := (hjournal.received_eq hcounting hreachable).2
    show _ = _ + world.cache.lookups
    omega
  case retained =>
    show world.cache.retained = _
    rw [hjournal.counts_eq.2]
    show cache.retained + _ = _
    rw [hzero.2, Nat.zero_add]
  case refreshedMany =>
    intro ids log later reply hcourse hreply
    exact hcourse.refreshedMany hreply
  case started => exact hstarted
  case settled =>
    intro hnone
    rw [hstarted, underWay_eq_zero hnone, Nat.add_zero]
  case completed => exact hcompleted
  case aborted => exact haborted
  case timedOut => exact htimedOut
  case listed => rw [hstats]; exact Nat.zero_add _
  case removed => rw [hstats]; exact Nat.zero_add _
  case failures => rw [hstats]; exact Nat.zero_add _
  case records => exact Cache.countsRecords hkeyed

/-- A look-up fails, a cycle crashes, another one is completed, and a third is cancelled. -/
theorem counters_balance_failed_crashed_and_cancelled :
    let directory : Directory :=
      { Directory.empty with lookupFailure := some (.timeout "slow"), crashesNext := true }
    ∃ (journal : Journal) (world : World MemoryStore),
      Journaled keepsCounting (start 0 directory .blank .standard) journal world ∧
      journal = [.asked "a", .answered "a", .refreshed "a" .retained, .crashed, .began,
        .returned (.completed .none), .returned .cancelled] ∧
      Balances keepsCounting (start 0 directory .blank .standard) journal world ∧
      world.directory.lookups = 1 ∧ world.service.stats.cyclesStarted = 2 ∧
      world.service.stats.cyclesCompleted = 1 := by
  intro directory
  let first : World MemoryStore := start 0 directory .blank .standard
  have hgoOn : ∀ (world : World MemoryStore) who, world.keepsCounting (.goOn who) :=
    fun _ _ _ h => absurd h (by simp)
  have hcall : ∀ (world : World MemoryStore) call, world.keepsCounting (.call call) :=
    fun _ _ _ h => absurd h (by simp)
  -- The only id is asked for, and the directory fails.
  let refreshed : World MemoryStore :=
    ((((first.begin (.refreshMany ["a"])).step 0).step 0).step 0).step 0
  have hrefreshed : Journaled keepsCounting first
      [.asked "a", .answered "a", .refreshed "a" .retained] refreshed :=
    ((((Journaled.here.call (.refreshMany ["a"]) (hcall _ _)).goOn 0 (hgoOn _ _)
      (by decide +kernel)).goOn 0 (hgoOn _ _) (by decide +kernel)).goOn 0 (hgoOn _ _)
      (by decide +kernel)).goOn 0 (hgoOn _ _) (by decide +kernel)
  -- The first cycle crashes, and the next one walks through an empty listing.
  let crashed : World MemoryStore := ((refreshed.begin .runCycle).step 1).step 1
  have hcrashed : Journaled keepsCounting first _ crashed :=
    ((hrefreshed.call .runCycle (hcall _ _)).goOn 1 (hgoOn _ _) (by decide +kernel)).goOn 1
      (hgoOn _ _) (by decide +kernel)
  let completed : World MemoryStore :=
    ((((crashed.begin .runCycle).step 2).step 2).step 2).step 2
  have hcompleted : Journaled keepsCounting first _ completed :=
    ((((hcrashed.call .runCycle (hcall _ _)).goOn 2 (hgoOn _ _) (by decide +kernel)).goOn 2
      (hgoOn _ _) (by decide +kernel)).goOn 2 (hgoOn _ _) (by decide +kernel)).goOn 2
      (hgoOn _ _) (by decide +kernel)
  -- The service is shut down, and the last cycle does not begin.
  have hallowed : completed.keepsCounting .shutdown := fun _ h => absurd h (by simp)
  let world : World MemoryStore := (((completed.after .shutdown).begin .runCycle).step 3).step 3
  have hworld : Journaled keepsCounting first _ world :=
    (((hcompleted.next hallowed trivial).call .runCycle (hcall _ _)).goOn 3 (hgoOn _ _)
      (by decide +kernel)).goOn 3 (hgoOn _ _) (by decide +kernel)
  refine ⟨_, world, hworld, by decide +kernel, counters_balance Cache.create_blank hworld, ?_⟩
  decide +kernel

end World

end DeviceScope
