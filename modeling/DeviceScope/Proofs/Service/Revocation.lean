import DeviceScope.Proofs.Cache.Mirror
import DeviceScope.Proofs.Service.Walking

/-!
# Why an id is held to be out of scope

A record that held an identity says that its id is out of scope only if there was a cause for it
(`World.Cause`): somebody removed the id, or the directory was asked for it and denied it, or a
cycle came to the end of a listing that does not show it. That something cannot be reached, breaks
off, takes too long or cannot be written is no cause (`World.revoked_only_for_cause`).
-/

namespace DeviceScope.World

variable {σ : Type} [FallibleStore σ]

/-- The directory has stated that it holds nothing under an id. -/
def IsDenial (answer : Except DirectoryError (Option Identity)) : Prop :=
  answer = .ok none ∨ ∃ id message, answer = .error (.invalidState id message)

/-- **A cause to hold an id to be out of scope** once a task has gone on, in a world that a course
has led to. -/
inductive Cause (start world : World σ) (who : Nat) (id : String) : Prop where
  /-- The task was to remove this id. -/
  | removed (h : world.tasks[who]? = some (.call (.begun (.removal id))))
  /-- The task had asked the directory for this id, and the directory denied it. -/
  | denied {asking : World σ} {earlier later : List Attempt}
    (hreached : Course anything start earlier asking) (hasking : asking.IsAsking who id)
    (hdenial : IsDenial (asking.answer id))
    (hlater : Course anything (asking.step who) later world)
    (hheard : world.HasHeard who id (asking.answer id))
  /-- The task had begun a cycle with the listing of what the directory held then, and has been in
  the middle of it ever since. It came to the end of this listing, which does not show the id, and
  is marking ids absent, this one before others. -/
  | unlisted {before closing : World σ} {earlier middle later : List Attempt} {cycle : Cycle}
    {taken : List (List Identity)} {report : Report} {gone : List String}
    (hreached : Course anything start earlier before)
    (hqueued : before.cycleStage? who = some .queued)
    (hwalks : Course (during who) (before.step who) middle closing)
    (hwalking : closing.IsWalking who cycle)
    (hwalked : Listing.Walked before.directory.listing taken cycle.listing)
    (hpage : cycle.page = []) (hend : cycle.listing.hasNext = false)
    (hunlisted : ∀ identity ∈ before.directory.listing.pages.flatten, identity.id ≠ id)
    (hmarks : Course (during who) (closing.step who) later world)
    (hmarking : world.cycleStage? who = some (.marking report (id :: gone)))

/-- **The answer that a task has heard** was given to it by the directory at some moment on the way,
when it had asked for it. -/
theorem Course.exists_asking {start world : World σ} {log : List Attempt} {who : Nat} {id : String}
    {answer : Except DirectoryError (Option Identity)} (h : Course anything start log world)
    (hstart : ¬ start.HasHeard who id answer) (hheard : world.HasHeard who id answer) :
    ∃ earlier asking later, Course anything start earlier asking ∧ asking.IsAsking who id ∧
      answer = asking.answer id ∧ Course anything (asking.step who) later world := by
  -- Going back along the course, the answer was known before or was heard just now.
  induction h with
  | here => exact absurd hheard hstart
  | @next log world event hcourse _ hadmits ih =>
    rcases hasHeard_after_cases hheard with ⟨-, hsame⟩ | ⟨rfl, hasking, hanswer⟩
    · obtain ⟨earlier, asking, later, hreached, hasking, hanswer, hsince⟩ := ih hsame
      exact ⟨earlier, asking, _, hreached, hasking, hanswer, hsince.next trivial hadmits⟩
    · exact ⟨log, world, [], hcourse, hasking, hanswer, .here⟩

omit [FallibleStore σ] in
/-- A cycle writes an absent record only for the id that it is to mark next. -/
theorem marking_of_cycleWrite? {world : World σ} {stage : CycleStage} {record : Record}
    (h : world.cycleWrite? stage = some record) (habsent : record.entry = .absent) :
    ∃ report gone, stage = .marking report (record.id :: gone) := by
  cases stage with
  | queued => exact absurd h (by simp [cycleWrite?])
  | walking cycle =>
    -- What is written of a page is present.
    obtain ⟨identity, -, rfl⟩ := Option.map_eq_some_iff.1 h
    exact absurd habsent (by simp [Record.present])
  | marking report gone =>
    obtain ⟨id, hid, rfl⟩ := Option.map_eq_some_iff.1 h
    obtain ⟨rest, rfl⟩ := List.head?_eq_some_iff.1 hid
    exact ⟨report, rest, rfl⟩

/-- An answer that asks for an absent record is a denial. -/
theorem isDenial_of_ofAnswer? {id : String} {answer : Except DirectoryError (Option Identity)}
    {now : Timestamp} {record : Record} (h : Record.ofAnswer? id answer now = some record)
    (habsent : record.entry = .absent) : IsDenial answer ∧ record.id = id := by
  rw [Record.ofAnswer?.eq_def] at h
  split at h
  · rw [← Option.some.inj h] at habsent
    exact absurd habsent (by simp [Record.present])
  · rw [← Option.some.inj h]
    exact ⟨.inl rfl, rfl⟩
  · rw [← Option.some.inj h]
    exact ⟨.inr ⟨_, _, rfl⟩, rfl⟩
  · exact absurd h (by simp)

/-- **An id that a cycle marks absent** is one that its listing does not show. -/
theorem Course.cause_of_marking {start world : World σ} {log : List Attempt} {who : Nat}
    {id : String} {report : Report} {gone : List String} (h : Course anything start log world)
    (hstart : start.tasks = [])
    (hmarking : world.cycleStage? who = some (.marking report (id :: gone))) :
    Cause start world who id := by
  have hidle : start.isUnderWay who = false := by
    rw [isUnderWay, cycleStage?, hstart]
    rfl
  have hunderWay : world.isUnderWay who = true := isUnderWay_iff.2 ⟨_, hmarking, rfl⟩
  -- The cycle has a beginning, and between it and now the end of its listing.
  obtain ⟨earlier, before, later, hreached, hqueued, hsince⟩ := h.exists_opening hidle hunderWay
  obtain ⟨middle, closing, later, cycle, hwalks, hwalking, hpage, hend, hmarks, hgone⟩ :=
    hsince.exists_closing hqueued hmarking
  obtain ⟨written, hfollows⟩ := hwalks.exists_follows hqueued hwalking rfl
  obtain ⟨taken, hwalked, -⟩ := hfollows.fetched
  have hunlisted := (hfollows.mem_gone_iff hpage hend _ _).1 (hgone.mem List.mem_cons_self)
  exact .unlisted hreached hqueued hwalks hwalking hwalked hpage hend hunlisted.2 hmarks hmarking

/-- **Every absent record that is written has a cause.** -/
theorem Course.cause_of_write? {start world : World σ} {log : List Attempt}
    (h : Course anything start log world) (hstart : start.tasks = []) {event : Event σ}
    {record : Record} (hwrite : world.write? event = some record)
    (habsent : record.entry = .absent) :
    ∃ who, event = .goOn who ∧ Cause start world who record.id := by
  cases event with
  | goOn who =>
    refine ⟨who, rfl, ?_⟩
    obtain ⟨task, htask, htaskWrite⟩ := Option.bind_eq_some_iff.1 hwrite
    -- A task that runs a cycle is marking the id absent, whether it is a call or the loop.
    have hcycle : ∀ stage, task.cycleStage? = some stage →
        world.cycleWrite? stage = some record → Cause start world who record.id := by
      intro stage hstage hcycleWrite
      obtain ⟨report, gone, rfl⟩ := marking_of_cycleWrite? hcycleWrite habsent
      exact h.cause_of_marking hstart (Option.bind_eq_some_iff.2 ⟨task, htask, hstage⟩)
    cases task with
    | supervisor stage => exact absurd htaskWrite (by simp [taskWrite?])
    | loop stage =>
      cases stage with
      | cycling stage => exact hcycle stage rfl htaskWrite
      | _ => exact absurd htaskWrite (by simp [taskWrite?])
    | call stage =>
      cases stage with
      | cycling stage => exact hcycle stage rfl htaskWrite
      -- What is written of an answer is absent only if the answer is a denial.
      | heard id purpose answer =>
        obtain ⟨hdenial, hid⟩ := isDenial_of_ofAnswer? htaskWrite habsent
        have hheard : world.HasHeard who id answer := by
          rw [HasHeard, htask]
          rfl
        have hunheard : ¬ start.HasHeard who id answer := by
          rw [HasHeard, hstart]
          simp
        obtain ⟨earlier, asking, later, hreached, hasking, rfl, hlater⟩ :=
          h.exists_asking hunheard hheard
        rw [hid]
        exact .denied hreached hasking hdenial hlater hheard
      | begun call =>
        cases call with
        | update identity =>
          obtain rfl := Option.some.inj htaskWrite
          exact absurd habsent (by simp [Record.present])
        | removal id =>
          obtain rfl := Option.some.inj htaskWrite
          exact .removed htask
        | _ => exact absurd htaskWrite (by simp [taskWrite?, callWrite?])
      | _ => exact absurd htaskWrite (by simp [taskWrite?, callWrite?])
  | _ => exact absurd hwrite (by simp [write?])

/-- **Revocation only for cause.** Let anything happen to a gateway, and then one thing more. No
record is lost by it. If an id was present and is absent now, a task went on that had a cause for
it, and the store has taken the record of it. -/
theorem revoked_only_for_cause (clock : Int) (directory : Directory) (cache : Cache σ)
    (config : Config) {log : List Attempt} {world : World σ}
    (h : Course anything (World.start clock directory cache config) log world)
    (event : Event σ) :
    (∀ id, world.cache.records.contains id = true →
      (world.after event).cache.records.contains id = true) ∧
    ∀ id known revoked, world.cache.record? id = some known → known.entry.isPresent = true →
      (world.after event).cache.record? id = some revoked → revoked.entry = .absent →
      ∃ who, event = .goOn who ∧ Cause (World.start clock directory cache config) world who id ∧
        (⟨revoked, true⟩ : Attempt) ∈ world.attempts event := by
  refine ⟨fun id hid => contains_after event hid, ?_⟩
  intro id known revoked hknown hpresent hrevoked habsent
  -- Either the record has not changed, or it is one that was written just now.
  rcases record?_after_cases world event id with
    hsame | ⟨attempt, hattempt, hsucceeded, hid, hwrite, hget⟩
  · rw [hsame, hknown] at hrevoked
    obtain rfl := Option.some.inj hrevoked
    rw [Entry.isPresent, habsent] at hpresent
    exact absurd hpresent (by decide)
  · rw [hrevoked] at hget
    obtain rfl := Option.some.inj hget
    obtain ⟨who, rfl, hcause⟩ := h.cause_of_write? rfl hwrite habsent
    rw [hid] at hcause
    refine ⟨who, rfl, hcause, ?_⟩
    obtain ⟨record, succeeded⟩ := attempt
    obtain rfl : succeeded = true := hsucceeded
    exact hattempt

/-- A cycle comes to the end of an empty listing while an id is held to be present. -/
theorem revoked_only_for_cause_unlisted :
    ∃ (start world : World MemoryStore) (log : List Attempt),
      Course anything start log world ∧
      world.cache.identity? "d" = some (.ofDevice "d" "1" .none .enabled) ∧
      (world.after (.goOn 0)).cache.record? "d" = some (.absent "d" world.now) ∧
      ∃ who, (.goOn 0 : Event MemoryStore) = .goOn who ∧ Cause start world who "d" ∧
        (⟨.absent "d" world.now, true⟩ : Attempt) ∈ world.attempts (.goOn 0) := by
  let held : Record := .present (.ofDevice "d" "1" .none .enabled) (.utc 0)
  let cache : Cache MemoryStore :=
    ⟨.ofEntries ∅, (∅ : Ledger Record).insert "d" held, .ofCapacity 64, .ofSeconds 300, 1, 0, 0, 0⟩
  let start : World MemoryStore := .start 0 .empty cache .standard
  have hcalled : Course anything start [] (start.begin .runCycle) :=
    Course.here.call .runCycle trivial
  have hqueued := hcalled.goOn 0 trivial (by decide +kernel)
  have hwalking := hqueued.goOn 0 trivial (by decide +kernel)
  have hmarking := hwalking.goOn 0 trivial (by decide +kernel)
  refine ⟨start, _, _, hmarking, by decide +kernel, by decide +kernel, ?_⟩
  exact (revoked_only_for_cause 0 .empty cache .standard hmarking (.goOn 0)).2 "d" held _
    (by decide +kernel) (by decide +kernel) (by decide +kernel) rfl

end DeviceScope.World
