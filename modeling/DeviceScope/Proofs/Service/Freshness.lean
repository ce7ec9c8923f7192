import DeviceScope.Proofs.Cache.Presence
import DeviceScope.Proofs.Service.Walking

/-!
# Refreshes while a cycle is under way

A cycle works from the listing that it opened when it began. A refresh that takes place meanwhile
hears what the directory holds by then, but the cycle does not know: it writes every identity that
it still has to take in, and at the end it marks absent what is present and was not listed. So the
answer to the refresh may be overwritten by what is older.

An `Overtaking` is a course of events in which this can happen. What the cycle states of the id
afterwards is told by the identities that it had still to take in and, if it is completed, by the
answer and the listing (`Overtaking.tells`). The answer stands as long as the store has taken none
of this (`overtaken_answer_stands_until_written`); that it always stands is refuted by a directory
that changes between two pages (`not_answersStand`).
-/

namespace DeviceScope.World

variable {σ : Type} [FallibleStore σ]

/-- What happens while the task is in the middle of its cycle, if nobody but the task writes the
record of this id. -/
def sparing (who : Nat) (id : String) : World σ → Event σ → Prop := fun world event =>
  world.isUnderWay who = true ∧
    (event ≠ .goOn who → ∀ record, world.write? event = some record → record.id ≠ id)

/-- **A cycle that a refresh overtakes.** The cycle begins, and from then on until its last step its
task is in the middle of it. In between, another task hears what the directory answers for an id,
and the store takes the record of it. From then on only the cycle writes the record of this id. -/
structure Overtaking (start : World σ) where
  /-- The task of the cycle. -/
  who : Nat
  /-- The world in which the cycle begins, with the listing of what the directory holds then. -/
  before : World σ
  earlier : List Attempt
  reached : Course anything start earlier before
  queued : before.cycleStage? who = some .queued
  begins : before.isReady who = true
  /-- The world in which the directory answers to the task of the refresh. -/
  hearing : World σ
  meanwhile : List Attempt
  goesOn : Course (during who) (before.step who) meanwhile hearing
  inTime : hearing.isUnderWay who = true
  other : Nat
  asked : String
  asks : hearing.IsAsking other asked
  hears : hearing.isReady other = true
  /-- The world in which the answer is written down, and the cycle as far as it has come by then. -/
  middle : World σ
  pause : List Attempt
  waits : Course (during who) (hearing.step other) pause middle
  current : CycleStage
  standing : middle.cycleStage? who = some current
  underWay : current.isUnderWay = true
  /-- The record that the answer asks for. -/
  answer : Record
  heard : middle.HasHeard other asked (hearing.answer asked)
  answered : Record.ofAnswer? asked (hearing.answer asked) middle.now = some answer
  writes : middle.isReady other = true
  stored : (⟨answer, true⟩ : Attempt) ∈ middle.attempts (.goOn other)
  /-- The world in which the cycle takes its last step, and the cycle before it. -/
  late : World σ
  stage : CycleStage
  log : List Attempt
  outcome : CycleOutcome
  spared : Course (sparing who answer.id) (middle.step other) log late
  ending : late.cycleStage? who = some stage
  unended : stage.isUnderWay = true
  ends : late.isReady who = true
  ended : (late.cycleStep stage).1 = .ended outcome

/-- What identities say of an id. -/
def shown (id : String) (identities : List Identity) : List (String × Entry) :=
  (identities.filter fun identity => identity.id = id).map Identity.statement

/-- What is said of an id by marking ids absent. -/
def denied (id : String) (gone : List String) : List (String × Entry) :=
  (gone.filter (· = id)).map fun id => (id, .absent)

theorem shown_append (id : String) (identities more : List Identity) :
    shown id (identities ++ more) = shown id identities ++ shown id more := by
  rw [shown, List.filter_append, List.map_append]
  rfl

/-- An identity says of an id what a record of it states. -/
theorem shown_singleton (id : String) (identity : Identity) (now : Timestamp) :
    shown id [identity] =
      ([Record.present identity now].filter fun record => record.id = id).map
        Record.statement := by
  have hrecord : [Record.present identity now] =
      [identity].map fun identity => .present identity now := rfl
  rw [hrecord, List.filter_map, List.map_map]
  rfl

/-- Identities none of which has the id say nothing of it. -/
theorem shown_eq_nil {id : String} {identities : List Identity}
    (h : ∀ identity ∈ identities, identity.id ≠ id) : shown id identities = [] := by
  rw [shown, List.map_eq_nil_iff]
  exact List.filter_eq_nil_iff.2 fun identity hmem => by simpa using h identity hmem

theorem denied_cons (id first : String) (gone : List String) :
    denied id (first :: gone) = denied id [first] ++ denied id gone := by
  rw [denied, ← List.singleton_append, List.filter_append, List.map_append]
  rfl

theorem denied_singleton (id first : String) (now : Timestamp) :
    denied id [first] =
      ([Record.absent first now].filter fun record => record.id = id).map Record.statement := by
  have hrecord : [Record.absent first now] = [first].map fun id => .absent id now := rfl
  rw [hrecord, List.filter_map, List.map_map]
  rfl

/-- Where no id occurs twice, it is said once of an id that it is absent. -/
theorem denied_eq {id : String} {gone : List String} (h : gone.Nodup) :
    denied id gone = if id ∈ gone then [(id, .absent)] else [] := by
  rw [denied, List.filter_eq, h.count]
  split <;> rfl

/-- **What the task of a cycle has told** of an id, at one of its stages, since it had taken in
`written`. If the cycle comes to the end of its listing, it tells `verdict` in the end. -/
def Tells (opened : Listing) (written : List Identity) (id : String)
    (verdict told : List (String × Entry)) : CycleStage → Prop
  | .queued => False
  | .walking cycle => ∃ more, cycle.Follows opened (written ++ more) ∧ told = shown id more
  | .marking _ gone => ∃ more, written ++ more = opened.pages.flatten ∧
    told ++ denied id gone = shown id more ++ verdict

/-- **What the task has told, one turn later**, if what is gone at the end of the listing is what
the verdict tells. -/
theorem Turns.tells {world : World σ} {stage later : CycleStage} {opened : Listing}
    {written : List Identity} {id : String} {verdict told : List (String × Entry)}
    (h : world.Turns stage later) (htells : Tells opened written id verdict told stage)
    (hclosed : ∀ cycle, stage = .walking cycle → cycle.page = [] →
      cycle.listing.hasNext = false → denied id (cycle.gone world.cache) = verdict) :
    Tells opened written id verdict (told ++ (Attempt.about (· = id)
      (world.cache.attempts (world.cycleWrite? stage))).map Attempt.statement) later := by
  rw [Cache.map_statement_about_attempts]
  -- What was told and what is still to be told of the gone ids stay the same together.
  cases h with
  | began timeout => exact absurd htells fun h => h
  | fetched due hpage hmore hnext =>
    obtain ⟨more, hfollows, rfl⟩ := htells
    rw [cycleWrite?, hpage]
    exact ⟨more, hfollows.turn due hpage hmore hnext, List.append_nil _⟩
  | @tookIn cycle identity page due hpage =>
    obtain ⟨more, hfollows, rfl⟩ := htells
    refine ⟨more ++ [identity], ?_, ?_⟩
    · rw [← List.append_assoc]
      exact hfollows.takeIn _ _ due hpage
    · rw [cycleWrite?, hpage, shown_append, shown_singleton id identity world.now]
      rfl
  | @closed cycle hpage hend =>
    obtain ⟨more, hfollows, rfl⟩ := htells
    refine ⟨more, hfollows.written_eq hpage hend, ?_⟩
    rw [cycleWrite?, hpage, hclosed cycle rfl hpage hend]
    exact congrArg (· ++ verdict) (List.append_nil _)
  | marked report first gone =>
    obtain ⟨more, hwritten, htold⟩ := htells
    refine ⟨more, hwritten, ?_⟩
    rw [← htold, denied_cons, denied_singleton id first world.now, ← List.append_assoc]
    rfl

/-- What the task has told when its cycle ends. -/
theorem Tells.exists_more {opened : Listing} {written : List Identity} {id : String}
    {verdict told : List (String × Entry)} {stage : CycleStage} {outcome : CycleOutcome}
    (h : Tells opened written id verdict told stage) (hends : stage.Ends outcome) :
    ∃ more, stage.Follows opened (written ++ more) ∧
      told = shown id more ++ if outcome.isCompleted then verdict else [] := by
  -- A listing that breaks off leaves the verdict unsaid; a completed cycle has said it.
  cases hends with
  | cancelled => exact absurd h fun h => h
  | brokeOff hpage houtcome =>
    obtain ⟨more, hfollows, htold⟩ := h
    refine ⟨more, hfollows, ?_⟩
    rw [htold, houtcome]
    exact (List.append_nil _).symm
  | completed report =>
    obtain ⟨more, hwritten, htold⟩ := h
    refine ⟨more, hwritten, ?_⟩
    rw [← List.append_nil told]
    exact htold

namespace Overtaking

variable {start : World σ}

/-- The id that the answer is about. -/
def id (run : Overtaking start) : String := run.answer.id

/-- The listing that the cycle works from. -/
def opened (run : Overtaking start) : Listing := run.before.directory.listing

/-- The world when the cycle has ended. -/
def final (run : Overtaking start) : World σ := run.late.step run.who

/-- The attempts to write the record of the id after the answer. -/
def touching (run : Overtaking start) : List Attempt := Attempt.about (· = run.id) run.log

/-- **The cycle takes the id to be gone.** If it knows already what is gone, the id is among what it
has still to mark absent; otherwise the id is present by the answer, and the listing does not show
it. -/
def TakesForGone (run : Overtaking start) : CycleStage → Prop
  | .marking _ gone => run.id ∈ gone
  | _ => run.answer.entry.isPresent = true ∧
    ∀ identity ∈ run.opened.pages.flatten, identity.id ≠ run.id

instance (run : Overtaking start) : (stage : CycleStage) → Decidable (run.TakesForGone stage)
  | .queued | .walking _ => inferInstanceAs (Decidable (_ ∧ _))
  | .marking _ gone => inferInstanceAs (Decidable (_ ∈ gone))

/-- The cycle is completed, and it took the id to be gone when the answer was written down. -/
def Revokes (run : Overtaking start) : Prop :=
  run.outcome.isCompleted = true ∧ run.TakesForGone run.current

instance (run : Overtaking start) : Decidable run.Revokes :=
  inferInstanceAs (Decidable (_ ∧ _))

/-- What a completed cycle states of the id in the end. -/
def verdict (run : Overtaking start) : List (String × Entry) :=
  if run.TakesForGone run.current then [(run.id, .absent)] else []

/-! ### The answer -/

/-- The task of the refresh is not the one of the cycle. -/
theorem ne_other (run : Overtaking start) : run.who ≠ run.other := by
  intro heq
  obtain ⟨purpose, due, htask⟩ := run.asks
  obtain ⟨stage, hstage, -⟩ := isUnderWay_iff.1 run.inTime
  rw [cycleStage?, heq, htask] at hstage
  exact absurd hstage (by simp [Task.cycleStage?])

/-- The refresh attempts to write the answer, and nothing else. -/
theorem attempts_heard (run : Overtaking start) :
    run.middle.attempts (.goOn run.other) = [⟨run.answer, true⟩] := by
  -- A call that has heard an answer writes the record that the answer asks for.
  have hwrite : run.middle.write? (.goOn run.other) = some run.answer := by
    rw [run.heard.write?, run.answered]
  have hstored := run.stored
  rw [attempts, hwrite, Cache.attempts_some] at hstored ⊢
  rw [List.mem_singleton.1 hstored]

/-- The record states the answer. -/
theorem record?_heard (run : Overtaking start) :
    (run.middle.step run.other).cache.record? run.id = some run.answer := by
  have hrecords := records_after run.middle (.goOn run.other)
  rw [after, attempts_heard, Attempt.replay_cons, Attempt.replay_nil] at hrecords
  rw [Cache.record?, hrecords, Attempt.enter, if_pos rfl]
  exact Ledger.get?_insert_self _ _ _

/-- The refresh leaves the cycle alone. -/
theorem standing_heard (run : Overtaking start) :
    (run.middle.step run.other).cycleStage? run.who = some run.current := by
  have hother : (Event.goOn run.other : Event σ) ≠ .goOn run.who := by
    intro heq
    exact run.ne_other (Event.goOn.inj heq).symm
  exact (cycleStage?_after_of_ne run.middle hother).trans run.standing

/-- From the answer on, the record of the id is the one that was written last, or the answer. -/
theorem record?_since {world : World σ} {allowed : World σ → Event σ → Prop}
    {log : List Attempt} (run : Overtaking start)
    (h : Course allowed (run.middle.step run.other) log world) :
    world.cache.record? run.id =
      some ((Attempt.lastWritten? (Attempt.about (· = run.id) log)).getD run.answer) := by
  have hheard := run.record?_heard
  rw [Cache.record?] at hheard
  rw [Cache.record?, h.records_eq, Attempt.get?_replay, hheard]
  cases Attempt.lastWritten? (Attempt.about (· = run.id) log) <;> rfl

/-! ### The cycle -/

/-- From its beginning until the answer the task is in the middle of its cycle. -/
theorem exists_course_middle (run : Overtaking start) :
    ∃ log, Course (during run.who) (run.before.step run.who) log run.middle :=
  ⟨_, (run.goesOn.goOn run.other run.inTime run.hears).trans run.waits⟩

/-- The cycle has taken in some identities before the answer. -/
theorem exists_written (run : Overtaking start) :
    ∃ written, run.current.Follows run.opened written := by
  obtain ⟨log, hcourse⟩ := run.exists_course_middle
  exact hcourse.exists_follows run.queued run.standing run.underWay

/-- The records are kept under their own ids while the cycle is under way. -/
theorem keyedBy_during (run : Overtaking start) (hstart : start.cache.records.KeyedBy Record.id)
    {world : World σ} {log : List Attempt}
    (h : Course (during run.who) (run.before.step run.who) log world) :
    world.cache.records.KeyedBy Record.id := by
  -- From the very start up to this moment there is one course.
  have hbegun := run.reached.goOn run.who trivial run.begins
  rw [(hbegun.trans (h.mono fun _ _ _ => trivial)).records_eq]
  exact Attempt.keyedBy_replay hstart _

/-- So they are after the answer. -/
theorem keyedBy_since (run : Overtaking start) (hstart : start.cache.records.KeyedBy Record.id)
    {world : World σ} {log : List Attempt}
    (h : Course (sparing run.who run.id) (run.middle.step run.other) log world) :
    world.cache.records.KeyedBy Record.id := by
  obtain ⟨meanwhile, hmiddle⟩ := run.exists_course_middle
  have hunderWay := isUnderWay_iff.2 ⟨_, run.standing, run.underWay⟩
  have hheard := hmiddle.goOn run.other hunderWay run.writes
  exact run.keyedBy_during hstart (hheard.trans (h.mono fun _ _ hallowed => hallowed.1))

/-- What the cycle has still to mark absent at the time of the answer names no id twice. -/
theorem nodup_of_current (run : Overtaking start) (hstart : start.cache.records.KeyedBy Record.id)
    {report : Report} {gone : List String} (hcurrent : run.current = .marking report gone) :
    gone.Nodup := by
  obtain ⟨meanwhile, hmiddle⟩ := run.exists_course_middle
  have hmarking := run.standing
  rw [hcurrent] at hmarking
  obtain ⟨_, closing, _, cycle, hclosing, -, -, -, -, hgone⟩ :=
    hmiddle.exists_closing run.queued hmarking
  -- It was settled when the listing was over, from what was present then.
  have hpresent := Cache.nodup_presentIds (run.keyedBy_during hstart hclosing)
  exact (hpresent.sublist List.filter_sublist).sublist hgone

/-- When the listing is over, what is gone is what the verdict tells. -/
theorem denied_gone_eq {world : World σ} {log : List Attempt} {cycle : Cycle}
    {written more : List Identity} (run : Overtaking start)
    (hstart : start.cache.records.KeyedBy Record.id) {current : Cycle}
    (hcurrent : run.current = .walking current)
    (h : Course (sparing run.who run.id) (run.middle.step run.other) log world)
    (hfollows : cycle.Follows run.opened (written ++ more)) (hpage : cycle.page = [])
    (hend : cycle.listing.hasNext = false)
    (htold : (Attempt.about (· = run.id) log).map Attempt.statement = shown run.id more) :
    denied run.id (cycle.gone world.cache) = run.verdict := by
  have hkeyed := run.keyedBy_since hstart h
  have hnodup : (cycle.gone world.cache).Nodup :=
    (Cache.nodup_presentIds hkeyed).sublist List.filter_sublist
  -- An id that is not shown is present exactly if it is present by the answer.
  have hgone : run.id ∈ cycle.gone world.cache ↔ run.TakesForGone run.current := by
    rw [hcurrent, hfollows.mem_gone_iff hpage hend, Cache.mem_presentIds_iff hkeyed]
    refine and_congr_left fun hunlisted => ?_
    -- An id that the listing does not show has not been written since the answer.
    have hnothing : Attempt.about (· = run.id) log = [] := by
      rw [shown_eq_nil fun identity hmem => hunlisted identity
        (hfollows.mem_of_mem (List.mem_append_right _ hmem))] at htold
      exact List.map_eq_nil_iff.1 htold
    rw [run.record?_since h, hnothing]
    constructor
    · rintro ⟨record, hrecord, hpresent⟩
      rwa [← Option.some.inj hrecord] at hpresent
    · intro hpresent
      exact ⟨run.answer, rfl, hpresent⟩
  rw [denied_eq hnodup, verdict]
  by_cases hmem : run.id ∈ cycle.gone world.cache
  · rw [if_pos hmem, if_pos (hgone.1 hmem)]
  · rw [if_neg hmem, if_neg fun h => hmem (hgone.2 h)]

/-- **What the cycle has told of the id** since the answer. -/
theorem tells (run : Overtaking start) (hstart : start.cache.records.KeyedBy Record.id)
    {written : List Identity} (hwritten : run.current.Follows run.opened written)
    {world : World σ} {log : List Attempt} {stage : CycleStage}
    (h : Course (sparing run.who run.id) (run.middle.step run.other) log world)
    (hstage : world.cycleStage? run.who = some stage) (hunderWay : stage.isUnderWay = true) :
    Tells run.opened written run.id run.verdict
      ((Attempt.about (· = run.id) log).map Attempt.statement) stage := by
  induction h generalizing stage with
  | here =>
    rw [run.standing_heard] at hstage
    obtain rfl := Option.some.inj hstage
    -- Right after the answer nothing was told of the id yet.
    cases hcurrent : run.current with
    | queued =>
      rw [hcurrent] at hunderWay
      exact absurd hunderWay (by decide)
    | walking cycle =>
      rw [hcurrent] at hwritten
      refine ⟨[], ?_, rfl⟩
      rwa [List.append_nil]
    | marking report gone =>
      rw [hcurrent] at hwritten
      refine ⟨[], (List.append_nil _).trans hwritten, ?_⟩
      rw [denied_eq (run.nodup_of_current hstart hcurrent), verdict, hcurrent]
      rfl
  | @next log world event hcourse hallowed hadmits ih =>
    rw [Attempt.about_append, List.map_append]
    rcases turns_of_isUnderWay_after hstage hunderWay with
      ⟨hother, hsame⟩ | ⟨rfl, previous, hprevious, hturns⟩
    · -- Somebody else has written, but not this id.
      have hnothing : Attempt.about (· = run.id) (world.attempts event) = [] := by
        refine List.filter_eq_nil_iff.2 fun attempt hmem => ?_
        simpa using hallowed.2 hother _ (Cache.eq_of_mem_attempts hmem)
      rw [hnothing, List.map_nil, List.append_nil]
      exact ih hsame hunderWay
    · have hpreviousUnderWay := (isUnderWay_eq hprevious).symm.trans hallowed.1
      have htells := ih hprevious hpreviousUnderWay
      rw [attempts, write?_of_cycleStage? hprevious]
      refine hturns.tells htells ?_
      rintro cycle rfl hpage hend
      cases hcurrent : run.current with
      | queued =>
        have hunderWay := run.underWay
        rw [hcurrent] at hunderWay
        exact absurd hunderWay (by decide)
      | walking current =>
        obtain ⟨more, hfollows, htold⟩ := htells
        exact run.denied_gone_eq hstart hcurrent hcourse hfollows hpage hend htold
      | marking report gone =>
        -- A cycle that marks ids absent has left its listing behind.
        have hmarking := run.standing_heard
        rw [hcurrent] at hmarking
        obtain ⟨_, _, hwalking⟩ :=
          hcourse.exists_marking (fun _ _ h => h.1) hmarking hprevious hpreviousUnderWay
        exact absurd hwalking (by simp)

/-- **What the cycle has told of the id when it ends.** -/
theorem exists_more (run : Overtaking start) (hstart : start.cache.records.KeyedBy Record.id)
    {written : List Identity} (hwritten : run.current.Follows run.opened written) :
    ∃ more, run.stage.Follows run.opened (written ++ more) ∧
      run.touching.map Attempt.statement =
        shown run.id more ++ (if run.Revokes then [(run.id, .absent)] else []) := by
  have htells := run.tells hstart hwritten run.spared run.ending run.unended
  obtain ⟨more, hfollows, htold⟩ := htells.exists_more (ends_of_ended run.ended)
  refine ⟨more, hfollows, htold.trans ?_⟩
  -- The verdict counts only if the cycle is completed.
  congr 1
  cases hcompleted : run.outcome.isCompleted with
  | false =>
    rw [if_neg Bool.false_ne_true, if_neg]
    rintro ⟨hyes, -⟩
    rw [hcompleted] at hyes
    exact Bool.false_ne_true hyes
  | true =>
    rw [if_pos rfl, verdict]
    by_cases h : run.TakesForGone run.current
    · rw [if_pos h, if_pos ⟨hcompleted, h⟩]
    · rw [if_neg h, if_neg fun hrevokes => h hrevokes.2]

end Overtaking

/-- **What a cycle makes of an answer that is newer than its listing.** Until it ends it states of
the id, in this order, what it takes in after the answer, and, if it is completed and takes the id
to be gone, that it is absent. At the end the record is the one that the store took last of these,
and the answer if it took none; so the answer stands where nothing is stated. -/
theorem overtaken_answer_stands_until_written {store : σ} {config : Config} {cache : Cache σ}
    (clock : Int) (directory : Directory) (hcreate : Cache.create store config = .ok cache)
    (run : Overtaking (World.start clock directory cache config)) :
    ∃ written more, run.current.Follows run.opened written ∧
      run.stage.Follows run.opened (written ++ more) ∧
      run.touching.map Attempt.statement =
        shown run.id more ++ (if run.Revokes then [(run.id, .absent)] else []) ∧
      run.final.cache.record? run.id =
        some ((Attempt.lastWritten? run.touching).getD run.answer) ∧
      ((∀ identity ∈ more, identity.id ≠ run.id) → ¬ run.Revokes →
        run.final.cache.record? run.id = some run.answer) := by
  have hkeyed : (World.start clock directory cache config).cache.records.KeyedBy Record.id :=
    Cache.keyedBy_of_create hcreate
  obtain ⟨written, hwritten⟩ := run.exists_written
  obtain ⟨more, hmore, hstated⟩ := run.exists_more hkeyed hwritten
  have hfinal : run.final.cache.record? run.id =
      some ((Attempt.lastWritten? run.touching).getD run.answer) := by
    -- The last step writes nothing.
    have hnothing : run.late.attempts (.goOn run.who) = [] := by
      rw [attempts, write?_of_cycleStage? run.ending, cycleWrite?_of_ends (ends_of_ended run.ended)]
      rfl
    have hrecords := records_after run.late (.goOn run.who)
    rw [hnothing, Attempt.replay_nil] at hrecords
    refine Eq.trans ?_ (run.record?_since run.spared)
    rw [Cache.record?, Cache.record?, ← hrecords]
    rfl
  refine ⟨written, more, hwritten, hmore, hstated, hfinal, ?_⟩
  intro hunshown hstays
  rw [shown_eq_nil hunshown, if_neg hstays, List.append_nil, List.map_eq_nil_iff] at hstated
  rw [hfinal, hstated]
  rfl

/-! ### Answers that do not stand -/

/-- Whether the answers of a kind stand, whatever cycle they overtake. -/
def AnswersStand (kind : Entry → Prop) : Prop :=
  ∀ (store : MemoryStore) (config : Config) (cache : Cache MemoryStore) (clock : Int)
    (directory : Directory), Cache.create store config = .ok cache →
    ∀ run : Overtaking (World.start clock directory cache config), kind run.answer.entry →
      ∃ record, run.final.cache.record? run.id = some record ∧ record.entry = run.answer.entry

namespace Outdated

/-- A directory that shows two identities on two pages, each of which takes a second. -/
def directory : Directory :=
  { Directory.ofList [.ofDevice "a" "1" .none .enabled, .ofDevice "c" "1" .none .enabled] with
    pageSize := 1
    pageSize_pos := by decide
    pageDelay := some (.ofSeconds 1) }

/-- Another identity has come, and one of them has left. -/
def changed : Directory := (directory.upsert (.ofDevice "b" "1" .none .enabled)).remove "c"

abbrev start : World MemoryStore := .start 0 directory .blank .standard

/-- A cycle waits for its turn. -/
def before : World MemoryStore := (start.begin .runCycle).step 0

/-- The cycle has begun, the directory changes, and an id is asked for. -/
def hearing (id : String) : World MemoryStore :=
  (World.begin { before.step 0 with directory := changed } (.refresh id)).step 1

/-- The directory has answered. -/
def middle (id : String) : World MemoryStore := (hearing id).step 1

/-- The answer was written down, and one second later the first page is there. -/
def halfway (id : String) : World MemoryStore :=
  (World.step { (middle id).step 1 with clock := 1000000000 } 0).step 0

/-- One more second later the second page is there as well, and the listing is over. -/
def closing (id : String) : World MemoryStore :=
  ((World.step { halfway id with clock := 2000000000 } 0).step 0).step 0

/-- What is gone is marked absent: the identity that has come, which the listing does not show. -/
def late (id : String) : World MemoryStore := if id = "b" then (closing id).step 0 else closing id

/-- The record that the answer asks for: one identity has come, the other has left. -/
def answer (id : String) : Record :=
  if id = "b" then .present (.ofDevice "b" "1" .none .enabled) (.utc 0) else .absent id (.utc 0)

/-- From the beginning of the cycle until the directory answers. -/
theorem course_hearing {id : String} (h : id = "b" ∨ id = "c") :
    ∃ log, Course (during 0) (before.step 0) log (hearing id) := by
  have hduring : ∀ (world : World MemoryStore) event, world.isUnderWay 0 = true →
      during 0 world event := fun _ _ h => h
  have hchanged : Course (during 0) (before.step 0) []
      { before.step 0 with directory := changed } :=
    Course.here.change changed (hduring _ _ (by decide +kernel))
  have hcalled := hchanged.call (.refresh id) (hduring _ _ (by decide +kernel))
  rcases h with rfl | rfl <;>
    exact ⟨_, hcalled.goOn 1 (hduring _ _ (by decide +kernel)) (by decide +kernel)⟩

/-- From the answer until the last step of the cycle. -/
theorem course_late {id : String} (h : id = "b" ∨ id = "c") :
    ∃ log, Course (sparing 0 id) ((middle id).step 1) log (late id) := by
  -- Nobody but the cycle writes anything.
  have htick : ∀ (log : List Attempt) (world : World MemoryStore) (clock : Int),
      Course (sparing 0 id) ((middle id).step 1) log world → world.isUnderWay 0 = true →
      Course (sparing 0 id) ((middle id).step 1) log { world with clock } := by
    intro log world clock hcourse hunderWay
    refine hcourse.tick clock ⟨hunderWay, ?_⟩
    intro _ record hwrite
    exact absurd hwrite (by simp [write?])
  have hgoOn : ∀ (log : List Attempt) (world : World MemoryStore),
      Course (sparing 0 id) ((middle id).step 1) log world → world.isUnderWay 0 = true →
      world.isReady 0 = true →
      Course (sparing 0 id) ((middle id).step 1) (log ++ world.attempts (.goOn 0))
        (world.step 0) := by
    intro log world hcourse hunderWay hready
    refine hcourse.goOn 0 ⟨hunderWay, ?_⟩ hready
    intro hother
    exact absurd rfl hother
  rcases h with rfl | rfl
  all_goals
    have hfirst := htick _ _ 1000000000 .here (by decide +kernel)
    have hfetched := hgoOn _ _ hfirst (by decide +kernel) (by decide +kernel)
    have hhalfway := hgoOn _ _ hfetched (by decide +kernel) (by decide +kernel)
    have hsecond := htick _ _ 2000000000 hhalfway (by decide +kernel)
    have hfetched := hgoOn _ _ hsecond (by decide +kernel) (by decide +kernel)
    have htaken := hgoOn _ _ hfetched (by decide +kernel) (by decide +kernel)
    have hover := hgoOn _ _ htaken (by decide +kernel) (by decide +kernel)
  · exact ⟨_, hgoOn _ _ hover (by decide +kernel) (by decide +kernel)⟩
  · exact ⟨_, hover⟩

/-- **A cycle is overtaken** by a refresh of the identity that has come, or of the one that has
left. -/
theorem exists_overtaking {id : String} (h : id = "b" ∨ id = "c") :
    ∃ run : Overtaking start, run.answer = answer id ∧ run.final = (late id).step 0 := by
  have hcalled : Course anything start [] (start.begin .runCycle) :=
    Course.here.call .runCycle trivial
  have hreached := hcalled.goOn 0 trivial (by decide +kernel)
  obtain ⟨meanwhile, hhearing⟩ := course_hearing h
  obtain ⟨log, hlate⟩ := course_late h
  have hid : (answer id).id = id := by rcases h with rfl | rfl <;> rfl
  -- The task of the refresh hears the answer, and the store takes the record of it.
  have hasks : (hearing id).IsAsking 1 id := by
    rcases h with rfl | rfl <;> exact ⟨.refresh, none, rfl⟩
  have hheard : (middle id).HasHeard 1 id ((hearing id).answer id) := by
    rcases h with rfl | rfl <;> rfl
  have hanswered : Record.ofAnswer? id ((hearing id).answer id) (middle id).now =
      some (answer id) := by
    rcases h with rfl | rfl <;> decide +kernel
  have hstored : (⟨answer id, true⟩ : Attempt) ∈ (middle id).attempts (.goOn 1) := by
    rcases h with rfl | rfl <;> decide +kernel
  -- The cycle has fetched nothing yet then, and in the end nothing is left to be marked absent.
  obtain ⟨current, hcurrent, hunderWay⟩ := isUnderWay_iff.1
    (by rcases h with rfl | rfl <;> decide +kernel : (middle id).isUnderWay 0 = true)
  have hending : ∃ report, (late id).cycleStage? 0 = some (.marking report []) := by
    rcases h with rfl | rfl
    · exact ⟨⟨2, 1, 0⟩, by decide +kernel⟩
    · exact ⟨⟨2, 0, 0⟩, by decide +kernel⟩
  obtain ⟨report, hending⟩ := hending
  refine ⟨{
    who := 0, before, earlier := _, reached := hreached
    queued := by decide +kernel
    begins := by decide +kernel
    hearing := hearing id, meanwhile, goesOn := hhearing
    inTime := by rcases h with rfl | rfl <;> decide +kernel
    other := 1, asked := id, asks := hasks
    hears := by rcases h with rfl | rfl <;> decide +kernel
    middle := middle id, pause := [], waits := .here
    current, standing := hcurrent, underWay := hunderWay
    answer := answer id, heard := hheard, answered := hanswered
    writes := by rcases h with rfl | rfl <;> decide +kernel
    stored := hstored
    late := late id, stage := .marking report [], log, outcome := .completed report
    spared := by rw [hid]; exact hlate
    ending := hending, unended := rfl
    ends := by rcases h with rfl | rfl <;> decide +kernel
    ended := rfl }, rfl, rfl⟩

theorem not_answersStand_of_ne {id : String} (h : id = "b" ∨ id = "c") {kind : Entry → Prop}
    {record : Record} (hkind : kind (answer id).entry)
    (hrecord : ((late id).step 0).cache.record? (answer id).id = some record)
    (hne : record.entry ≠ (answer id).entry) : ¬ AnswersStand kind := by
  intro hstand
  obtain ⟨run, hanswer, hfinal⟩ := exists_overtaking h
  rw [← hanswer] at hkind
  obtain ⟨found, hfound, hentry⟩ := hstand _ _ _ _ _ Cache.create_blank run hkind
  rw [hfinal, Overtaking.id, hanswer, hrecord] at hfound
  rw [← Option.some.inj hfound, hanswer] at hentry
  exact hne hentry

/-- **Neither kind of answer stands**: an identity that has come is held to be gone, and one that
has left is taken in again. -/
theorem not_answersStand :
    ¬ AnswersStand (fun entry => entry.isPresent = true) ∧
      ¬ AnswersStand (fun entry => entry = .absent) := by
  have habsent : ((late "b").step 0).cache.record? (answer "b").id =
      some (.absent "b" (.utc 2000000000)) := by decide +kernel
  have hpresent : ((late "c").step 0).cache.record? (answer "c").id =
      some (.present (.ofDevice "c" "1" .none .enabled) (.utc 2000000000)) := by decide +kernel
  exact ⟨not_answersStand_of_ne (.inl rfl) (by decide) habsent (by decide),
    not_answersStand_of_ne (.inr rfl) (by decide) hpresent (by decide)⟩

/-- The identity that has left is shown by the page that the cycle fetches last. -/
theorem overtaken_answer_stands_until_written_for_left :
    ∃ run : Overtaking start, run.answer = .absent "c" (.utc 0) ∧
      ∃ written more, run.current.Follows run.opened written ∧
        run.stage.Follows run.opened (written ++ more) ∧
        run.touching.map Attempt.statement =
          shown run.id more ++ (if run.Revokes then [(run.id, .absent)] else []) ∧
        run.final.cache.record? run.id =
          some ((Attempt.lastWritten? run.touching).getD run.answer) := by
  obtain ⟨run, hanswer, -⟩ := exists_overtaking (.inr rfl : "c" = "b" ∨ "c" = "c")
  obtain ⟨written, more, hwritten, hmore, hstated, hfinal, -⟩ :=
    overtaken_answer_stands_until_written 0 directory Cache.create_blank run
  exact ⟨run, hanswer, written, more, hwritten, hmore, hstated, hfinal⟩

end Outdated

end DeviceScope.World
