import DeviceScope.Proofs.Cache.Presence
import DeviceScope.Proofs.Service.Verification

/-!
# A refresh delay of zero

A cache that is to look up again whatever has any age at all does so for every record that was
written before the present moment, and for no other: a record of this very moment has no age yet,
and neither has one from the future, as they come about when the clock is set back or a store is
taken over from elsewhere (`World.zero_delay_looks_up_what_is_past`).

Look-ups are counted twice, by the cache that asks and by the directory that is asked. A call that
has asked for its only id asks for nothing more (`CallStage.AsksNoMore`), so the cache's count is
settled when the call begins (`Course.lookups_eq`).
-/

namespace DeviceScope

variable {σ : Type}

namespace Cache

theorem refreshDelay_of_create [KeyValueStore σ] {store : σ} {config : Config} {cache : Cache σ}
    (h : create store config = .ok cache) : cache.refreshDelay = config.refreshDelay := by
  rw [create] at h
  split at h
  · exact absurd h (by simp)
  · split at h
    · exact absurd h (by simp)
    · exact congrArg Cache.refreshDelay (Except.ok.inj h).symm

/-- With a delay of zero, a decision needs a look-up exactly if nothing is known of the id, or what
is known was written before this moment. -/
theorem needsLookup_of_zero {cache : Cache σ} (hzero : cache.refreshDelay = .zero) {id : String}
    {now : Timestamp} :
    cache.NeedsLookup id now ↔
      ∀ record, cache.record? id = some record → record.stamp.nanos < now.nanos := by
  unfold NeedsLookup
  rw [hzero]
  refine forall_congr' fun record => imp_congr_right fun _ => ?_
  show ((0 : Nat) : Int) < _ ↔ _
  omega

end Cache

/-- The call has asked for its last id, or has its reply. -/
def CallStage.AsksNoMore : CallStage → Prop
  | .asking _ purpose _ | .heard _ purpose _ | .concluded _ purpose _ => purpose.rest = []
  | .done _ => True
  | .begun _ | .cycling _ => False

namespace World

variable [FallibleStore σ]

/-! ### What a course leaves alone -/

/-- The age at which a record is looked up again is a setting that nothing changes. -/
theorem Course.refreshDelay_eq {allowed : World σ → Event σ → Prop} {start world : World σ}
    {log : List Attempt} (h : Course allowed start log world) :
    world.cache.refreshDelay = start.cache.refreshDelay := by
  induction h with
  | here => rfl
  | @next log world event _ _ _ ih =>
    rw [← ih]
    cases event with
    | goOn who =>
      have hcache := congrArg Cache.refreshDelay (uncounted_step world who)
      exact hcache.trans ((Cache.settings_writeIf _ _).2.2)
    | _ => rfl

/-- A call that asks for nothing more goes on without a look-up. -/
theorem asksNoMore_callStep (world : World σ) (who : Nat) {stage : CallStage}
    (h : stage.AsksNoMore) :
    (world.callStep who stage).1.AsksNoMore ∧
      (world.callStep who stage).2.cache.lookups = world.cache.lookups := by
  cases stage with
  | begun call => exact absurd h fun h => h
  | asking id purpose due => exact ⟨h, rfl⟩
  | heard id purpose answer => exact ⟨h, Cache.lookups_conclude _ _ _ _⟩
  | concluded id purpose outcome =>
    cases purpose with
    | refreshMany rest summary =>
      obtain rfl : rest = [] := h
      exact ⟨trivial, rfl⟩
    | _ => exact ⟨trivial, rfl⟩
  | cycling stage => exact absurd h fun h => h
  | done reply => exact ⟨trivial, rfl⟩

/-- What else happens while nobody else goes on counts no look-up. -/
theorem lookups_after_of_lone {world : World σ} {who : Nat} {event : Event σ}
    (h : lone who world event) (hevent : event ≠ .goOn who) :
    (world.after event).cache.lookups = world.cache.lookups := by
  cases event with
  | goOn other =>
    obtain rfl := h.1 other rfl
    exact absurd rfl hevent
  | _ => rfl

/-- **A call that asks for nothing more** leaves the count of look-ups as it is. -/
theorem Course.lookups_eq {start world : World σ} {who : Nat} {first : CallStage}
    {log : List Attempt} (h : Course (lone who) start log world)
    (hfirst : start.tasks[who]? = some (.call first)) (hno : first.AsksNoMore) :
    world.cache.lookups = start.cache.lookups := by
  have hcounted : ∃ stage, world.tasks[who]? = some (.call stage) ∧
      (stage.AsksNoMore ∧ world.cache.lookups = start.cache.lookups) := by
    refine h.stage_induction
      (P := fun _ world stage => stage.AsksNoMore ∧ world.cache.lookups = start.cache.lookups)
      hfirst ⟨hno, rfl⟩ ?_ ?_
    · rintro log world stage - htask - ⟨hstage, hcount⟩
      obtain ⟨hlater, hsame⟩ := asksNoMore_callStep world who hstage
      refine ⟨hlater, ?_⟩
      rw [step_of_call htask]
      exact hsame.trans hcount
    · rintro log world event stage - hallowed - hevent ⟨hstage, hcount⟩
      exact ⟨hstage, (lookups_after_of_lone hallowed hevent).trans hcount⟩
  obtain ⟨stage, -, -, hcount⟩ := hcounted
  exact hcount

/-! ### Look-ups of a decision -/

/-- How many look-ups there were, by the count of the cache and, if the directory can be reached, by
that of the directory. -/
structure LookedUp (world later : World σ) (count : Nat) : Prop where
  asked : later.cache.lookups = world.cache.lookups + count
  received : world.directory.reachable = true →
    later.directory.lookups = world.directory.lookups + count

/-- The look-up of a decision is counted when the call begins. From then on the call asks for
nothing more, and gets to its reply. -/
theorem exists_stage_serve_verify (world : World σ) (id : String) (refreshIfStale : Bool) :
    ∃ first,
      (world.serve (.verify id refreshIfStale)).tasks[world.tasks.length]? = some (.call first) ∧
      first.AsksNoMore ∧
      (world.serve (.verify id refreshIfStale)).cache.lookups = world.cache.lookups +
        (if refreshIfStale && world.cache.isStale id world.now then 1 else 0) ∧
      ∃ log later reply,
        Course (lone world.tasks.length) (world.serve (.verify id refreshIfStale)) log later ∧
          later.reply? world.tasks.length = some reply := by
  let begun := world.begin (.verify id refreshIfStale)
  have htask := task_serve world (.verify id refreshIfStale)
  have hserve : (world.serve (.verify id refreshIfStale)).cache =
      (begun.beginCall world.tasks.length (.verify id refreshIfStale)).2.cache := by
    unfold serve
    rw [step_of_call (task_begin world (.verify id refreshIfStale))]
    rfl
  -- The call asks, or has its reply at once.
  have hturn : begun.beginCall world.tasks.length (.verify id refreshIfStale) =
      if refreshIfStale && world.cache.isStale id world.now then begun.ask id .verify
      else (.done (.verified (world.cache.decide id)), begun) := rfl
  rw [hturn] at htask hserve
  by_cases hasks : (refreshIfStale && world.cache.isStale id world.now) = true
  · rw [if_pos hasks] at htask hserve ⊢
    exact ⟨_, htask, rfl, congrArg Cache.lookups hserve, exists_reply htask⟩
  · rw [if_neg hasks] at htask hserve ⊢
    exact ⟨_, htask, trivial, congrArg Cache.lookups hserve, [], _, _, .here,
      reply?_eq_some_iff.2 htask⟩

/-- **A decision looks up once** what it needs to look up, and otherwise nothing. -/
theorem runsAlone_verify (world : World σ) (id : String) (refreshIfStale : Bool) :
    world.RunsAlone (.verify id refreshIfStale) fun _ later _ =>
      world.LookedUp later
        (if refreshIfStale && world.cache.isStale id world.now then 1 else 0) := by
  obtain ⟨first, hfirst, hno, hcount, hends⟩ := exists_stage_serve_verify world id refreshIfStale
  refine ⟨hends, fun log later reply hcourse hreply => ⟨?_, fun hreachable => ?_⟩⟩
  · rw [hcourse.lookups_eq hfirst hno, hcount]
  · -- A directory that can be reached has seen what was asked for, which is the id or nothing.
    have halone : world.RunsAlone (.verify id refreshIfStale) fun log later reply =>
        Ended world later (if refreshIfStale && world.cache.isStale id world.now then [id] else [])
          log id .verify reply :=
      runsAlone_of_begin _ hreachable (.inr rfl) rfl rfl
    have hsought := (halone.2 log later reply hcourse hreply).sought
    rw [hsought.directory_eq]
    show world.directory.lookups + _ = _
    split <;> rfl

/-- **With a delay of zero a decision looks up what was written before this moment**, and what
nothing is known of. In every world that comes about from a cache with such a configuration, whoever
asks whether an id may connect and wants what is old looked up causes exactly one look-up then; a
record of this moment or of a later one is taken as it is. -/
theorem zero_delay_looks_up_what_is_past {store : σ} {config : Config} {cache : Cache σ}
    {clock : Int} {directory : Directory} {log : List Attempt} {world : World σ}
    (hcreate : Cache.create store config = .ok cache) (hzero : config.refreshDelay = .zero)
    (hcourse : Course anything (World.start clock directory cache config) log world)
    (id : String) :
    world.RunsAlone (.verify id true) fun _ later _ =>
      ((∀ record, world.cache.record? id = some record → record.stamp.nanos < world.clock) →
        world.LookedUp later 1) ∧
      ∀ record, world.cache.record? id = some record → world.clock ≤ record.stamp.nanos →
        world.LookedUp later 0 := by
  have hdelay : world.cache.refreshDelay = .zero := by
    rw [hcourse.refreshDelay_eq, ← hzero]
    exact Cache.refreshDelay_of_create hcreate
  have hneeds : world.cache.isStale id world.now = true ↔
      ∀ record, world.cache.record? id = some record → record.stamp.nanos < world.clock :=
    Cache.isStale_iff.trans (Cache.needsLookup_of_zero hdelay)
  refine (runsAlone_verify world id true).mono fun log later reply hlooked => ⟨?_, ?_⟩
  · intro hpast
    rwa [Bool.true_and, if_pos (hneeds.2 hpast)] at hlooked
  · intro record hrecord hcoming
    have hfresh : ¬ world.cache.isStale id world.now = true := by
      rw [hneeds]
      intro hpast
      have := hpast record hrecord
      omega
    rwa [Bool.true_and, if_neg hfresh] at hlooked

namespace Impatient

/-- The settings of a gateway that looks up whatever has any age. -/
def config : Config := { Config.standard with refreshDelay := .zero }

/-- A gateway at the moment at which it has learned that an id is out of scope. -/
def informed : World MemoryStore :=
  (World.start 0 .empty { Cache.blank with refreshDelay := .zero } config).serve (.removal "a")

theorem create_cache : Cache.create (.ofEntries ∅ : MemoryStore) config =
    .ok { Cache.blank with refreshDelay := .zero } := rfl

theorem course_informed (clock : Int) : ∃ log, Course anything
    (World.start 0 .empty { Cache.blank with refreshDelay := .zero } config) log
      { informed with clock } :=
  ⟨_, ((Course.here.call (.removal "a") trivial).goOn 0 trivial (isReady_begin _ _)).tick clock
    trivial⟩

theorem record?_informed : informed.cache.record? "a" = some (.absent "a" (.utc 0)) := by
  decide +kernel

end Impatient

/-- A nanosecond later the record is looked up. -/
theorem zero_delay_looks_up_what_is_past_at_once :
    ∃ (log : List Attempt) (later : World MemoryStore) (reply : Reply),
      let world : World MemoryStore := { Impatient.informed with clock := 1 }
      world.cache.record? "a" = some (.absent "a" (.utc 0)) ∧
        Course (lone world.tasks.length) (world.serve (.verify "a" true)) log later ∧
        later.reply? world.tasks.length = some reply ∧ world.LookedUp later 1 := by
  obtain ⟨log, hcourse⟩ := Impatient.course_informed 1
  obtain ⟨⟨more, later, reply, hlater, hreply⟩, hlooked⟩ :=
    zero_delay_looks_up_what_is_past Impatient.create_cache rfl hcourse "a"
  refine ⟨more, later, reply, Impatient.record?_informed, hlater, hreply, ?_⟩
  refine (hlooked more later reply hlater hreply).1 fun record hrecord => ?_
  obtain rfl := Option.some.inj (Impatient.record?_informed.symm.trans hrecord)
  decide

/-- **A delay of zero does not make every record old.** When the clock was set back, the record is
from the future, and no look-up comes about. -/
theorem zero_delay_does_not_look_up_every_record :
    ¬ ∀ (store : MemoryStore) (config : Config) (cache : Cache MemoryStore) (clock : Int)
      (directory : Directory) (log : List Attempt) (world : World MemoryStore) (id : String),
      Cache.create store config = .ok cache → config.refreshDelay = .zero → directory.InMemory →
      Course anything (World.start clock directory cache config) log world →
      world.RunsAlone (.verify id true) fun _ later _ => world.LookedUp later 1 := by
  intro h
  obtain ⟨log, hcourse⟩ := Impatient.course_informed (-1)
  obtain ⟨⟨more, later, reply, hlater, hreply⟩, hlooked⟩ :=
    h _ _ _ _ _ _ _ "a" Impatient.create_cache rfl .empty hcourse
  have hasked := (hlooked more later reply hlater hreply).asked
  have hspared := ((runsAlone_verify _ "a" true).2 more later reply hlater hreply).asked
  have hfresh : Cache.isStale Impatient.informed.cache "a" (.utc (-1)) = false := by
    decide +kernel
  rw [hasked, Bool.true_and, if_neg (by rw [Bool.not_eq_true]; exact hfresh)] at hspared
  omega

end World

end DeviceScope
