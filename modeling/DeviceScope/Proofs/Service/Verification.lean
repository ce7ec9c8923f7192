import DeviceScope.Proofs.Service.Refreshing

/-!
# Decisions of a gateway

A call that asks whether an id may connect looks the id up in the directory if it is to do so and
nothing recent is known of it (`Cache.NeedsLookup`). If the directory answers and the store takes
the record, the decision is that of the directory (`Directory.Decides`); otherwise it is the one
that the last record gives (`World.Keeps`). A call for the identity of an id looks it up if it is to
do so and nothing is known at all (`World.verify_decides`).

Both are told by two facts about the call at its end: what it has sought (`Course.seeks`), and that
its reply is read off the records (`Course.replies`).
-/

namespace DeviceScope

variable {σ : Type}

/-- **The decision is that of the directory.** -/
structure Directory.Decides (directory : Directory) (id : String)
    (decision : Except ScopeError Identity) : Prop where
  ok_iff : ∀ identity, decision = .ok identity ↔
    directory.identities.get? id = some identity ∧ identity.isEnabled = true
  disabled_iff : decision = .error (.disabled id) ↔
    ∃ identity, directory.identities.get? id = some identity ∧ identity.isEnabled = false
  outOfScope_iff : decision = .error (.outOfScope id) ↔
    directory.identities.get? id = none ∨ directory.invalid.contains id = true

/-- A cache that holds under an id what the directory holds decides as the directory does. -/
theorem Directory.decides_of_identity? {directory : Directory} (h : directory.InMemory)
    {cache : Cache σ} {id : String}
    (hsame : cache.identity? id = directory.identities.get? id) :
    directory.Decides id (cache.decide id) where
  ok_iff identity := by rw [← hsame, Cache.decide_eq_ok_iff]
  disabled_iff := by rw [← hsame, Cache.decide_eq_disabled_iff]
  outOfScope_iff := by
    rw [Cache.decide_eq_outOfScope_iff, hsame]
    constructor
    · exact .inl
    · rintro (hnone | hinvalid)
      · exact hnone
      · exact h.get?_eq_none_of_invalid hinvalid

/-- The reply that a purpose reads off a cache. -/
def Purpose.reply? (cache : Cache σ) (id : String) : Purpose → Option Reply
  | .get => some (.got (cache.identity? id))
  | .verify => some (.verified (cache.decide id))
  | _ => none

theorem Purpose.reply?_congr {cache other : Cache σ} {id : String}
    (h : cache.record? id = other.record? id) (purpose : Purpose) :
    purpose.reply? cache id = purpose.reply? other id := by
  unfold reply? Cache.identity?
  rw [Cache.decide_congr h, h]

/-- The call is for one id, and its reply is read off the cache. -/
def CallStage.Replies (cache : Cache σ) (id : String) (purpose : Purpose) : CallStage → Prop
  | .asking asked goal _ | .heard asked goal _ | .concluded asked goal _ =>
    asked = id ∧ goal = purpose
  | .done reply => purpose.reply? cache id = some reply
  | .begun _ | .cycling _ => False

theorem CallStage.Replies.congr {cache other : Cache σ} {id : String} {purpose : Purpose}
    {stage : CallStage} (h : stage.Replies cache id purpose)
    (hsame : other.record? id = cache.record? id) : stage.Replies other id purpose := by
  cases stage with
  | done reply => exact (purpose.reply?_congr hsame).trans h
  | _ => exact h

namespace World

variable [FallibleStore σ]

/-- **The call is run alone**: nobody else goes on, and the directory stays as it is. It comes to
its end, and whenever it does, its log, the world and the reply have a property. -/
def RunsAlone (world : World σ) (call : Call) (P : List Attempt → World σ → Reply → Prop) : Prop :=
  (∃ log later reply, Course (lone world.tasks.length) (world.serve call) log later ∧
    later.reply? world.tasks.length = some reply) ∧
  ∀ log later reply, Course (lone world.tasks.length) (world.serve call) log later →
    later.reply? world.tasks.length = some reply → P log later reply

/-- **The last record decides**, and it stays. -/
structure Keeps (world later : World σ) (id : String) (decision : Except ScopeError Identity) :
    Prop where
  verdict_eq : world.verdict? id = some (.verified decision)
  record_eq : later.cache.record? id = world.cache.record? id

/-- **What comes of a look-up** that a decision has asked for. -/
structure Consults (world later : World σ) (log : List Attempt) (id : String)
    (decision : Except ScopeError Identity) : Prop where
  once : later.directory.lookups = world.directory.lookups + 1
  /-- If look-ups do not fail, one record is written, and it is of this id. -/
  writes : world.directory.lookupFailure = none →
    ∃ attempt, log = [attempt] ∧ attempt.record.id = id
  /-- If the store takes it, the directory decides, and the record states what it holds. -/
  taken : world.directory.lookupFailure = none → (∀ attempt ∈ log, attempt.succeeded = true) →
    world.directory.Decides id decision ∧
      ∃ record, later.cache.record? id = some record ∧
        record.identity? = world.directory.identities.get? id
  refused : (∀ attempt ∈ log, attempt.succeeded = false) → world.Keeps later id decision
  transient : ∀ error, world.directory.lookupFailure = some error →
    (∀ id message, error ≠ .invalidState id message) → world.Keeps later id decision

/-! ### A call for one id -/

/-- **The reply is read off the cache** when the call comes to its end, and stays right. -/
theorem Course.replies {start world : World σ} {who : Nat} {id : String} {purpose : Purpose}
    {first : CallStage} {log : List Attempt} (h : Course (lone who) start log world)
    (hpurpose : purpose = .get ∨ purpose = .verify)
    (hfirst : start.tasks[who]? = some (.call first))
    (hstart : first.Replies start.cache id purpose) :
    ∃ stage, world.tasks[who]? = some (.call stage) ∧ stage.Replies world.cache id purpose := by
  refine h.stage_induction (P := fun _ world stage => stage.Replies world.cache id purpose)
    hfirst hstart ?_ ?_
  · -- A reply is read off the records in the step that gives it, and this step leaves them alone.
    intro log world stage _ htask hready hreplies
    have hcache : (world.step who).cache = (world.callStep who stage).2.cache := by
      rw [step_of_call htask]
      rfl
    cases stage with
    | begun call => exact absurd hreplies fun h => h
    | asking asked goal due => exact hreplies
    | heard asked goal answer => exact hreplies
    | concluded asked goal outcome =>
      obtain ⟨rfl, rfl⟩ := hreplies
      rw [hcache]
      rcases hpurpose with rfl | rfl
      · exact rfl
      · exact rfl
    | cycling stage => exact absurd hreplies fun h => h
    | done reply => exact absurd hready (not_isReady_of_done htask)
  · intro log world event stage _ hallowed _ hevent hreplies
    obtain ⟨-, -, hrecords⟩ := attempts_of_lone hallowed hevent
    exact hreplies.congr (congrArg (fun records => records.get? id) hrecords)

/-- What a call for one id has done at its end, if it has asked the directory for some ids. -/
structure Ended (world later : World σ) (ids : List String) (log : List Attempt) (id : String)
    (purpose : Purpose) (reply : Reply) : Prop where
  sought : Sought world.directory ids log later
  records_eq : later.cache.records = Attempt.replay world.cache.records log
  reply_eq : purpose.reply? later.cache id = some reply

theorem RunsAlone.mono {world : World σ} {call : Call}
    {P Q : List Attempt → World σ → Reply → Prop} (h : world.RunsAlone call P)
    (hPQ : ∀ log later reply, P log later reply → Q log later reply) : world.RunsAlone call Q :=
  ⟨h.1, fun log later reply hcourse hreply => hPQ _ _ _ (h.2 log later reply hcourse hreply)⟩

/-- **A call for one id** that asks the directory or replies at once is run alone to its end. -/
theorem runsAlone_of_begin {world : World σ} {call : Call} {id : String} {purpose : Purpose}
    {reply : Reply} (asks : Bool) (hreachable : world.directory.reachable = true)
    (hpurpose : purpose = .get ∨ purpose = .verify)
    (hreply : purpose.reply? world.cache id = some reply)
    (hbegin : (world.begin call).beginCall world.tasks.length call =
      if asks then (world.begin call).ask id purpose else (.done reply, world.begin call)) :
    world.RunsAlone call fun log later reply =>
      Ended world later (if asks then [id] else []) log id purpose reply := by
  have hstep := step_of_call (task_begin world call)
  have htask := task_serve world call
  have hserve : (world.serve call).directory = world.directory ∧
      (world.serve call).cache.records = world.cache.records := by
    unfold serve
    rw [hstep]
    show ((world.begin call).beginCall _ call).2.directory = _ ∧
      ((world.begin call).beginCall _ call).2.cache.records = _
    rw [hbegin]
    cases asks <;> exact ⟨rfl, rfl⟩
  obtain ⟨hdirectory, hrecords⟩ := hserve
  have hsought : Sought world.directory [] [] (world.serve call) := ⟨hdirectory, rfl⟩
  have hrecord : (world.serve call).cache.record? id = world.cache.record? id :=
    congrArg (fun records => records.get? id) hrecords
  rw [hbegin] at htask
  -- The first stage asks for the id, or has the reply already.
  have hfirst : ∃ first, (world.serve call).tasks[world.tasks.length]? = some (.call first) ∧
      Seeks world.directory (if asks then [id] else []) [] (world.serve call) first ∧
      first.Replies (world.serve call).cache id purpose := by
    cases asks with
    | true =>
      have hids : [id] = [] ++ id :: purpose.rest := by
        rcases hpurpose with rfl | rfl <;> rfl
      exact ⟨_, htask, ⟨[], hids, hsought⟩, rfl, rfl⟩
    | false => exact ⟨_, htask, hsought, (purpose.reply?_congr hrecord).trans hreply⟩
  obtain ⟨first, hfirst, hseeks, hreplies⟩ := hfirst
  constructor
  · cases asks with
    | true => exact exists_reply htask
    | false => exact ⟨[], _, reply, .here, reply?_eq_some_iff.2 htask⟩
  · -- What was sought and what is replied are two invariants of one course.
    intro log later found hcourse hfound
    obtain ⟨stage, hstage, hended⟩ := hcourse.seeks hreachable hfirst hseeks
    obtain ⟨stage', hstage', hread⟩ := hcourse.replies hpurpose hfirst hreplies
    obtain rfl := stage_eq_of_reply? hfound hstage
    obtain rfl := stage_eq_of_reply? hfound hstage'
    exact ⟨hended, by rw [hcourse.records_eq, hrecords], hread⟩

/-! ### What comes of it -/

section Ended

variable {world later : World σ} {log : List Attempt} {id : String} {purpose : Purpose}
  {reply : Reply}

omit [FallibleStore σ] in
/-- Without a look-up nothing is written, and the reply is read off the record that was there. -/
theorem Ended.unasked (h : Ended world later [] log id purpose reply) :
    later.directory.lookups = world.directory.lookups ∧
      later.cache.record? id = world.cache.record? id ∧
      purpose.reply? world.cache id = some reply := by
  have hlog : log = [] := List.map_eq_nil_iff.1 h.sought.log_eq
  have hrecord : later.cache.record? id = world.cache.record? id := by
    unfold Cache.record?
    rw [h.records_eq, hlog]
    rfl
  refine ⟨congrArg Directory.lookups h.sought.directory_eq, hrecord, ?_⟩
  rw [← purpose.reply?_congr hrecord]
  exact h.reply_eq

omit [FallibleStore σ] in
theorem Ended.once (h : Ended world later [id] log id purpose reply) :
    later.directory.lookups = world.directory.lookups + 1 :=
  congrArg Directory.lookups h.sought.directory_eq

omit [FallibleStore σ] in
/-- If nothing that was to be written was taken, the record is what it was. -/
theorem Ended.record?_eq {ids : List String} (h : Ended world later ids log id purpose reply)
    (hfailed : ∀ attempt ∈ log, attempt.succeeded = false) :
    later.cache.record? id = world.cache.record? id := by
  unfold Cache.record?
  rw [h.records_eq]
  refine Attempt.get?_replay_of_forall_not fun attempt hmem htaken => ?_
  rw [hfailed attempt hmem] at htaken
  exact absurd htaken.1 (by decide)

omit [FallibleStore σ] in
/-- A look-up that does not fail writes what the directory holds under the id. -/
theorem Ended.exists_attempt (h : Ended world later [id] log id purpose reply)
    (hmemory : world.directory.InMemory) (hfailure : world.directory.lookupFailure = none) :
    ∃ attempt, log = [attempt] ∧ attempt.statement = (id, world.directory.entry id) := by
  have hlog := h.sought.log_eq
  rw [List.filterMap_cons, Directory.statement?_eq hmemory hfailure id] at hlog
  obtain ⟨attempt, rfl, hstatement⟩ := List.map_eq_singleton_iff.1 hlog
  exact ⟨attempt, rfl, hstatement⟩

theorem Ended.keeps {ids : List String} {decision : Except ScopeError Identity}
    (h : Ended world later ids log id .verify (.verified decision))
    (hsame : later.cache.record? id = world.cache.record? id) : world.Keeps later id decision where
  record_eq := hsame
  verdict_eq := by
    have hread : later.cache.decide id = decision := Reply.verified.inj (Option.some.inj h.reply_eq)
    rw [verdict?_eq, ← hread, Cache.decide_congr hsame]

/-- **What comes of a look-up** that a decision has asked for. -/
theorem Ended.consults {decision : Except ScopeError Identity}
    (h : Ended world later [id] log id .verify (.verified decision))
    (hmemory : world.directory.InMemory) : world.Consults later log id decision where
  once := h.once
  writes hfailure := by
    obtain ⟨attempt, hlog, hstatement⟩ := h.exists_attempt hmemory hfailure
    exact ⟨attempt, hlog, congrArg Prod.fst hstatement⟩
  taken hfailure htaken := by
    obtain ⟨attempt, rfl, hstatement⟩ := h.exists_attempt hmemory hfailure
    have hid : attempt.record.id = id := congrArg Prod.fst hstatement
    have hentry : attempt.record.entry = world.directory.entry id := congrArg Prod.snd hstatement
    -- The record that was written is the one that the decision is read off.
    have hrecord : later.cache.record? id = some attempt.record := by
      unfold Cache.record?
      rw [h.records_eq, ← hid]
      exact Attempt.get?_enter_self (htaken attempt (List.mem_singleton_self _))
    have hidentity : attempt.record.identity? = world.directory.identities.get? id := by
      rw [← Directory.entry_identity?, ← hentry]
      rfl
    have hread : later.cache.decide id = decision := Reply.verified.inj (Option.some.inj h.reply_eq)
    refine ⟨?_, attempt.record, hrecord, hidentity⟩
    rw [← hread]
    refine Directory.decides_of_identity? hmemory ?_
    unfold Cache.identity?
    rw [hrecord]
    exact hidentity
  refused hfailed := h.keeps (h.record?_eq hfailed)
  transient error hfailure htransient := by
    -- An error that says nothing about the id leads to no write.
    have hlog : log = [] := by
      have hstatements := h.sought.log_eq
      rw [List.filterMap_cons,
        Directory.statement?_eq_none hmemory hfailure htransient] at hstatements
      exact List.map_eq_nil_iff.1 hstatements
    refine h.keeps (h.record?_eq ?_)
    rw [hlog]
    intro attempt hmem
    exact absurd hmem List.not_mem_nil

end Ended

/-- **Decisions follow the directory or the last record.** Let the directory be one in memory, and
let a call be run alone, whatever troubles befall the store.

A call that asks whether an id may connect is replied to with a decision. If it is to look up what
is not known or not recent, and the id needs it, there is one look-up and the decision is what comes
of it. In all other cases there is none, and the last record decides. A call for the identity of an
id looks it up once if it is to do so and nothing is known of it, and otherwise not. -/
theorem verify_decides (world : World σ) (hmemory : world.directory.InMemory) (id : String) :
    (∀ refreshIfStale, world.RunsAlone (.verify id refreshIfStale) fun log later reply =>
      ∃ decision, reply = .verified decision ∧
        (refreshIfStale = true ∧ world.cache.NeedsLookup id world.now →
          world.Consults later log id decision) ∧
        (¬ (refreshIfStale = true ∧ world.cache.NeedsLookup id world.now) →
          later.directory.lookups = world.directory.lookups ∧ world.Keeps later id decision)) ∧
    (∀ refreshIfAbsent, world.RunsAlone (.get id refreshIfAbsent) fun _ later reply =>
      reply = .got (later.cache.identity? id) ∧
        (refreshIfAbsent = true ∧ world.cache.record? id = none →
          later.directory.lookups = world.directory.lookups + 1) ∧
        (¬ (refreshIfAbsent = true ∧ world.cache.record? id = none) →
          later.directory.lookups = world.directory.lookups ∧
            later.cache.record? id = world.cache.record? id)) := by
  constructor
  · intro refreshIfStale
    have halone : world.RunsAlone (.verify id refreshIfStale) fun log later reply =>
        Ended world later (if refreshIfStale && world.cache.isStale id world.now then [id] else [])
          log id .verify reply :=
      runsAlone_of_begin _ hmemory.reachable (.inr rfl) rfl rfl
    refine halone.mono fun log later reply hended => ?_
    obtain rfl := Option.some.inj hended.reply_eq
    refine ⟨_, rfl, ?_, ?_⟩
    -- Whether there is a look-up is settled when the call begins.
    · rintro ⟨hrefresh, hneeds⟩
      rw [hrefresh, Cache.isStale_iff.2 hneeds] at hended
      exact hended.consults hmemory
    · intro hnot
      have hasks : (refreshIfStale && world.cache.isStale id world.now) = false := by
        rw [Bool.eq_false_iff, ne_eq, Bool.and_eq_true, Cache.isStale_iff]
        exact hnot
      rw [hasks] at hended
      obtain ⟨hlookups, hrecord, -⟩ := hended.unasked
      exact ⟨hlookups, hended.keeps hrecord⟩
  · intro refreshIfAbsent
    have halone : world.RunsAlone (.get id refreshIfAbsent) fun log later reply =>
        Ended world later
          (if refreshIfAbsent && (world.cache.record? id).isNone then [id] else []) log id .get
          reply :=
      runsAlone_of_begin _ hmemory.reachable (.inl rfl) rfl rfl
    refine halone.mono fun log later reply hended => ?_
    obtain rfl := Option.some.inj hended.reply_eq
    refine ⟨rfl, ?_, ?_⟩
    · rintro ⟨hrefresh, hnone⟩
      rw [hrefresh, hnone] at hended
      exact hended.once
    · intro hnot
      have hasks : (refreshIfAbsent && (world.cache.record? id).isNone) = false := by
        rw [Bool.eq_false_iff, ne_eq, Bool.and_eq_true, Option.isNone_iff_eq_none]
        exact hnot
      rw [hasks] at hended
      obtain ⟨hlookups, hrecord, -⟩ := hended.unasked
      exact ⟨hlookups, hrecord⟩

/-- The directory holds a disabled device of which an enabled one is known for too long. -/
theorem verify_decides_disabled :
    ∃ (world later : World MemoryStore) (log : List Attempt)
      (decision : Except ScopeError Identity),
      world.directory.InMemory ∧
      world.verdict? "d" = some (.verified (.ok (.ofDevice "d" "1" .none .enabled))) ∧
      Course (lone world.tasks.length) (world.serve (.verify "d" true)) log later ∧
      later.reply? world.tasks.length = some (.verified decision) ∧
      decision = .error (.disabled "d") ∧
      world.Consults later log "d" decision := by
  let known : Identity := .ofDevice "d" "1" .none .enabled
  let disabled : Identity := .ofDevice "d" "1" .none .disabled
  let directory : Directory := Directory.empty.upsert disabled
  have hmemory : directory.InMemory := Directory.InMemory.empty.upsert _
  let start : World MemoryStore := (World.start 0 directory .blank .standard).serve (.update known)
  let world : World MemoryStore := { start with clock := 301 * 1000000000 }
  have hverdict : world.verdict? "d" = some (.verified (.ok known)) :=
    verdict?_eq_ok_iff.2 ⟨by decide +kernel, rfl⟩
  have hstale : (world.begin (.verify "d" true)).cache.isStale "d"
      (world.begin (.verify "d" true)).now = true := by decide +kernel
  -- The call asks the directory, hears, writes, and has its reply.
  have hasking : (world.serve (.verify "d" true)).tasks[world.tasks.length]? =
      some (.call (.asking "d" .verify none)) := by
    rw [task_serve, beginCall, Bool.true_and, if_pos hstale]
    rfl
  obtain ⟨hheard, htask⟩ := Course.here.advance hasking rfl
  obtain ⟨hconcluded, htask⟩ := hheard.advance htask rfl
  obtain ⟨hdone, htask⟩ := hconcluded.advance htask rfl
  have hreply := reply?_eq_some_iff.2 htask
  obtain ⟨decision, hdecision, hconsults, -⟩ :=
    ((verify_decides world hmemory "d").1 true).2 _ _ _ hdone hreply
  have hconsulted := hconsults ⟨rfl, Cache.isStale_iff.1 hstale⟩
  rw [hdecision] at hreply
  refine ⟨world, _, _, decision, hmemory, hverdict, hdone, hreply, ?_, hconsulted⟩
  refine (hconsulted.taken rfl ?_).1.disabled_iff.2 ⟨disabled, by decide +kernel, rfl⟩
  decide +kernel

end World

end DeviceScope
