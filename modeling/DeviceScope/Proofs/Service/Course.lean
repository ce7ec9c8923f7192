import DeviceScope.Proofs.Service.Cycle
import DeviceScope.Proofs.Store.Fallible
import DeviceScope.Service.World

/-!
# The course of a gateway

What may happen to a gateway, in any order and any number of times (`World.Event`): a task goes
on, a call comes in, the service is started, asked for a cycle or shut down, the clock moves, the
directory changes, the store runs into trouble, a subscriber does something. A `World.Course` is a
sequence of such events; what may happen along it can be restricted by a condition `allowed` on
the world and the event, and it comes with the log of all writes that were attempted.

The one fact that everything else rests on is `World.uncounted_step`: a task that goes on writes
the record that `World.write?` reads off its stage, if any, and does nothing else to the records and
to the store. So the records at the end of a course are the replay of its log
(`Course.records_eq`), and what each write preserves a course preserves (`Course.cache_induction`).
-/

namespace DeviceScope

variable {σ : Type}

def CycleStage.isUnderWay : CycleStage → Bool
  | .queued => false
  | _ => true

/-- How far the task has come if it wants to run a cycle. -/
def Task.cycleStage? : Task → Option CycleStage
  | .call (.cycling stage) | .loop (.cycling stage) => some stage
  | _ => none

/-- What the task has heard from the directory, if it is about to write it down. -/
def Task.heard? : Task → Option (String × Except DirectoryError (Option Identity))
  | .call (.heard id _ answer) => some (id, answer)
  | _ => none

namespace World

/-- Something that happens to a gateway. -/
inductive Event (σ : Type) where
  /-- A task goes on. -/
  | goOn (who : Nat)
  /-- A call comes in. -/
  | call (call : Call)
  | startService
  | requestRefresh
  | shutdown
  /-- The clock shows another time. -/
  | clock (clock : Int)
  /-- The directory changes, in whatever way. -/
  | directory (directory : Directory)
  /-- The store has run into trouble. -/
  | trouble (store : σ)
  /-- A subscriber does something. -/
  | subscriber (act : Notifier.Act)

/-! ### Sides of a world -/

/-- How far a task has come that wants to run a cycle. -/
def cycleStage? (world : World σ) (who : Nat) : Option CycleStage :=
  world.tasks[who]?.bind Task.cycleStage?

/-- **The task walks through a listing** in the course of this cycle. -/
def IsWalking (world : World σ) (who : Nat) (cycle : Cycle) : Prop :=
  world.cycleStage? who = some (.walking cycle)

/-- Whether the task is in the middle of a cycle. -/
def isUnderWay (world : World σ) (who : Nat) : Bool :=
  (world.cycleStage? who).any CycleStage.isUnderWay

/-- **The task is about to hear** what the directory answers for an id. -/
def IsAsking (world : World σ) (who : Nat) (id : String) : Prop :=
  ∃ purpose due, world.tasks[who]? = some (.call (.asking id purpose due))

/-- **The task has heard** what the directory answers for an id, and is about to write it down. -/
def HasHeard (world : World σ) (who : Nat) (id : String)
    (answer : Except DirectoryError (Option Identity)) : Prop :=
  world.tasks[who]?.bind Task.heard? = some (id, answer)

/-- What the directory answers for an id that a refresh asks for. -/
def answer (world : World σ) (id : String) : Except DirectoryError (Option Identity) :=
  (world.directory.lookup (.parse id)).1

/-! ### What an event writes -/

/-- The record that a cycle writes when it goes on. -/
def cycleWrite? (world : World σ) : CycleStage → Option Record
  | .queued => none
  | .walking cycle => cycle.page.head?.map fun identity => .present identity world.now
  | .marking _ gone => gone.head?.map fun id => .absent id world.now

def callWrite? (world : World σ) : CallStage → Option Record
  | .begun (.update identity) => some (.present identity world.now)
  | .begun (.removal id) => some (.absent id world.now)
  | .heard id _ answer => Record.ofAnswer? id answer world.now
  | .cycling stage => world.cycleWrite? stage
  | .begun _ | .asking _ _ _ | .concluded _ _ _ | .done _ => none

def taskWrite? (world : World σ) : Task → Option Record
  | .call stage => world.callWrite? stage
  | .loop (.cycling stage) => world.cycleWrite? stage
  | .loop _ | .supervisor _ => none

/-- **The record that an event writes**, if any. -/
def write? (world : World σ) : Event σ → Option Record
  | .goOn who => world.tasks[who]?.bind world.taskWrite?
  | _ => none

section Store

variable [FallibleStore σ]

def after (world : World σ) : Event σ → World σ
  | .goOn who => world.step who
  | .call call => world.begin call
  | .startService => world.startService
  | .requestRefresh => world.requestRefresh
  | .shutdown => world.shutdown
  | .clock clock => { world with clock }
  | .directory directory => { world with directory }
  | .trouble store => { world with cache := { world.cache with store } }
  | .subscriber act =>
    { world with cache := { world.cache with notifier := world.cache.notifier.after act } }

/-- Whether an event can happen: only a task that is ready goes on, and a trouble is one of those
that may befall the store. -/
def Admits (world : World σ) : Event σ → Prop
  | .goOn who => world.isReady who = true
  | .trouble store => FallibleStore.Befalls world.cache.store store
  | _ => True

/-- The log of what an event attempts to write. -/
def attempts (world : World σ) (event : Event σ) : List Attempt :=
  world.cache.attempts (world.write? event)

/-- **A course of events** from one world to another, with the log of the writes that were
attempted on the way. Each event is one that is allowed in the world in which it happens. -/
inductive Course (allowed : World σ → Event σ → Prop) (start : World σ) :
    List Attempt → World σ → Prop where
  /-- Nothing has happened yet. -/
  | here : Course allowed start [] start
  /-- One more event. -/
  | next {log : List Attempt} {world : World σ} {event : Event σ} :
    Course allowed start log world → allowed world event → world.Admits event →
    Course allowed start (log ++ world.attempts event) (world.after event)

/-- Everything that can happen may happen. -/
def anything : World σ → Event σ → Prop := fun _ _ => True

/-! ### What an event does to the cache -/

omit [FallibleStore σ] in
theorem cache_beginCycle (world : World σ) : world.beginCycle.2.cache = world.cache := by
  rw [beginCycle]
  split
  · rfl
  · split <;> rfl

omit [FallibleStore σ] in
theorem cache_fetch (world : World σ) (cycle : Cycle) :
    (world.fetch cycle).2.cache = world.cache := by
  rw [fetch]
  split
  · rfl
  · split
    · split
      · rfl
      · split <;> rfl
    · rfl

theorem cache_cycleStep (world : World σ) (stage : CycleStage) :
    (world.cycleStep stage).2.cache = world.cache.writeIf (world.cycleWrite? stage) := by
  -- A page that has just arrived is not written yet, and neither is what is gone.
  cases stage with
  | queued => exact cache_beginCycle world
  | walking cycle =>
    rw [cycleStep, walk, cycleWrite?]
    split
    · next hpage =>
      rw [hpage]
      exact cache_fetch world cycle
    · next hpage =>
      rw [hpage, Cycle.takeIn_eq]
      rfl
  | marking report gone =>
    rw [cycleStep, cycleWrite?]
    cases gone with
    | nil => rfl
    | cons id gone =>
      rw [mark, Cycle.markAbsent_eq]
      rfl

/-- **The ways in which a call goes on.** -/
inductive CallTurns (world : World σ) (who : Nat) : CallStage → CallStage × World σ → Prop where
  /-- It has its reply. -/
  | replied {stage : CallStage} (hwrite : world.callWrite? stage = none) (reply : Reply) :
    CallTurns world who stage (.done reply, world)
  /-- It asks the directory for an id. -/
  | asked {stage : CallStage} (hwrite : world.callWrite? stage = none) (id : String)
    (purpose : Purpose) : CallTurns world who stage (world.ask id purpose)
  | heard (id : String) (purpose : Purpose) (due : Option Int) :
    CallTurns world who (.asking id purpose due) (world.hear id purpose)
  | concluded (id : String) (purpose : Purpose)
    (answer : Except DirectoryError (Option Identity)) :
    CallTurns world who (.heard id purpose answer) (world.conclude id purpose answer)
  /-- It writes what it was called for. -/
  | wrote {call : Call} {record : Record}
    (hwrite : world.callWrite? (.begun call) = some record) (reply : Reply) :
    CallTurns world who (.begun call)
      (.done reply, { world with cache := (world.cache.write record).2 })
  | claimed : CallTurns world who (.begun .runCycle)
      (.cycling .queued, { world with service := world.service.claimTurn who })
  | wentOn {stage later : CycleStage} (h : (world.cycleStep stage).1 = .goesOn later) :
    CallTurns world who (.cycling stage) (.cycling later, (world.cycleStep stage).2)
  | ended {stage : CycleStage} {outcome : CycleOutcome}
    (h : (world.cycleStep stage).1 = .ended outcome) :
    CallTurns world who (.cycling stage) (.done (.ranCycle outcome), (world.cycleStep stage).2)
  | crashed {stage : CycleStage} (h : (world.cycleStep stage).1 = .crashed) :
    CallTurns world who (.cycling stage) (.done .crashed, (world.cycleStep stage).2)

/-- A call that was called for several ids asks for the first, or has its reply. -/
theorem callTurns_askMany {world : World σ} {stage : CallStage}
    (hwrite : world.callWrite? stage = none) (who : Nat) (ids : List String)
    (summary : RefreshSummary) : world.CallTurns who stage (world.askMany ids summary) := by
  cases ids with
  | nil => exact .replied hwrite _
  | cons id rest => exact .asked hwrite id _

theorem callTurns_beginCall (world : World σ) (who : Nat) (call : Call) :
    world.CallTurns who (.begun call) (world.beginCall who call) := by
  cases call with
  | get id refreshIfAbsent =>
    rw [beginCall]
    split
    · exact .asked rfl id _
    · exact .replied rfl _
  | verify id refreshIfStale =>
    rw [beginCall]
    split
    · exact .asked rfl id _
    · exact .replied rfl _
  | refresh id => exact .asked rfl id _
  | refreshMany ids => exact callTurns_askMany rfl who ids _
  | update identity => exact .wrote rfl _
  | removal id => exact .wrote rfl _
  | runCycle => exact .claimed

/-- **A call that goes on** does so in one of these ways. -/
theorem callTurns (world : World σ) (who : Nat) (stage : CallStage) :
    world.CallTurns who stage (world.callStep who stage) := by
  cases stage with
  | begun call => exact callTurns_beginCall world who call
  | asking id purpose due => exact .heard id purpose due
  | heard id purpose answer => exact .concluded id purpose answer
  | concluded id purpose outcome =>
    cases purpose with
    | refreshMany rest summary => exact callTurns_askMany rfl who rest _
    | _ => exact .replied rfl _
  | cycling stage =>
    -- The call goes on as its cycle does.
    rw [callStep]
    split
    · next later after hstep =>
      have hturn : world.CallTurns who _ _ := .wentOn (congrArg Prod.fst hstep)
      rwa [hstep] at hturn
    · next outcome after hstep =>
      have hturn : world.CallTurns who _ _ := .ended (congrArg Prod.fst hstep)
      rwa [hstep] at hturn
    · next after hstep =>
      have hturn : world.CallTurns who _ _ := .crashed (congrArg Prod.fst hstep)
      rwa [hstep] at hturn
  | done reply => exact .replied rfl reply

theorem uncounted_callStep (world : World σ) (who : Nat) (stage : CallStage) :
    (world.callStep who stage).2.cache.uncounted =
      (world.cache.writeIf (world.callWrite? stage)).uncounted := by
  have hturns := world.callTurns who stage
  generalize world.callStep who stage = result at hturns ⊢
  -- Asking counts a look-up and a failed refresh is counted, which `uncounted` leaves out.
  cases hturns with
  | replied hwrite reply => rw [hwrite]; rfl
  | asked hwrite id purpose => rw [hwrite]; rfl
  | heard id purpose due => rfl
  | concluded id purpose answer => exact Cache.conclude_snd_uncounted _ _ _ _
  | wrote hwrite reply => rw [hwrite]; rfl
  | claimed => rfl
  | wentOn h => exact congrArg Cache.uncounted (cache_cycleStep world _)
  | ended h => exact congrArg Cache.uncounted (cache_cycleStep world _)
  | crashed h => exact congrArg Cache.uncounted (cache_cycleStep world _)

theorem snd_loopStep_cycling (world : World σ) (who : Nat) (stage : CycleStage) :
    (world.loopStep who (.cycling stage)).2 = (world.cycleStep stage).2 := by
  rw [loopStep]
  split <;> next h => rw [h]

/-- **A loop that goes on** runs its cycle; or it writes nothing, changes nothing but the service,
and finds itself in the middle of no cycle. -/
theorem loopStep_cases (world : World σ) (who : Nat) (stage : LoopStage) :
    (∃ cycle, stage = .cycling cycle) ∨
      world.taskWrite? (.loop stage) = none ∧
        ∃ later service, world.loopStep who stage = (later, { world with service }) ∧
          (Task.cycleStage? (.loop later)).any CycleStage.isUnderWay = false := by
  cases stage with
  | cycling stage => exact .inl ⟨stage, rfl⟩
  | top =>
    rw [loopStep]
    refine .inr ⟨rfl, ?_⟩
    split
    · exact ⟨_, world.service, rfl, rfl⟩
    · exact ⟨_, _, rfl, rfl⟩
  | rest =>
    rw [loopStep]
    refine .inr ⟨rfl, ?_⟩
    split
    · exact ⟨_, world.service, rfl, rfl⟩
    · dsimp only
      -- A cycle that was asked for meanwhile takes the permit; otherwise the loop is parked.
      split
      · exact ⟨_, _, rfl, rfl⟩
      · exact ⟨_, _, rfl, rfl⟩
  | parked due => exact .inr ⟨rfl, _, _, rfl, rfl⟩
  | done => exact .inr ⟨rfl, _, world.service, rfl, rfl⟩

theorem uncounted_loopStep (world : World σ) (who : Nat) (stage : LoopStage) :
    (world.loopStep who stage).2.cache.uncounted =
      (world.cache.writeIf (world.taskWrite? (.loop stage))).uncounted := by
  rcases loopStep_cases world who stage with ⟨cycle, rfl⟩ | ⟨hwrite, later, service, hstep, -⟩
  · rw [snd_loopStep_cycling, cache_cycleStep]
    rfl
  · rw [hwrite, hstep]
    rfl

omit [FallibleStore σ] in
theorem cache_supervisorStep (world : World σ) (stage : SupervisorStage) :
    (world.supervisorStep stage).2.cache = world.cache := by
  cases stage with
  | begun => rw [supervisorStep]; split <;> rfl
  | watching due loop =>
    rw [supervisorStep]
    split
    · rfl
    · dsimp only
      split <;> rfl
  | joining loop => rfl
  | done => rfl

/-- **What a task does to the cache when it goes on.** It writes the record that its stage tells, if
any; apart from that only counters change. -/
theorem uncounted_step (world : World σ) (who : Nat) :
    (world.step who).cache.uncounted =
      (world.cache.writeIf (world.write? (.goOn who))).uncounted := by
  -- Each kind of task writes what its stage tells; a supervisor writes nothing.
  rw [step, write?]
  split
  · next h => rw [h]; rfl
  · next stage h => rw [h]; exact uncounted_callStep world who stage
  · next stage h => rw [h]; exact uncounted_loopStep world who stage
  · next stage h => rw [h]; exact congrArg Cache.uncounted (cache_supervisorStep world stage)

theorem store_step (world : World σ) (who : Nat) :
    (world.step who).cache.store = (world.cache.writeIf (world.write? (.goOn who))).store := by
  have h := congrArg Cache.store (uncounted_step world who)
  exact h

/-- The records after an event are the replay of its log. -/
theorem records_after (world : World σ) (event : Event σ) :
    (world.after event).cache.records =
      Attempt.replay world.cache.records (world.attempts event) := by
  -- Only a task that goes on touches the records.
  cases event with
  | goOn who =>
    have h := congrArg Cache.records (uncounted_step world who)
    rw [attempts, ← Cache.records_writeIf]
    exact h
  | _ => rfl

/-- **No event loses a record.** -/
theorem contains_after {world : World σ} {id : String} (event : Event σ)
    (h : world.cache.records.contains id = true) :
    (world.after event).cache.records.contains id = true := by
  rw [records_after]
  exact Attempt.contains_replay _ h

/-- An event leaves the record of an id, or it has written the one that is there. -/
theorem record?_after_cases (world : World σ) (event : Event σ) (id : String) :
    (world.after event).cache.record? id = world.cache.record? id ∨
      ∃ attempt ∈ world.attempts event, attempt.succeeded = true ∧ attempt.record.id = id ∧
        world.write? event = some attempt.record ∧
        (world.after event).cache.record? id = some attempt.record := by
  -- The log has one attempt at most, and the replay tells whether it reached the id.
  rw [Cache.record?, Cache.record?, records_after]
  rcases Attempt.get?_replay_cases world.cache.records (world.attempts event) id with
    h | ⟨attempt, hmem, hs, hid, hget⟩
  · exact .inl h
  · exact .inr ⟨attempt, hmem, hs, hid, Cache.eq_of_mem_attempts hmem, hget⟩

/-! ### Along a course -/

section Along

variable {allowed : World σ → Event σ → Prop} {start world later : World σ}
  {log more : List Attempt}

/-- **The records at the end of a course** are the replay of its log. -/
theorem Course.records_eq (h : Course allowed start log world) :
    world.cache.records = Attempt.replay start.cache.records log := by
  induction h with
  | here => rfl
  | next _ _ _ ih => rw [records_after, Attempt.replay_append, ih]

/-- A task that is ready goes on. -/
theorem Course.goOn (h : Course allowed start log world) (who : Nat)
    (hallowed : allowed world (.goOn who)) (hready : world.isReady who = true) :
    Course allowed start (log ++ world.attempts (.goOn who)) (world.step who) :=
  h.next hallowed hready

/-- A call comes in; it has not written anything yet. -/
theorem Course.call (h : Course allowed start log world) (call : Call)
    (hallowed : allowed world (.call call)) : Course allowed start log (world.begin call) := by
  have hcalled := h.next hallowed trivial
  rwa [show world.attempts (.call call) = [] from rfl, List.append_nil] at hcalled

/-- Time passes. -/
theorem Course.tick (h : Course allowed start log world) (clock : Int)
    (hallowed : allowed world (.clock clock)) :
    Course allowed start log { world with clock } := by
  have hticked := h.next hallowed trivial
  rwa [show world.attempts (.clock clock) = [] from rfl, List.append_nil] at hticked

/-- The directory changes. -/
theorem Course.change (h : Course allowed start log world) (directory : Directory)
    (hallowed : allowed world (.directory directory)) :
    Course allowed start log { world with directory } := by
  have hchanged := h.next hallowed trivial
  rwa [show world.attempts (.directory directory) = [] from rfl, List.append_nil] at hchanged

/-- Two courses make one. -/
theorem Course.trans (h : Course allowed start log world)
    (hlater : Course allowed world more later) : Course allowed start (log ++ more) later := by
  induction hlater with
  | here => rwa [List.append_nil]
  | next _ hallowed hadmits ih =>
    rw [← List.append_assoc]
    exact ih.next hallowed hadmits

/-- A course along which less is allowed. -/
theorem Course.mono {wider : World σ → Event σ → Prop} (h : Course allowed start log world)
    (hwider : ∀ world event, allowed world event → wider world event) :
    Course wider start log world := by
  induction h with
  | here => exact .here
  | next _ hallowed hadmits ih => exact ih.next (hwider _ _ hallowed) hadmits

/-- What every event preserves holds at the end of a course. -/
theorem Course.invariant {P : World σ → Prop} (h : Course allowed start log world)
    (hstart : P start)
    (hafter : ∀ world event, allowed world event → world.Admits event → P world →
      P (world.after event)) : P world := by
  induction h with
  | here => exact hstart
  | next _ hallowed hadmits ih => exact hafter _ _ hallowed hadmits ih

/-- What every write and every trouble that is allowed preserves of the store and the records holds
at the end of a course. -/
theorem Course.cache_induction {P : σ → Ledger Record → Prop}
    (h : Course allowed start log world) (hstart : P start.cache.store start.cache.records)
    (hwrite : ∀ (cache : Cache σ) record, P cache.store cache.records →
      P (cache.write record).2.store (cache.write record).2.records)
    (htrouble : ∀ (world : World σ) store, allowed world (.trouble store) →
      FallibleStore.Befalls world.cache.store store → P world.cache.store world.cache.records →
      P store world.cache.records) : P world.cache.store world.cache.records := by
  refine h.invariant (P := fun world => P world.cache.store world.cache.records) hstart ?_
  intro world event hallowed hadmits hworld
  cases event with
  | goOn who =>
    -- A task that goes on writes one record at most; the counters are not asked about.
    have hcache := uncounted_step world who
    have hstore := congrArg Cache.store hcache
    have hrecords := congrArg Cache.records hcache
    simp only [Cache.uncounted] at hstore hrecords
    rw [after, hstore, hrecords]
    cases world.write? (.goOn who) with
    | none => exact hworld
    | some record => exact hwrite world.cache record hworld
  | trouble store => exact htrouble world store hallowed hadmits hworld
  | _ => exact hworld

/-- No record is lost along a course. -/
theorem Course.contains {id : String} (h : Course allowed start log world)
    (hid : start.cache.records.contains id = true) :
    world.cache.records.contains id = true :=
  h.invariant (P := fun world => world.cache.records.contains id = true) hid
    fun _ event _ _ => contains_after event

end Along

end Store

end World

end DeviceScope
