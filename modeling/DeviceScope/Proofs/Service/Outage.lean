import DeviceScope.Proofs.Service.Exclusion
import DeviceScope.Proofs.Service.Notification
import DeviceScope.Proofs.Service.Refreshing

/-!
# Outages

A directory is out if every look-up fails with an error that says nothing about the id, and every
listing breaks off at its first page (`Directory.IsOut`). A gateway is cut off if its directory is
out and nobody has anything in hand that was obtained before (`World.CutOff`). It stays so as long
as the outage lasts and nothing is written by hand (`World.CutOff.after`), and meanwhile nothing is
written at all (`World.CutOff.write?_eq_none`). So an outage changes nothing, and all that the
gateway replies is what it knew before (`World.outage_changes_nothing`).
-/

namespace DeviceScope

variable {σ : Type}

/-- **The listing breaks off** at its next page. -/
structure Listing.BreaksOff (listing : Listing) : Prop where
  hasNext : listing.hasNext = true
  fails : ∃ error, listing.next.1 = .error error
  crash_eq : listing.crash = none

namespace Directory

/-- **The directory is out**: every look-up fails with an error that says nothing about the id, and
every listing that is opened breaks off at its first page. -/
structure IsOut (directory : Directory) : Prop where
  lookup : ∀ id, ∃ error, directory.answer id = .error error ∧ error.isTransient = true
  opens : directory.Opens
  listing : directory.listing.BreaksOff

/-- A directory that cannot be reached is out. -/
theorem isOut_of_unreachable {directory : Directory} (h : directory.reachable = false) :
    directory.IsOut where
  lookup id := ⟨offlineError, by rw [answer, h]; rfl, rfl⟩
  opens := opens_iff.2 fun hreachable => absurd (h.symm.trans hreachable) (by decide)
  listing := by
    unfold Directory.listing
    rw [h]
    exact ⟨rfl, ⟨offlineError, rfl⟩, rfl⟩

/-- So is one in memory whose look-ups fail and whose listings break off at once. -/
theorem isOut_of_failures {directory : Directory} {lookupError listingError : DirectoryError}
    (hreachable : directory.reachable = true) (hopens : directory.crashesNext = false)
    (hlookup : directory.lookupFailure = some lookupError)
    (htransient : lookupError.isTransient = true)
    (hlisting : directory.listingFailure = some (0, listingError))
    (hsound : directory.pageCrash = none) : directory.IsOut where
  lookup id := ⟨lookupError, by rw [answer, hreachable, hlookup]; rfl, htransient⟩
  opens := opens_iff.2 fun _ => hopens
  listing := by
    unfold Directory.listing
    rw [hreachable, hlisting]
    refine ⟨?_, ⟨listingError, rfl⟩, hsound⟩
    simp [Listing.hasNext]

theorem IsOut.snd_lookup {directory : Directory} (h : directory.IsOut) (key : Identity.Key) :
    (directory.lookup key).2.IsOut := by
  have hopens := opens_iff.1 h.opens
  unfold Directory.lookup
  dsimp only
  split
  · exact ⟨h.lookup, opens_iff.2 hopens, h.listing⟩
  · exact h

/-- Opening a listing leaves the directory out. -/
theorem IsOut.snd_openListing? {directory later : Directory} {listing : Option Listing}
    (h : directory.IsOut) (hopened : directory.openListing? = (listing, later)) : later.IsOut := by
  have hopens := opens_openListing? _ _ hopened (.inl h.opens)
  unfold openListing? at hopened
  split at hopened
  · rw [← (Prod.mk.inj hopened).2]
    exact h
  · split at hopened
    · obtain ⟨-, rfl⟩ := Prod.mk.inj hopened
      exact ⟨h.lookup, hopens, h.listing⟩
    · obtain ⟨-, rfl⟩ := Prod.mk.inj hopened
      exact ⟨h.lookup, hopens, h.listing⟩

end Directory

/-! ### Nothing in hand -/

/-- **The cycle has nothing in hand**: nothing was listed for it. -/
def CycleStage.IsEmptyHanded : CycleStage → Prop
  | .queued => True
  | .walking cycle => cycle.page = [] ∧ cycle.report = .none ∧ cycle.listing.BreaksOff
  | .marking _ _ => False

/-- The listing of a cycle that has nothing in hand does not crash. -/
theorem CycleStage.IsEmptyHanded.lasts {stage : CycleStage} (h : stage.IsEmptyHanded) :
    stage.lasts = true := by
  cases stage with
  | queued => rfl
  | walking cycle => exact Option.isNone_iff_eq_none.2 h.2.2.crash_eq
  | marking report gone => exact absurd h id

/-- **The call has nothing in hand**: it writes nothing by itself, and it has not been told anything
by the directory that it is still to write down. -/
def CallStage.IsEmptyHanded : CallStage → Prop
  | .begun (.update _) | .begun (.removal _) => False
  | .heard _ _ answer => ∃ error, answer = .error error ∧ error.isTransient = true
  | .cycling stage => stage.IsEmptyHanded
  | .begun _ | .asking _ _ _ | .concluded _ _ _ | .done _ => True

/-- The task has nothing in hand. -/
def Task.IsEmptyHanded : Task → Prop
  | .call stage => stage.IsEmptyHanded
  | .loop (.cycling stage) => stage.IsEmptyHanded
  | .loop _ | .supervisor _ => True

/-- **What a call looks up**, and what it has counted so far if it looks up several ids and finds
nothing. -/
inductive Call.LooksUp : Call → String → Purpose → Prop where
  | get (id : String) (refreshIfAbsent : Bool) : LooksUp (.get id refreshIfAbsent) id .get
  | verify (id : String) (refreshIfStale : Bool) : LooksUp (.verify id refreshIfStale) id .verify
  | refresh (id : String) : LooksUp (.refresh id) id .refresh
  | refreshMany (past : List String) (id : String) (rest : List String) :
    LooksUp (.refreshMany (past ++ id :: rest)) id (.refreshMany rest ⟨0, 0, past.length⟩)

theorem Cache.fst_conclude_of_isTransient [KeyValueStore σ] {error : DirectoryError}
    (h : error.isTransient = true) (cache : Cache σ) (id : String) (now : Timestamp) :
    (cache.conclude id (.error error) now).1 = .retained := by
  cases error with
  | invalidState _ _ => exact absurd h (by simp [DirectoryError.isTransient,
      DirectoryError.isInvalidState])
  | _ => rfl

theorem ofAnswer?_of_isTransient {error : DirectoryError} (h : error.isTransient = true)
    (id : String) (now : Timestamp) : Record.ofAnswer? id (.error error) now = none := by
  cases error with
  | invalidState _ _ => exact absurd h (by simp [DirectoryError.isTransient,
      DirectoryError.isInvalidState])
  | _ => rfl

namespace World

/-- **The gateway is cut off**: the directory is out, and nobody has anything in hand that was
obtained before. -/
structure CutOff (world : World σ) : Prop where
  directory : world.directory.IsOut
  tasks : ∀ (who : Nat) (task : Task), world.tasks[who]? = some task → task.IsEmptyHanded

/-- Where nothing is going on, a directory that is out cuts the gateway off. -/
theorem cutOff_of_isDone {world : World σ} (hout : world.directory.IsOut)
    (hdone : world.tasks.all Task.isDone = true) : world.CutOff where
  directory := hout
  tasks who task htask := by
    have hdone := List.all_eq_true.1 hdone task (List.mem_of_getElem? htask)
    cases task with
    | call stage =>
      cases stage with
      | done reply => trivial
      | _ => exact absurd hdone (by simp [Task.isDone])
    | loop stage =>
      cases stage with
      | done => trivial
      | _ => exact absurd hdone (by simp [Task.isDone])
    | supervisor stage => trivial

/-- **What happens during an outage**: nothing is written by hand, and the directory stays out,
however it changes. -/
def outage (_ : World σ) : Event σ → Prop
  | .call (.update _) | .call (.removal _) => False
  | .directory directory => directory.IsOut
  | _ => True

/-- **How a cycle ends** while the directory is out. -/
inductive EndsOut (world : World σ) : CycleStage → CycleOutcome → Prop where
  /-- Its listing has broken off at the first page. -/
  | brokeOff {cycle : Cycle} (error : DirectoryError)
    (harrived : cycle.hasPage world.clock = true) :
    EndsOut world (.walking cycle) (.aborted .none error)
  /-- Its time has run out before the first page has arrived. -/
  | tookLong {cycle : Cycle} (hlate : cycle.isLate world.clock = true)
    (hwaits : cycle.hasPage world.clock = false) :
    EndsOut world (.walking cycle) (.timedOut .none)
  /-- The service is shutting down. -/
  | cancelled (hshut : world.service.shuttingDown = true) : EndsOut world .queued .cancelled

variable [FallibleStore σ]

/-! ### One step of an outage -/

section Step

variable {world : World σ}

theorem isOut_cycleStep (h : world.directory.IsOut) (stage : CycleStage) :
    (world.cycleStep stage).2.directory.IsOut := by
  have hmoves := world.cycleMoves stage
  generalize world.cycleStep stage = result at hmoves
  cases hmoves with
  | began _ hopened => exact h.snd_openListing? hopened
  | crashed _ hopened => exact h.snd_openListing? hopened
  | _ => exact h

/-- A cycle that has nothing in hand and goes on still has nothing in hand. -/
theorem isEmptyHanded_of_goesOn (h : world.directory.IsOut) {stage later : CycleStage}
    (hstage : stage.IsEmptyHanded) (hgoesOn : (world.cycleStep stage).1 = .goesOn later) :
    later.IsEmptyHanded := by
  have hmoves := world.cycleMoves stage
  generalize world.cycleStep stage = result at hmoves hgoesOn
  cases hmoves with
  | began _ _ =>
    rw [← CycleStep.goesOn.inj hgoesOn]
    exact ⟨rfl, rfl, h.listing⟩
  | closed _ hend => exact absurd (hend.symm.trans hstage.2.2.hasNext) (by decide)
  | fetched _ _ _ _ hnext =>
    obtain ⟨error, hfails⟩ := hstage.2.2.fails
    rw [hnext] at hfails
    exact absurd hfails (by simp)
  | tookIn hpage =>
    rw [hstage.1] at hpage
    exact absurd hpage (by simp)
  | marked _ _ _ => exact absurd hstage id
  | _ => exact absurd hgoesOn (by simp [endCycle])

/-- **A cycle that has nothing in hand ends** with nothing done. -/
theorem endsOut_of_ended {stage : CycleStage} {outcome : CycleOutcome} {who : Nat}
    (hstage : stage.IsEmptyHanded) (hready : world.isCycleReady who stage = true)
    (hended : (world.cycleStep stage).1 = .ended outcome) : world.EndsOut stage outcome := by
  have hmoves := world.cycleMoves stage
  generalize world.cycleStep stage = result at hmoves hended
  cases hmoves with
  | cancelled hshut =>
    rw [← CycleStep.ended.inj hended]
    exact .cancelled hshut
  | brokeOff _ _ harrived _ =>
    rw [← CycleStep.ended.inj hended, hstage.2.1]
    exact .brokeOff _ harrived
  | @tookLong cycle hpage hmore hwaits =>
    rw [← CycleStep.ended.inj hended, hstage.2.1]
    refine .tookLong ?_ hwaits
    -- It can go on although the page has not arrived, so its time has run out.
    have hready : cycle.isReady world.clock = true := hready
    unfold Cycle.isReady at hready
    simpa [hpage, hmore, hwaits] using hready
  | completed _ => exact absurd hstage id
  | _ => exact absurd hended (by simp)

/-- **A call goes on** with nothing in hand. -/
theorem isEmptyHanded_callStep (h : world.directory.IsOut) (who : Nat) {stage : CallStage}
    (hstage : stage.IsEmptyHanded) :
    (world.callStep who stage).1.IsEmptyHanded ∧
      (world.callStep who stage).2.directory.IsOut := by
  have hturns := world.callTurns who stage
  generalize world.callStep who stage = result at hturns
  cases hturns with
  | replied _ _ => exact ⟨trivial, h⟩
  | asked _ _ _ => exact ⟨trivial, h⟩
  | heard id purpose due => exact ⟨h.lookup _, h.snd_lookup (.parse id)⟩
  | concluded id purpose answer => exact ⟨trivial, h⟩
  | wrote hwrite reply => exact ⟨trivial, h⟩
  | claimed => exact ⟨trivial, h⟩
  | wentOn hgoesOn => exact ⟨isEmptyHanded_of_goesOn h hstage hgoesOn, isOut_cycleStep h _⟩
  | ended _ => exact ⟨trivial, isOut_cycleStep h _⟩
  | crashed _ => exact ⟨trivial, isOut_cycleStep h _⟩

/-- So does the loop. -/
theorem isEmptyHanded_loopStep (h : world.directory.IsOut) (who : Nat) {stage : LoopStage}
    (hstage : (Task.loop stage).IsEmptyHanded) :
    (Task.loop (world.loopStep who stage).1).IsEmptyHanded ∧
      (world.loopStep who stage).2.directory.IsOut := by
  have hmoves := world.loopMoves who stage
  generalize hresult : world.loopStep who stage = result at hmoves
  cases hmoves with
  | @cycling stage _ _ =>
    rw [← hresult, loopStep_cycling]
    refine ⟨?_, isOut_cycleStep h stage⟩
    cases hstep : (world.cycleStep stage).1 with
    | goesOn later => exact isEmptyHanded_of_goesOn h hstage hstep
    | ended outcome => trivial
    | crashed => trivial
  | _ => exact ⟨trivial, h⟩

/-- **A task goes on** with nothing in hand, and the directory stays out. -/
theorem isEmptyHanded_nextTask (h : world.directory.IsOut) (who : Nat) {task : Task}
    (htask : task.IsEmptyHanded) :
    (world.nextTask who task).IsEmptyHanded ∧ (world.nextWorld who task).directory.IsOut := by
  cases task with
  | call stage => exact isEmptyHanded_callStep h who htask
  | loop stage => exact isEmptyHanded_loopStep h who htask
  | supervisor stage =>
    refine ⟨trivial, ?_⟩
    have hmoves := world.supervisorMoves stage
    show (world.supervisorStep stage).2.directory.IsOut
    generalize world.supervisorStep stage = result at hmoves
    cases hmoves with
    | _ => exact h

omit [FallibleStore σ] in
/-- A task that comes in during an outage has nothing in hand. -/
theorem isEmptyHanded_of_arrival? {event : Event σ} {task : Task} (hallowed : outage world event)
    (harrival : world.arrival? event = some task) : task.IsEmptyHanded := by
  cases task with
  | supervisor stage => trivial
  | loop stage =>
    rw [(arrival?_eq_loop harrival).1]
    trivial
  | call stage =>
    obtain ⟨call, rfl, rfl⟩ := arrival?_eq_call harrival
    cases call with
    | update identity => exact hallowed.elim
    | removal id => exact hallowed.elim
    | _ => trivial

end Step

namespace CutOff

variable {world : World σ} {event : Event σ}

omit [FallibleStore σ] in
/-- **A gateway that is cut off writes nothing.** -/
theorem write?_eq_none (h : world.CutOff) (event : Event σ) : world.write? event = none := by
  cases event with
  | goOn who =>
    show world.tasks[who]?.bind world.taskWrite? = none
    cases htask : world.tasks[who]? with
    | none => rfl
    | some task =>
      have hempty := h.tasks who task htask
      -- A cycle with nothing in hand has nothing to write down, whoever runs it.
      have hcycle : ∀ {stage : CycleStage}, stage.IsEmptyHanded →
          world.cycleWrite? stage = none := by
        intro stage hstage
        cases stage with
        | queued => rfl
        | walking cycle => rw [cycleWrite?, hstage.1]; rfl
        | marking _ _ => exact absurd hstage id
      rw [Option.bind_some]
      cases task with
      | call stage =>
        cases stage with
        | begun call =>
          cases call with
          | update identity => exact absurd hempty id
          | removal id => exact absurd hempty fun h => h
          | _ => rfl
        | heard id purpose answer =>
          obtain ⟨error, rfl, htransient⟩ := hempty
          exact ofAnswer?_of_isTransient htransient id world.now
        | cycling stage => exact hcycle hempty
        | _ => rfl
      | loop stage =>
        cases stage with
        | cycling stage => exact hcycle hempty
        | _ => rfl
      | supervisor stage => rfl
  | _ => rfl

omit [FallibleStore σ] in
/-- **A cycle has nothing in hand** while the gateway is cut off, whoever runs it. -/
theorem isEmptyHanded (h : world.CutOff) {who : Nat} {stage : CycleStage}
    (hstage : world.cycleStage? who = some stage) : stage.IsEmptyHanded := by
  obtain ⟨task, htask, hcycle⟩ := Option.bind_eq_some_iff.1 hstage
  have hempty := h.tasks who task htask
  rw [Task.cycleStage?.eq_def] at hcycle
  split at hcycle
  · rwa [← Option.some.inj hcycle]
  · rwa [← Option.some.inj hcycle]
  · exact absurd hcycle (by simp)

/-- **An outage leaves the gateway cut off.** -/
theorem after (h : world.CutOff) (hallowed : outage world event) : (world.after event).CutOff := by
  constructor
  case directory =>
    cases event with
    | goOn who =>
      cases htask : world.tasks[who]? with
      | none =>
        rw [World.after, step_of_none htask]
        exact h.directory
      | some task =>
        rw [World.after, step_eq htask]
        exact (isEmptyHanded_nextTask h.directory who (h.tasks who task htask)).2
    | directory directory => exact hallowed
    | _ => exact h.directory
  case tasks =>
    intro who task htask
    rcases task_after_cases htask with
      ⟨-, before, hbefore, rfl⟩ | ⟨-, hbefore⟩ | ⟨-, harrival⟩
    · exact (isEmptyHanded_nextTask h.directory who (h.tasks who before hbefore)).1
    · exact h.tasks who task hbefore
    · exact isEmptyHanded_of_arrival? hallowed harrival

/-- **What an event does during an outage**: nothing is written and nothing told, and neither the
records nor what the store keeps is changed. -/
theorem unchanged_after (h : world.CutOff) (hadmits : world.Admits event) :
    world.attempts event = [] ∧ world.emission event = [] ∧
      (world.after event).cache.records = world.cache.records ∧
      KeyValueStore.contents (world.after event).cache.store =
        KeyValueStore.contents world.cache.store ∧
      ((∀ store, event ≠ .trouble store) →
        (world.after event).cache.store = world.cache.store) := by
  -- All of it comes down to nothing being written.
  have hwrite := h.write?_eq_none event
  have hattempts : world.attempts event = [] := congrArg world.cache.attempts hwrite
  have hrecords : (world.after event).cache.records = world.cache.records := by
    rw [records_after, hattempts]
    rfl
  have hstore : (∀ store, event ≠ .trouble store) →
      (world.after event).cache.store = world.cache.store := by
    intro hnone
    cases event with
    | goOn who =>
      have hcache := congrArg Cache.store (uncounted_step world who)
      rw [hwrite] at hcache
      exact hcache
    | trouble store => exact absurd rfl (hnone store)
    | _ => rfl
  refine ⟨hattempts, congrArg world.cache.emission hwrite, hrecords, ?_, hstore⟩
  cases event with
  | trouble store => exact FallibleStore.contents_of_befalls hadmits
  | _ => rw [hstore (by simp)]

end CutOff

/-! ### Replies during an outage -/

/-- **What a call is answered during an outage** that has begun at one moment, if it has come in at
another one, under this number. -/
inductive RepliesOut (start begun : World σ) (who : Nat) : Call → Reply → Prop where
  /-- The identity that was known before. -/
  | got (id : String) (refreshIfAbsent : Bool) :
    RepliesOut start begun who (.get id refreshIfAbsent) (.got (start.cache.identity? id))
  /-- The decision that would have been made before. -/
  | verified {id : String} {reply : Reply} (refreshIfStale : Bool)
    (hverdict : start.verdict? id = some reply) :
    RepliesOut start begun who (.verify id refreshIfStale) reply
  | refreshed (id : String) : RepliesOut start begun who (.refresh id) (.refreshed .retained)
  | refreshedMany (ids : List String) :
    RepliesOut start begun who (.refreshMany ids) (.refreshedMany ⟨0, 0, ids.length⟩)
  /-- The outcome with which its cycle has ended at some moment since. -/
  | ranCycle {log : List Attempt} {before : World σ} {stage : CycleStage} {outcome : CycleOutcome}
    (hsince : Course outage begun log before) (hstage : before.cycleStage? who = some stage)
    (hends : before.EndsOut stage outcome) :
    RepliesOut start begun who .runCycle (.ranCycle outcome)

/-- What a call waits for at each of its stages, and its reply. -/
def Awaits (start begun : World σ) (who : Nat) (call : Call) : CallStage → Prop
  | .begun other => other = call
  | .asking id purpose _ | .heard id purpose _ => call.LooksUp id purpose
  | .concluded id purpose outcome => call.LooksUp id purpose ∧ outcome = .retained
  | .cycling _ => call = .runCycle
  | .done reply => RepliesOut start begun who call reply

section Replies

variable {start begun world : World σ} {who : Nat} {call : Call}

/-- A call that asks for some of its ids has found nothing for those before. -/
theorem awaits_askMany (past rest : List String) :
    Awaits start begun who (.refreshMany (past ++ rest))
      (world.askMany rest ⟨0, 0, past.length⟩).1 := by
  cases rest with
  | nil =>
    rw [List.append_nil]
    exact .refreshedMany past
  | cons id rest => exact .refreshMany past id rest

theorem awaits_beginCall (hrecords : world.cache.records = start.cache.records)
    (hempty : (CallStage.begun call).IsEmptyHanded) :
    Awaits start begun who call (world.beginCall who call).1 := by
  have hrecord : ∀ id, world.cache.record? id = start.cache.record? id := fun id =>
    congrArg (fun records => records.get? id) hrecords
  -- What is answered at once is answered from the records, which are those of the start.
  cases call with
  | get id refreshIfAbsent =>
    rw [beginCall]
    split
    · exact .get id refreshIfAbsent
    · have hsame : world.cache.identity? id = start.cache.identity? id := by
        unfold Cache.identity?
        rw [hrecord]
      rw [hsame]
      exact .got id refreshIfAbsent
  | verify id refreshIfStale =>
    rw [beginCall]
    split
    · exact .verify id refreshIfStale
    · refine .verified refreshIfStale ?_
      rw [verdict?_eq, Cache.decide_congr (hrecord id)]
  | refresh id => exact .refresh id
  | refreshMany ids => exact awaits_askMany [] ids
  | update identity => exact hempty.elim
  | removal id => exact hempty.elim
  | runCycle => exact rfl

/-- Once its answer was concluded, a call has its reply or asks for the next id. -/
theorem awaits_proceed (hrecords : world.cache.records = start.cache.records) {id : String}
    {purpose : Purpose} (h : call.LooksUp id purpose) :
    Awaits start begun who call (world.proceed id purpose .retained).1 := by
  have hrecord : world.cache.record? id = start.cache.record? id :=
    congrArg (fun records => records.get? id) hrecords
  cases h with
  | get id refreshIfAbsent =>
    have hsame : world.cache.identity? id = start.cache.identity? id := by
      unfold Cache.identity?
      rw [hrecord]
    show RepliesOut start begun who _ (.got (world.cache.identity? id))
    rw [hsame]
    exact .got id refreshIfAbsent
  | verify id refreshIfStale =>
    refine .verified refreshIfStale ?_
    rw [verdict?_eq, Cache.decide_congr hrecord]
  | refresh id => exact .refreshed id
  | refreshMany past id rest =>
    have hids : Awaits start begun who (.refreshMany ((past ++ [id]) ++ rest))
        (world.askMany rest ⟨0, 0, (past ++ [id]).length⟩).1 := awaits_askMany _ rest
    rw [List.append_assoc, List.length_append] at hids
    exact hids

/-- **What a call waits for, one step later.** -/
theorem Awaits.step {log : List Attempt} {stage : CallStage} (h : Awaits start begun who call stage)
    (hcut : world.CutOff) (hrecords : world.cache.records = start.cache.records)
    (hsince : Course outage begun log world) (htask : world.tasks[who]? = some (.call stage))
    (hready : world.isReady who = true) :
    Awaits start begun who call (world.callStep who stage).1 := by
  have hempty : stage.IsEmptyHanded := hcut.tasks who _ htask
  cases stage with
  | begun other =>
    have hsame : other = call := h
    subst hsame
    exact awaits_beginCall hrecords hempty
  | asking id purpose due => exact h
  | heard id purpose answer =>
    -- An answer that says nothing about the id leaves it as it is.
    obtain ⟨error, rfl, htransient⟩ := hempty
    refine ⟨h, ?_⟩
    show (world.cache.conclude id (.error error) world.now).1 = .retained
    exact Cache.fst_conclude_of_isTransient htransient _ _ _
  | concluded id purpose outcome =>
    obtain ⟨hlooksUp, rfl⟩ := h
    exact awaits_proceed hrecords hlooksUp
  | cycling stage =>
    have hcall : call = .runCycle := h
    subst hcall
    have hstage : world.cycleStage? who = some stage := cycleStage?_of_task htask
    rw [isReady_eq_of_cycleStage? hstage] at hready
    rw [callStep]
    split
    · exact rfl
    · next hended =>
      exact .ranCycle hsince hstage (endsOut_of_ended hempty hready (congrArg Prod.fst hended))
    · next hcrashed =>
      exact absurd (congrArg Prod.fst hcrashed)
        (not_crashed_of_opens hcut.directory.opens hempty.lasts)
  | done reply => exact absurd hready (not_isReady_of_done htask)

end Replies

/-! ### A call comes to its end -/

/-- A call that wants to run a cycle does so, or has its reply. -/
theorem cycling_or_done_step {world : World σ} {who : Nat} {stage : CallStage}
    (h : (∃ cycle, stage = .cycling cycle) ∨ ∃ reply, stage = .done reply) :
    (∃ cycle, (world.callStep who stage).1 = .cycling cycle) ∨
      ∃ reply, (world.callStep who stage).1 = .done reply := by
  rcases h with ⟨cycle, rfl⟩ | ⟨reply, rfl⟩
  · rw [callStep]
    split
    · exact .inl ⟨_, rfl⟩
    · exact .inr ⟨_, rfl⟩
    · exact .inr ⟨_, rfl⟩
  · exact .inr ⟨reply, rfl⟩

/-- **A call that wants to run a cycle has its reply** when its turn has come and its cycle has
ended, or was cancelled. -/
theorem exists_reply_of_queued {world : World σ} {who : Nat} (horderly : world.Orderly)
    (htask : world.tasks[who]? = some (.call (.cycling .queued))) :
    ∃ log later reply, Course cyclesOnly world log later ∧ later.reply? who = some reply := by
  have hstage : world.cycleStage? who = some .queued := cycleStage?_of_task htask
  obtain ⟨log, later, hlater, hleft⟩ := exists_left horderly hstage
  obtain ⟨stage, htask, hcase⟩ := hlater.stage_induction htask
    (P := fun _ _ stage => (∃ cycle, stage = .cycling cycle) ∨ ∃ reply, stage = .done reply)
    (.inl ⟨_, rfl⟩) (fun _ _ _ _ _ _ h => cycling_or_done_step h) (fun _ _ _ _ _ _ _ _ h => h)
  rcases hcase with ⟨cycle, rfl⟩ | ⟨reply, rfl⟩
  · rw [cycleStage?_of_task htask] at hleft
    exact absurd hleft (by simp [Task.cycleStage?])
  · exact ⟨log, later, reply, hlater, reply?_eq_some_iff.2 htask⟩

omit [FallibleStore σ] in
theorem outage_of_cyclesOnly (world : World σ) (event : Event σ) (h : cyclesOnly world event) :
    outage world event := by
  rcases h with ⟨who, rfl, -⟩ | ⟨clock, rfl, -⟩ <;> trivial

/-- **Every call comes to its end** during an outage. -/
theorem exists_reply_of_outage {world : World σ} (horderly : world.Orderly) {call : Call}
    (hallowed : outage world (.call call)) :
    ∃ log later reply, Course outage (world.begin call) log later ∧
      later.reply? world.tasks.length = some reply := by
  have hgoOn : ∀ world : World σ, ∀ who, outage world (.goOn who) := fun _ _ => trivial
  have hcalled : Course outage world [] (world.begin call) := Course.here.call call hallowed
  obtain ⟨hbegun, htask⟩ := Course.here.proceed (hgoOn _ _) (task_begin world call) rfl
  have horderly := (hcalled.trans hbegun).orderly horderly
  have hturns := (world.begin call).callTurns world.tasks.length (.begun call)
  generalize (world.begin call).callStep world.tasks.length (.begun call) = result at hturns htask
  cases hturns with
  | replied _ reply => exact ⟨_, _, reply, hbegun, reply?_eq_some_iff.2 htask⟩
  | wrote _ reply => exact ⟨_, _, reply, hbegun, reply?_eq_some_iff.2 htask⟩
  | asked _ id purpose =>
    obtain ⟨log, later, reply, hlater, hreply⟩ :=
      exists_reply_of_asking (fun world => hgoOn world _) (fun _ _ => trivial) htask
    exact ⟨_, later, reply, hbegun.trans hlater, hreply⟩
  | claimed =>
    obtain ⟨log, later, reply, hlater, hreply⟩ := exists_reply_of_queued horderly htask
    exact ⟨_, later, reply, hbegun.trans (hlater.mono outage_of_cyclesOnly), hreply⟩

/-! ### Along an outage -/

/-- **Nothing has changed** since the outage has begun, nothing was written and nothing told. -/
structure Unchanged (start world : World σ) (log : List Attempt) (told : List Change) : Prop where
  records_eq : world.cache.records = start.cache.records
  contents_eq : KeyValueStore.contents world.cache.store =
    KeyValueStore.contents start.cache.store
  log_eq : log = []
  told_eq : told = []
  verdict_eq : ∀ id, world.verdict? id = start.verdict? id

section Along

variable {start world : World σ} {log : List Attempt} {told : List Change}

theorem Course.cutOff (h : Course outage start log world) (hcut : start.CutOff) : world.CutOff :=
  h.invariant hcut fun _ _ hallowed _ hworld => hworld.after hallowed

/-- **An outage changes nothing**, however long it lasts. -/
theorem Chronicle.unchanged (h : Chronicle outage start log told world) (hcut : start.CutOff) :
    Unchanged start world log told := by
  induction h with
  | here => exact ⟨rfl, rfl, rfl, rfl, fun _ => rfl⟩
  | @next log told changes world event hchronicle hallowed hadmits hemits ih =>
    obtain ⟨hrecords, hcontents, hlog, htold, -⟩ := ih
    obtain ⟨hattempts, hemission, hsame, hkept, -⟩ :=
      (hchronicle.course.cutOff hcut).unchanged_after hadmits
    have hunchanged := hsame.trans hrecords
    refine ⟨hunchanged, hkept.trans hcontents, ?_, ?_, fun id => ?_⟩
    · rw [hlog, hattempts]
      rfl
    · rw [htold, emits_iff.1 hemits, hemission]
      rfl
    · have hrecord : (world.after event).cache.record? id = start.cache.record? id :=
        congrArg (fun records => records.get? id) hunchanged
      rw [verdict?_eq, verdict?_eq, Cache.decide_congr hrecord]

/-- The store itself stays as it is if it does not run into trouble either. -/
theorem Course.store_eq (h : Course (fun world event => outage world event ∧
      ∀ store, event ≠ .trouble store) start log world) (hcut : start.CutOff) :
    world.cache.store = start.cache.store := by
  refine (h.invariant (P := fun world => world.CutOff ∧ world.cache.store = start.cache.store)
    ⟨hcut, rfl⟩ ?_).2
  rintro world event ⟨hallowed, huntroubled⟩ hadmits ⟨hworld, hstore⟩
  obtain ⟨-, -, -, -, hsame⟩ := hworld.unchanged_after hadmits
  exact ⟨hworld.after hallowed, (hsame huntroubled).trans hstore⟩

/-- **What a call that has come in during the outage is answered.** -/
theorem Course.repliesOut {begun : World σ} {who : Nat} {call : Call}
    (h : Course outage begun log world) (hcut : begun.CutOff)
    (hrecords : begun.cache.records = start.cache.records)
    (htask : begun.tasks[who]? = some (.call (.begun call))) {reply : Reply}
    (hreply : world.reply? who = some reply) : RepliesOut start begun who call reply := by
  have hgoOn : ∀ log world stage, Course outage begun log world →
      world.tasks[who]? = some (.call stage) → world.isReady who = true →
      Awaits start begun who call stage →
      Awaits start begun who call (world.callStep who stage).1 := by
    intro log world stage hcourse htask hready hawaits
    obtain ⟨told, hchronicle⟩ := hcourse.exists_chronicle
    exact hawaits.step (hcourse.cutOff hcut)
      ((hchronicle.unchanged hcut).records_eq.trans hrecords) hcourse htask hready
  obtain ⟨stage, hstage, hawaits⟩ := h.stage_induction htask
    (P := fun _ _ stage => Awaits start begun who call stage) rfl hgoOn
    (fun _ _ _ _ _ _ _ _ h => h)
  obtain rfl := stage_eq_of_reply? hreply hstage
  exact hawaits

end Along

/-- **An outage changes nothing.** Whatever has happened to a gateway before, once it is cut off

* nothing is written and nothing told, no record changes, and neither does what the store keeps, nor
  what is decided;
* no cycle crashes, and all that end have done nothing: the listing has broken off, or its time has
  run out first, or the service was shutting down;
* every call that comes in comes to its end, and its reply is what was known before.

The store itself is the same at the end, unless it has run into trouble of its own. -/
theorem outage_changes_nothing {clock : Int} {directory : Directory} {cache : Cache σ}
    {config : Config} {history : List Attempt} {start : World σ}
    (h : Course anything (World.start clock directory cache config) history start)
    (hcut : start.CutOff) :
    (∀ log told world, Chronicle outage start log told world →
      Unchanged start world log told ∧
      (∀ who stage, world.cycleStage? who = some stage → world.isReady who = true →
        (world.cycleStep stage).1 ≠ .crashed ∧
        ∀ outcome, (world.cycleStep stage).1 = .ended outcome → world.EndsOut stage outcome) ∧
      ∀ call, outage world (.call call) →
        (∃ more later reply, Course outage (world.begin call) more later ∧
          later.reply? world.tasks.length = some reply) ∧
        ∀ more later reply, Course outage (world.begin call) more later →
          later.reply? world.tasks.length = some reply →
          RepliesOut start (world.begin call) world.tasks.length call reply) ∧
    ∀ log world, Course (fun world event => outage world event ∧
        ∀ store, event ≠ .trouble store) start log world →
      world.cache.store = start.cache.store := by
  refine ⟨fun log told world hchronicle => ?_, fun log world hcourse => hcourse.store_eq hcut⟩
  have hworld := hchronicle.course.cutOff hcut
  have hunchanged := hchronicle.unchanged hcut
  have horderly := hchronicle.course.orderly
    (h.orderly (orderly_start clock directory cache config))
  refine ⟨hunchanged, fun who stage hstage hready => ⟨?_, fun outcome hended => ?_⟩,
    fun call hallowed => ⟨exists_reply_of_outage horderly hallowed,
      fun more later reply hlater hreply => ?_⟩⟩
  · exact not_crashed_of_opens hworld.directory.opens (hworld.isEmptyHanded hstage).lasts
  · rw [isReady_eq_of_cycleStage? hstage] at hready
    exact endsOut_of_ended (hworld.isEmptyHanded hstage) hready hended
  · have hbegun : (world.begin call).CutOff := hworld.after hallowed
    exact hlater.repliesOut hbegun hunchanged.records_eq (task_begin world call) hreply

/-- A device is known, and its record is too old when the directory cannot be reached: it is asked
for and nothing is found, so the last record decides. -/
theorem outage_changes_nothing_stale :
    ∃ (start world later : World MemoryStore) (history log more : List Attempt) (told : List Change)
      (reply : Reply),
      Course anything (World.start 0 .offline .blank .standard) history start ∧ start.CutOff ∧
      Chronicle outage start log told world ∧ world.cache.isStale "d" world.now = true ∧
      Course outage (world.begin (.verify "d" true)) more later ∧
      later.reply? world.tasks.length = some reply ∧ start.verdict? "d" = some reply ∧
      start.cache.identity? "d" = some (.ofDevice "d" "1" .none .enabled) := by
  let known : Identity := .ofDevice "d" "1" .none .enabled
  let first : World MemoryStore := World.start 0 .offline .blank .standard
  have hupdating : Course anything first [] (first.begin (.update known)) :=
    Course.here.call (.update known) trivial
  have hupdated := hupdating.goOn 0 trivial (by decide +kernel)
  let start : World MemoryStore := first.serve (.update known)
  have hcut : start.CutOff :=
    cutOff_of_isDone (Directory.isOut_of_unreachable rfl) (by decide +kernel)
  let clock : Int := 1000000000000
  have hclock : outage start (.clock clock) := trivial
  have hpassed : Chronicle outage start [] [] { start with clock } :=
    Chronicle.here.next hclock trivial (emits_iff.2 rfl)
  obtain ⟨hends, -⟩ := outage_changes_nothing hupdated hcut
  obtain ⟨-, -, hcalls⟩ := hends _ _ _ hpassed
  obtain ⟨⟨more, later, reply, hlater, hreply⟩, hreplies⟩ := hcalls (.verify "d" true) trivial
  refine ⟨start, { start with clock }, later, _, [], more, [], reply, hupdated, hcut, hpassed,
    by decide +kernel, hlater, hreply, ?_, by decide +kernel⟩
  cases hreplies more later reply hlater hreply with
  | verified _ hverdict => exact hverdict

end World

end DeviceScope
