import DeviceScope.Proofs.Service.Answering
import DeviceScope.Proofs.Service.Reconciliation

/-!
# Calls that ask the directory

A call that asks the directory for ids does so for one after another, and nothing of what it does
depends on anything else: while nobody else goes on, it hears what the directory states of each id
(`Directory.statement?`), and writes exactly this (`World.Sought`, `Course.seeks`). For a directory
in memory whose look-ups do not fail this is what it holds (`Directory.statement?_eq`).

Such a call comes to its end, if time passes and nobody else goes on (`World.exists_reply`).
-/

namespace DeviceScope

variable {σ : Type}

/-! ### What a directory states -/

namespace Directory

/-- What the directory holds under an id. -/
def entry (directory : Directory) (id : String) : Entry :=
  match directory.identities.get? id with
  | some identity => .present identity
  | none => .absent

/-- **What the directory states** when it is asked for an id: an identity is stated to be held under
the id that it has. A failure states nothing. -/
def statement? (directory : Directory) (id : String) : Option (String × Entry) :=
  match directory.answer id with
  | .ok (some identity) => some (identity.id, .present identity)
  | .ok none | .error (.invalidState _ _) => some (id, .absent)
  | .error _ => none

theorem map_statement_ofAnswer? (directory : Directory) (id : String) (now : Timestamp) :
    (Record.ofAnswer? id (directory.answer id) now).map Record.statement =
      directory.statement? id := by
  unfold Record.ofAnswer? statement?
  rcases directory.answer id with error | identity
  · cases error <;> rfl
  · cases identity <;> rfl

theorem entry_identity? (directory : Directory) (id : String) :
    (directory.entry id).identity? = directory.identities.get? id := by
  unfold entry
  cases directory.identities.get? id <;> rfl

/-- A directory in memory whose look-ups do not fail states what it holds. -/
theorem statement?_eq {directory : Directory} (h : directory.InMemory)
    (hfailure : directory.lookupFailure = none) (id : String) :
    directory.statement? id = some (id, directory.entry id) := by
  unfold statement? answer entry
  rw [h.reachable, hfailure]
  by_cases hinvalid : directory.invalid.contains id = true
  · -- The id is stated to be out of scope, and no identity is held under it.
    simp only [hinvalid, h.get?_eq_none_of_invalid hinvalid, Bool.not_true, Bool.false_eq_true,
      if_true, if_false]
  · -- An identity that is held under the id has this id, so the statement is about it.
    simp only [hinvalid, Bool.not_true, Bool.false_eq_true, if_false]
    cases hget : directory.identities.get? id with
    | none => rfl
    | some identity =>
      have hid : identity.id = id := h.keyedBy id identity hget
      show some (identity.id, Entry.present identity) = some (id, .present identity)
      rw [hid]

theorem statement?_eq_none {directory : Directory} (h : directory.InMemory)
    {error : DirectoryError} (hfailure : directory.lookupFailure = some error)
    (htransient : ∀ id message, error ≠ .invalidState id message) (id : String) :
    directory.statement? id = none := by
  unfold statement? answer
  rw [h.reachable, hfailure]
  cases error with
  | invalidState id message => exact absurd rfl (htransient id message)
  | _ => rfl

/-- The directory after some look-ups. -/
def asked (directory : Directory) (count : Nat) : Directory :=
  { directory with lookups := directory.lookups + count }

theorem lookup_asked {directory : Directory} (h : directory.reachable = true) (count : Nat)
    (id : String) :
    (directory.asked count).lookup (.parse id) =
      (directory.answer id, directory.asked (count + 1)) := by
  have hreachable : (directory.asked count).reachable = true := h
  unfold lookup
  rw [if_pos hreachable, Identity.Key.text_parse]
  rfl

end Directory

/-- The ids that are still to be asked for. -/
def Purpose.rest : Purpose → List String
  | .refreshMany rest _ => rest
  | _ => []

namespace World

variable [FallibleStore σ]

/-! ### Nobody else goes on -/

omit [FallibleStore σ] in
theorem lone_goOn (who : Nat) (world : World σ) : lone who world (.goOn who) := by
  refine ⟨?_, by simp⟩
  intro other hother
  exact (Event.goOn.inj hother).symm

omit [FallibleStore σ] in
theorem lone_clock (who : Nat) (world : World σ) (clock : Int) : lone who world (.clock clock) :=
  ⟨by simp, by simp⟩

/-- Where nobody else goes on, nothing is written unless the task goes on. -/
theorem attempts_of_lone {who : Nat} {world : World σ} {event : Event σ}
    (h : lone who world event) (hevent : event ≠ .goOn who) :
    world.attempts event = [] ∧ (world.after event).directory = world.directory ∧
      (world.after event).cache.records = world.cache.records := by
  rcases lone_cases h with heq | ⟨hattempts, hdirectory, -⟩
  · exact absurd heq hevent
  · refine ⟨hattempts, hdirectory, ?_⟩
    rw [records_after, hattempts]
    rfl

theorem attempts_goOn_of_call {world : World σ} {who : Nat} {stage : CallStage}
    (h : world.tasks[who]? = some (.call stage)) :
    world.attempts (.goOn who) = world.cache.attempts (world.callWrite? stage) := by
  show world.cache.attempts (world.tasks[who]?.bind world.taskWrite?) = _
  rw [h]
  rfl

theorem directory_step_of_call {world : World σ} {who : Nat} {stage : CallStage}
    (h : world.tasks[who]? = some (.call stage)) :
    (world.step who).directory = (world.callStep who stage).2.directory := by
  rw [step_of_call h]
  rfl

/-! ### One id after another -/

/-- **Some ids were sought in a directory**: it was asked for each of them, and what it states of
them was to be written. -/
structure Sought (directory : Directory) (ids : List String) (log : List Attempt)
    (world : World σ) : Prop where
  directory_eq : world.directory = directory.asked ids.length
  log_eq : log.map Attempt.statement = ids.filterMap directory.statement?

/-- What a call for some ids has done at each of its stages. -/
def Seeks (directory : Directory) (ids : List String) (log : List Attempt) (world : World σ) :
    CallStage → Prop
  | .begun call => call = .refreshMany ids ∧ Sought directory [] log world
  | .asking id purpose _ =>
    ∃ past, ids = past ++ id :: purpose.rest ∧ Sought directory past log world
  | .heard id purpose answer =>
    ∃ past, ids = past ++ id :: purpose.rest ∧ answer = directory.answer id ∧
      world.directory = directory.asked (past.length + 1) ∧
      log.map Attempt.statement = past.filterMap directory.statement?
  | .concluded id purpose _ =>
    ∃ past, ids = past ++ id :: purpose.rest ∧ Sought directory (past ++ [id]) log world
  | .cycling _ => False
  | .done _ => Sought directory ids log world

omit [FallibleStore σ] in
theorem directory_askMany (world : World σ) (ids : List String) (summary : RefreshSummary) :
    (world.askMany ids summary).2.directory = world.directory := by
  cases ids <;> rfl

omit [FallibleStore σ] in
theorem seeks_askMany {directory : Directory} {past rest : List String} {log : List Attempt}
    {world later : World σ} (h : Sought directory past log world)
    (hdirectory : later.directory = world.directory) (summary : RefreshSummary) :
    Seeks directory (past ++ rest) log later (world.askMany rest summary).1 := by
  have hlater : Sought directory past log later := ⟨hdirectory.trans h.directory_eq, h.log_eq⟩
  cases rest with
  | nil =>
    rw [List.append_nil]
    exact hlater
  | cons id rest => exact ⟨past, rfl, hlater⟩

omit [FallibleStore σ] in
theorem directory_proceed (world : World σ) (id : String) (purpose : Purpose)
    (outcome : RefreshOutcome) : (world.proceed id purpose outcome).2.directory =
      world.directory := by
  cases purpose with
  | refreshMany rest summary => exact directory_askMany world rest _
  | _ => rfl

omit [FallibleStore σ] in
theorem seeks_proceed {directory : Directory} {past : List String} {log : List Attempt}
    {world later : World σ} {id : String} {purpose : Purpose}
    (h : Sought directory (past ++ [id]) log world) (hdirectory : later.directory = world.directory)
    (outcome : RefreshOutcome) :
    Seeks directory (past ++ id :: purpose.rest) log later
      (world.proceed id purpose outcome).1 := by
  rw [List.append_cons]
  cases purpose with
  | refreshMany rest summary => exact seeks_askMany h hdirectory _
  -- Any other call was for this id only.
  | _ =>
    rw [show Purpose.rest _ = [] from rfl, List.append_nil]
    exact ⟨hdirectory.trans h.directory_eq, h.log_eq⟩

/-- **What a call for some ids has done, one step later.** -/
theorem Seeks.step {directory : Directory} {ids : List String} {log : List Attempt}
    {world : World σ} {who : Nat} {stage : CallStage} (hreachable : directory.reachable = true)
    (h : Seeks directory ids log world stage) (htask : world.tasks[who]? = some (.call stage))
    (hready : world.isReady who = true) :
    Seeks directory ids (log ++ world.attempts (.goOn who)) (world.step who)
      (world.callStep who stage).1 := by
  have hdirectory := directory_step_of_call htask
  rw [attempts_goOn_of_call htask]
  -- An id is asked for, heard and concluded; it is written when it is heard, and only then.
  cases stage with
  | begun call =>
    obtain ⟨rfl, hsought⟩ := h
    rw [show world.callWrite? (.begun (.refreshMany ids)) = none from rfl, Cache.attempts_none,
      List.append_nil]
    exact seeks_askMany hsought (hdirectory.trans (directory_askMany _ _ _)) .none
  | asking id purpose due =>
    obtain ⟨past, hids, hsought⟩ := h
    have hlookup := Directory.lookup_asked hreachable past.length id
    rw [← hsought.directory_eq] at hlookup
    rw [show world.callWrite? (.asking id purpose due) = none from rfl, Cache.attempts_none,
      List.append_nil]
    refine ⟨past, hids, congrArg Prod.fst hlookup, ?_, hsought.log_eq⟩
    exact hdirectory.trans (congrArg Prod.snd hlookup)
  | heard id purpose answer =>
    obtain ⟨past, hids, rfl, hheard, hlog⟩ := h
    refine ⟨past, hids, ?_, ?_⟩
    · rw [List.length_append, List.length_singleton]
      exact hdirectory.trans hheard
    · rw [List.map_append, hlog, Cache.map_statement_attempts, List.filterMap_append,
        show world.callWrite? (.heard id purpose (directory.answer id)) =
          Record.ofAnswer? id (directory.answer id) world.now from rfl,
        Directory.map_statement_ofAnswer?]
      rfl
  | concluded id purpose outcome =>
    obtain ⟨past, hids, hsought⟩ := h
    rw [show world.callWrite? (.concluded id purpose outcome) = none from rfl,
      Cache.attempts_none, List.append_nil, hids]
    exact seeks_proceed hsought (hdirectory.trans (directory_proceed _ _ _ _)) outcome
  | cycling stage => exact absurd h fun h => h
  | done reply => exact absurd hready (not_isReady_of_done htask)

omit [FallibleStore σ] in
/-- Nothing but the directory of the world matters. -/
theorem Seeks.of_directory {directory : Directory} {ids : List String} {log : List Attempt}
    {world later : World σ} {stage : CallStage} (h : Seeks directory ids log world stage)
    (hsame : later.directory = world.directory) : Seeks directory ids log later stage := by
  have hsought : ∀ ids, Sought directory ids log world → Sought directory ids log later :=
    fun _ h => ⟨hsame.trans h.directory_eq, h.log_eq⟩
  cases stage with
  | begun call => exact ⟨h.1, hsought _ h.2⟩
  | asking id purpose due =>
    obtain ⟨past, hids, hpast⟩ := h
    exact ⟨past, hids, hsought _ hpast⟩
  | heard id purpose answer =>
    obtain ⟨past, hids, hanswer, hdirectory, hlog⟩ := h
    exact ⟨past, hids, hanswer, hsame.trans hdirectory, hlog⟩
  | concluded id purpose outcome =>
    obtain ⟨past, hids, hpast⟩ := h
    exact ⟨past, hids, hsought _ hpast⟩
  | cycling stage => exact h
  | done reply => exact hsought _ h

/-- **What a call for some ids has done** at the end of a course on which nobody else goes on. -/
theorem Course.seeks {directory : Directory} {ids : List String} {start world : World σ}
    {who : Nat} {first : CallStage} {log : List Attempt} (h : Course (lone who) start log world)
    (hreachable : directory.reachable = true) (hfirst : start.tasks[who]? = some (.call first))
    (hstart : Seeks directory ids [] start first) :
    ∃ stage, world.tasks[who]? = some (.call stage) ∧ Seeks directory ids log world stage := by
  refine h.stage_induction hfirst hstart ?_ ?_
  · intro log world stage _ htask hready hseeks
    exact hseeks.step hreachable htask hready
  · intro log world event stage _ hallowed _ hevent hseeks
    obtain ⟨hattempts, hdirectory, -⟩ := attempts_of_lone hallowed hevent
    rw [hattempts, List.append_nil]
    exact hseeks.of_directory hdirectory

/-! ### Coming to an end -/

/-- A call that can go on does so. -/
theorem Course.proceed {allowed : World σ → Event σ → Prop} {start world : World σ} {who : Nat}
    {stage : CallStage} {log : List Attempt} (h : Course allowed start log world)
    (hallowed : allowed world (.goOn who)) (htask : world.tasks[who]? = some (.call stage))
    (hready : world.isTaskReady who (.call stage) = true) :
    Course allowed start (log ++ world.attempts (.goOn who)) (world.step who) ∧
      (world.step who).tasks[who]? = some (.call (world.callStep who stage).1) := by
  refine ⟨h.goOn who hallowed ?_, task_step_of_call htask⟩
  rw [isReady, htask]
  exact hready

/-- A task that can go on does so, and nobody else. -/
theorem Course.advance {start world : World σ} {who : Nat} {stage : CallStage}
    {log : List Attempt} (h : Course (lone who) start log world)
    (htask : world.tasks[who]? = some (.call stage))
    (hready : world.isTaskReady who (.call stage) = true) :
    Course (lone who) start (log ++ world.attempts (.goOn who)) (world.step who) ∧
      (world.step who).tasks[who]? = some (.call (world.callStep who stage).1) :=
  h.proceed (lone_goOn who world) htask hready

section Reply

variable {allowed : World σ → Event σ → Prop} {world : World σ} {who : Nat} {id : String}

/-- **A call that has asked the directory hears and writes** what there is to write, once the answer
is due. -/
theorem exists_concluded (hgoOn : ∀ world, allowed world (.goOn who))
    (hclock : ∀ world clock, allowed world (.clock clock)) {purpose : Purpose} {due : Option Int}
    (h : world.tasks[who]? = some (.call (.asking id purpose due))) :
    ∃ log later outcome, Course allowed world log later ∧
      later.tasks[who]? = some (.call (.concluded id purpose outcome)) := by
  -- The clock moves to the moment at which the answer is due.
  have hticked := Course.here.tick (due.getD world.clock) (hclock world _)
  have hdue : due.all (· ≤ due.getD world.clock) = true := by cases due <;> simp
  obtain ⟨hheard, htask⟩ := hticked.proceed (hgoOn _) h hdue
  obtain ⟨hconcluded, htask⟩ := hheard.proceed (hgoOn _) htask rfl
  exact ⟨_, _, _, hconcluded, htask⟩

/-- A call that has concluded one of several ids goes on until it has concluded the last. -/
theorem exists_reply_of_refreshMany (hgoOn : ∀ world, allowed world (.goOn who))
    (hclock : ∀ world clock, allowed world (.clock clock)) (rest : List String)
    {summary : RefreshSummary} {outcome : RefreshOutcome}
    (h : world.tasks[who]? =
      some (.call (.concluded id (.refreshMany rest summary) outcome))) :
    ∃ log later reply, Course allowed world log later ∧ later.reply? who = some reply := by
  induction rest generalizing world id summary outcome with
  | nil =>
    obtain ⟨hdone, htask⟩ := Course.here.proceed (hgoOn _) h rfl
    exact ⟨_, _, _, hdone, reply?_eq_some_iff.2 htask⟩
  | cons next rest ih =>
    obtain ⟨hasking, htask⟩ := Course.here.proceed (hgoOn _) h rfl
    obtain ⟨log, middle, outcome, hmiddle, htask⟩ := exists_concluded hgoOn hclock htask
    obtain ⟨more, later, reply, hlater, hreply⟩ := ih htask
    exact ⟨_, later, reply, (hasking.trans hmiddle).trans hlater, hreply⟩

/-- **A call that asks the directory comes to its end**, if it may go on and time may pass. -/
theorem exists_reply_of_asking (hgoOn : ∀ world, allowed world (.goOn who))
    (hclock : ∀ world clock, allowed world (.clock clock)) {purpose : Purpose} {due : Option Int}
    (h : world.tasks[who]? = some (.call (.asking id purpose due))) :
    ∃ log later reply, Course allowed world log later ∧ later.reply? who = some reply := by
  obtain ⟨log, middle, outcome, hmiddle, htask⟩ := exists_concluded hgoOn hclock h
  cases purpose with
  | refreshMany rest summary =>
    obtain ⟨more, later, reply, hlater, hreply⟩ :=
      exists_reply_of_refreshMany hgoOn hclock rest htask
    exact ⟨_, later, reply, hmiddle.trans hlater, hreply⟩
  | _ =>
    obtain ⟨hdone, htask⟩ := hmiddle.proceed (hgoOn _) htask rfl
    exact ⟨_, _, _, hdone, reply?_eq_some_iff.2 htask⟩

/-- So it does while nobody else goes on. -/
theorem exists_reply {purpose : Purpose} {due : Option Int}
    (h : world.tasks[who]? = some (.call (.asking id purpose due))) :
    ∃ log later reply, Course (lone who) world log later ∧ later.reply? who = some reply :=
  exists_reply_of_asking (lone_goOn who) (lone_clock who) h

end Reply

end World

end DeviceScope
