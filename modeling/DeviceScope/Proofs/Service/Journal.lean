import DeviceScope.Proofs.Service.Ending
import DeviceScope.Proofs.Service.Line
import DeviceScope.Proofs.Service.Supervision

/-!
# The journal of a gateway

The journal tells what the statistics are about (`Happening`): that the directory was asked for an
id and has answered, what became of a refresh, that a cycle has begun, has crashed or has returned.
What an event brings about is read off the stages of the task that goes on (`World.happening?`), not
off any counter, and `World.Journaled` is a course of events together with its journal.

Whatever changes with every event as the journal tells has changed over a course as the whole
journal tells (`World.Journaled.balance`). The tasks that are waiting for the directory or are in
the middle of a cycle are counted in this way: `World.Journaled.awaited_eq` and
`World.Journaled.underWay_eq`.
-/

namespace DeviceScope

variable {σ : Type}

/-- What happens in a gateway that its statistics are about. -/
inductive Happening where
  /-- The directory was asked for an id. -/
  | asked (id : String)
  /-- The directory has answered. -/
  | answered (id : String)
  /-- A refresh has come to its end. -/
  | refreshed (id : String) (outcome : RefreshOutcome)
  /-- A cycle has begun. -/
  | began
  /-- A cycle has begun, and opening its listing has crashed. -/
  | crashed
  /-- A cycle in progress has crashed, as it fetched a page. -/
  | fell
  /-- A cycle has returned. -/
  | returned (outcome : CycleOutcome)
  deriving DecidableEq, Repr

namespace Happening

def lookups : Happening → Nat
  | .asked _ => 1
  | _ => 0

def answers : Happening → Nat
  | .answered _ => 1
  | _ => 0

/-- Refreshes that left the record as it was. -/
def retentions : Happening → Nat
  | .refreshed _ .retained => 1
  | _ => 0

/-- Cycles that have begun, whether or not their listing could be opened. -/
def starts : Happening → Nat
  | .began | .crashed => 1
  | _ => 0

/-- Cycles that have begun and are in progress from then on. -/
def begins : Happening → Nat
  | .began => 1
  | _ => 0

/-- Cycles that were in progress and are no more. -/
def ends : Happening → Nat
  | .returned .cancelled => 0
  | .returned _ | .fell => 1
  | _ => 0

/-- Cycles that have crashed as their listing was opened. -/
def crashesAtOnce : Happening → Nat
  | .crashed => 1
  | _ => 0

/-- Cycles that have crashed later. -/
def falls : Happening → Nat
  | .fell => 1
  | _ => 0

/-- Cycles that have crashed. -/
def crashes (happening : Happening) : Nat := happening.crashesAtOnce + happening.falls

def completions : Happening → Nat
  | .returned (.completed _) => 1
  | _ => 0

def aborts : Happening → Nat
  | .returned (.aborted _ _) => 1
  | _ => 0

def timeouts : Happening → Nat
  | .returned (.timedOut _) => 1
  | _ => 0

/-- What a cycle that has returned has reported. One that was cancelled has nothing to report. -/
def report : Happening → Report
  | .returned outcome => outcome.report
  | _ => .none

end Happening

/-- What happened, one thing after another. -/
abbrev Journal := List Happening

namespace Journal

/-- How much of something the journal tells of. -/
def total (journal : Journal) (amount : Happening → Nat) : Nat :=
  journal.foldr (fun happening sum => amount happening + sum) 0

theorem total_cons (happening : Happening) (journal : Journal) (amount : Happening → Nat) :
    total (happening :: journal) amount = amount happening + journal.total amount := rfl

theorem total_append (journal more : Journal) (amount : Happening → Nat) :
    total (journal ++ more) amount = journal.total amount + more.total amount := by
  induction journal with
  | nil => exact (Nat.zero_add _).symm
  | cons happening journal ih => rw [List.cons_append, total_cons, total_cons, ih, Nat.add_assoc]

/-- Amounts may be added one by one, or all at once. -/
theorem total_add (journal : Journal) (amount more : Happening → Nat) :
    (journal.total fun happening => amount happening + more happening) =
      journal.total amount + journal.total more := by
  induction journal with
  | nil => rfl
  | cons happening journal ih =>
    rw [total_cons, total_cons, total_cons, ih]
    exact Nat.add_add_add_comm _ _ _ _

end Journal

/-- What has happened when a call comes to a stage. -/
def CallStage.happening? : CallStage → Option Happening
  | .asking id _ _ => some (.asked id)
  | .heard id _ _ => some (.answered id)
  | .concluded id _ outcome => some (.refreshed id outcome)
  | .begun _ | .cycling _ | .done _ => none

/-- What has happened when a cycle goes on from a stage. -/
def World.CycleStep.happening? (stage : CycleStage) : World.CycleStep → Option Happening
  | .goesOn _ => if stage.isUnderWay then none else some .began
  | .ended outcome => some (.returned outcome)
  | .crashed => some (if stage.isUnderWay then .fell else .crashed)

/-- Whether the task is in the middle of a cycle. -/
def Task.isUnderWay (task : Task) : Bool := task.cycleStage?.any CycleStage.isUnderWay

/-- Whether the task waits for an answer of the directory. -/
def Task.isAsking : Task → Bool
  | .call (.asking _ _ _) => true
  | _ => false

namespace World

/-- The number of calls that wait for an answer of the directory. -/
def awaited (world : World σ) : Nat := world.tasks.countP Task.isAsking

/-- The number of cycles in progress. -/
def underWay (world : World σ) : Nat := world.tasks.countP Task.isUnderWay

/-- The cycles in progress are counted one for each task that runs one. -/
theorem underWay_eq_zero {world : World σ} (h : ∀ who, world.isUnderWay who = false) :
    world.underWay = 0 := by
  apply List.countP_eq_zero.2
  intro task hmem hunderWay
  obtain ⟨who, htask⟩ := List.getElem?_of_mem hmem
  have hidle : task.isUnderWay = false := (isUnderWay_of_task htask).symm.trans (h who)
  rw [hidle] at hunderWay
  exact absurd hunderWay (by decide)

variable [FallibleStore σ]

/-- **What an event brings about**, if it is something that the statistics are about. -/
def happening? (world : World σ) : Event σ → Option Happening
  | .goOn who =>
    match world.cycleStage? who, world.tasks[who]? with
    | some stage, _ => (world.cycleStep stage).1.happening? stage
    | none, some (.call stage) => (world.callStep who stage).1.happening?
    | none, _ => none
  | _ => none

/-- The entries that an event makes in the journal. -/
def entries (world : World σ) (event : Event σ) : Journal := (world.happening? event).toList

/-- **A course of events** from one world to another, with the journal that was kept on the way. -/
inductive Journaled (allowed : World σ → Event σ → Prop) (start : World σ) :
    Journal → World σ → Prop where
  | here : Journaled allowed start [] start
  | next {journal : Journal} {world : World σ} {event : Event σ}
    (h : Journaled allowed start journal world) (hallowed : allowed world event)
    (hadmits : world.Admits event) :
    Journaled allowed start (journal ++ world.entries event) (world.after event)

section Along

variable {allowed : World σ → Event σ → Prop} {start world : World σ} {journal : Journal}

theorem Journaled.course (h : Journaled allowed start journal world) :
    ∃ log, Course allowed start log world := by
  induction h with
  | here => exact ⟨_, .here⟩
  | next _ hallowed hadmits ih =>
    obtain ⟨log, hcourse⟩ := ih
    exact ⟨_, hcourse.next hallowed hadmits⟩

/-- A task that is ready goes on. -/
theorem Journaled.goOn (h : Journaled allowed start journal world) (who : Nat)
    (hallowed : allowed world (.goOn who)) (hready : world.isReady who = true) :
    Journaled allowed start (journal ++ world.entries (.goOn who)) (world.step who) :=
  h.next hallowed hready

/-- A call comes in; nothing has come of it yet. -/
theorem Journaled.call (h : Journaled allowed start journal world) (call : Call)
    (hallowed : allowed world (.call call)) :
    Journaled allowed start journal (world.begin call) := by
  have hcalled := h.next hallowed trivial
  rwa [show world.entries (.call call) = [] from rfl, List.append_nil] at hcalled

/-- Every course has a journal. -/
theorem Course.exists_journal {log : List Attempt} (h : Course allowed start log world) :
    ∃ journal, Journaled allowed start journal world := by
  induction h with
  | here => exact ⟨_, .here⟩
  | next _ hallowed hadmits ih =>
    obtain ⟨journal, hjournal⟩ := ih
    exact ⟨_, hjournal.next hallowed hadmits⟩

/-- **What every event balances is balanced over a course**: something that grows with what is
gained and shrinks with what is lost. -/
theorem Journaled.balance {measure : World σ → Nat} {gain loss : Happening → Nat}
    (h : Journaled allowed start journal world)
    (hafter : ∀ {journal world event}, Journaled allowed start journal world →
      allowed world event → measure (world.after event) + (world.entries event).total loss =
        measure world + (world.entries event).total gain) :
    measure world + journal.total loss = measure start + journal.total gain := by
  induction h with
  | here => rfl
  | next h hallowed _ ih =>
    have hnext := hafter h hallowed
    rw [Journal.total_append, Journal.total_append]
    omega

end Along

/-! ### What a task enters when it goes on -/

theorem entries_of_cycleStage? {world : World σ} {who : Nat} {stage : CycleStage}
    (h : world.cycleStage? who = some stage) :
    world.entries (.goOn who) = ((world.cycleStep stage).1.happening? stage).toList := by
  unfold entries happening?
  dsimp only
  rw [h]

theorem entries_of_call {world : World σ} {who : Nat} {stage : CallStage}
    (htask : world.tasks[who]? = some (.call stage))
    (hnone : Task.cycleStage? (.call stage) = none) :
    world.entries (.goOn who) = (world.callStep who stage).1.happening?.toList := by
  unfold entries happening?
  dsimp only
  rw [cycleStage?_of_task htask, hnone, htask]

/-- A task that is no call and runs no cycle enters nothing. -/
theorem entries_eq_nil {world : World σ} {who : Nat} (hnone : world.cycleStage? who = none)
    (hcall : ∀ stage, world.tasks[who]? ≠ some (.call stage)) :
    world.entries (.goOn who) = [] := by
  unfold entries happening?
  dsimp only
  rw [hnone]
  split
  · next h => exact absurd h (by simp)
  · next stage _ htask => exact absurd htask (hcall stage)
  · rfl

/-- **What a cycle enters** when it goes on. -/
theorem entries_cases_of_cycleStage? {world : World σ} {who : Nat} {stage : CycleStage}
    (h : world.cycleStage? who = some stage) :
    world.entries (.goOn who) = [] ∨ world.entries (.goOn who) = [.began] ∨
      world.entries (.goOn who) = [.crashed] ∨ world.entries (.goOn who) = [.fell] ∨
      ∃ outcome, world.entries (.goOn who) = [.returned outcome] := by
  rw [entries_of_cycleStage? h]
  cases (world.cycleStep stage).1 with
  | goesOn later =>
    unfold CycleStep.happening?
    dsimp only
    split
    · exact .inl rfl
    · exact .inr (.inl rfl)
  | crashed =>
    unfold CycleStep.happening?
    dsimp only
    split
    · exact .inr (.inr (.inr (.inl rfl)))
    · exact .inr (.inr (.inl rfl))
  | ended outcome => exact .inr (.inr (.inr (.inr ⟨outcome, rfl⟩)))

/-- **What a task enters that runs no cycle** when it goes on. -/
theorem entries_cases_of_none {world : World σ} {who : Nat} (hnone : world.cycleStage? who = none) :
    world.entries (.goOn who) = [] ∨ (∃ id, world.entries (.goOn who) = [.asked id]) ∨
      (∃ id, world.entries (.goOn who) = [.answered id]) ∨
      ∃ id outcome, world.entries (.goOn who) = [.refreshed id outcome] := by
  by_cases hcall : ∃ stage, world.tasks[who]? = some (.call stage)
  · obtain ⟨stage, htask⟩ := hcall
    rw [entries_of_call htask ((cycleStage?_of_task htask).symm.trans hnone)]
    cases (world.callStep who stage).1 with
    | asking id purpose due => exact .inr (.inl ⟨id, rfl⟩)
    | heard id purpose answer => exact .inr (.inr (.inl ⟨id, rfl⟩))
    | concluded id purpose outcome => exact .inr (.inr (.inr ⟨id, outcome, rfl⟩))
    | _ => exact .inl rfl
  · exact .inl (entries_eq_nil hnone fun stage htask => hcall ⟨stage, htask⟩)

/-! ### How many tasks have come how far -/

omit [FallibleStore σ] in
/-- One item of a list is replaced by another. -/
theorem countP_set_add {α : Type} {p : α → Bool} {items : List α} {index : Nat} {item : α}
    (h : items[index]? = some item) (later : α) :
    (items.set index later).countP p + (p item).toNat = items.countP p + (p later).toNat := by
  induction items generalizing index with
  | nil => exact absurd h (by simp)
  | cons head items ih =>
    cases index with
    | zero =>
      obtain rfl : head = item := Option.some.inj h
      rw [List.set_cons_zero, List.countP_cons, List.countP_cons]
      cases p head <;> cases p later <;> simp
    | succ index =>
      have htail : (items.set index later).countP p + (p item).toNat = _ := ih h
      rw [List.set_cons_succ, List.countP_cons, List.countP_cons]
      omega

omit [FallibleStore σ] in
theorem isNew_of_arrival? {world : World σ} {event : Event σ} {task : Task}
    (h : world.arrival? event = some task) : task.isNew = true := by
  cases task with
  | call stage =>
    obtain ⟨call, -, rfl⟩ := arrival?_eq_call h
    rfl
  | loop stage =>
    obtain ⟨rfl, -⟩ := arrival?_eq_loop h
    rfl
  | supervisor stage =>
    obtain ⟨-, rfl⟩ := arrival?_eq_supervisor h
    rfl

/-- **Tasks that are counted by how far they have come**: no new one is, so only the task that goes
on makes a difference. -/
theorem countP_step {world : World σ} {who : Nat} {task : Task} {p : Task → Bool}
    (hnew : ∀ task, task.isNew = true → p task = false) (htask : world.tasks[who]? = some task) :
    (world.step who).tasks.countP p + (p task).toNat =
      world.tasks.countP p + (p (world.nextTask who task)).toNat := by
  have hlength : who < world.tasks.length := (List.getElem?_eq_some_iff.1 htask).1
  have harrived : (world.arrival? (.goOn who)).toList.countP p = 0 := by
    apply List.countP_eq_zero.2
    intro new hmem
    rw [hnew new (isNew_of_arrival? (Option.mem_toList.1 hmem))]
    decide
  have hstep : (world.step who).tasks =
      (world.tasks ++ (world.arrival? (.goOn who)).toList).set who (world.nextTask who task) := by
    rw [step_eq htask, ← tasks_nextWorld htask]
    rfl
  rw [hstep]
  have hplace : (world.tasks ++ (world.arrival? (.goOn who)).toList)[who]? = some task :=
    (List.getElem?_append_left hlength).trans htask
  have hset := countP_set_add (p := p) hplace (world.nextTask who task)
  rw [List.countP_append, harrived] at hset
  exact hset

theorem countP_after {p : Task → Bool} {gain loss : Happening → Nat}
    (hnew : ∀ task, task.isNew = true → p task = false)
    (hgoOn : ∀ (world : World σ) who task, world.tasks[who]? = some task →
      (p (world.nextTask who task)).toNat + (world.entries (.goOn who)).total loss =
        (p task).toNat + (world.entries (.goOn who)).total gain)
    (world : World σ) (event : Event σ) :
    (world.after event).tasks.countP p + (world.entries event).total loss =
      world.tasks.countP p + (world.entries event).total gain := by
  cases event with
  | goOn who =>
    cases htask : world.tasks[who]? with
    | none =>
      have hnone : world.cycleStage? who = none := by
        unfold cycleStage?
        rw [htask]
        rfl
      rw [entries_eq_nil hnone fun stage => by rw [htask]; simp]
      show (world.step who).tasks.countP p + 0 = _
      rw [step_of_none htask]
      rfl
    | some task =>
      -- Only this task changes, and a task that it adds does not count yet.
      have hstep := countP_step hnew htask
      have hturn := hgoOn world who task htask
      show (world.step who).tasks.countP p + _ = _
      omega
  | call call =>
    show (world.tasks ++ [_]).countP p = world.tasks.countP p
    rw [List.countP_append, List.countP_singleton, hnew _ rfl]
    rfl
  | startService =>
    show (world.tasks ++ [_]).countP p = world.tasks.countP p
    rw [List.countP_append, List.countP_singleton, hnew _ rfl]
    rfl
  | _ => rfl

/-! ### Waiting for the directory -/

omit [FallibleStore σ] in
theorem total_lookups_happening? (stage : CallStage) :
    Journal.total stage.happening?.toList Happening.lookups =
      (Task.isAsking (.call stage)).toNat := by
  cases stage <;> rfl

/-- A call that waited for an answer hears it when it goes on, and no other does. -/
theorem total_answers_callStep (world : World σ) (who : Nat) (stage : CallStage) :
    Journal.total (world.callStep who stage).1.happening?.toList Happening.answers =
      (Task.isAsking (.call stage)).toNat := by
  cases hlater : (world.callStep who stage).1 with
  | heard id purpose answer =>
    obtain ⟨⟨purpose, due, rfl⟩, -⟩ :=
      eq_of_callStep_heard? (congrArg (fun stage => Task.heard? (.call stage)) hlater)
    rfl
  | _ =>
    -- Whoever waits for an answer has heard it after the step.
    cases stage with
    | asking id purpose due => exact absurd hlater (by simp [callStep, hear])
    | _ => rfl

/-- A task that runs a cycle waits for no answer, and neither does what becomes of it. -/
theorem isAsking_of_cycleStage? (world : World σ) (who : Nat) {task : Task} {stage : CycleStage}
    (h : task.cycleStage? = some stage) :
    task.isAsking = false ∧ (world.nextTask who task).isAsking = false := by
  cases task with
  | call stage =>
    cases stage with
    | cycling stage =>
      refine ⟨rfl, ?_⟩
      rw [nextTask, callStep_cycling]
      cases (world.cycleStep stage).1 <;> rfl
    | _ => exact absurd h (by simp [Task.cycleStage?])
  | loop stage => exact ⟨rfl, rfl⟩
  | supervisor stage => exact ⟨rfl, rfl⟩

/-- **A call waits for an answer** from the moment at which it asks until it goes on. -/
theorem awaited_after (world : World σ) (event : Event σ) :
    (world.after event).awaited + (world.entries event).total Happening.answers =
      world.awaited + (world.entries event).total Happening.lookups := by
  refine countP_after (p := Task.isAsking) ?_ ?_ world event
  · intro task hnew
    cases task with
    | call stage =>
      cases stage with
      | begun call => rfl
      | _ => exact absurd hnew (by simp [Task.isNew])
    | _ => rfl
  · intro world who task htask
    cases hstage : world.cycleStage? who with
    | some stage =>
      -- Whoever runs a cycle waits for no look-up, before and after.
      have hasking := isAsking_of_cycleStage? world who
        ((cycleStage?_of_task htask).symm.trans hstage)
      rw [hasking.1, hasking.2]
      rcases entries_cases_of_cycleStage? hstage with h | h | h | h | ⟨outcome, h⟩ <;>
        rw [h] <;> rfl
    | none =>
      cases task with
      | call stage =>
        rw [entries_of_call htask ((cycleStage?_of_task htask).symm.trans hstage),
          total_answers_callStep, total_lookups_happening?, Nat.add_comm]
        rfl
      | loop stage => rw [entries_eq_nil hstage fun _ => by rw [htask]; simp]; rfl
      | supervisor stage => rw [entries_eq_nil hstage fun _ => by rw [htask]; simp]; rfl

/-! ### In the middle of a cycle -/

/-- Whether the cycle is under way after a step. -/
def CycleStep.isUnderWay : CycleStep → Bool
  | .goesOn stage => stage.isUnderWay
  | .ended _ | .crashed => false

/-- A cycle is under way from its beginning until it returns or crashes. -/
theorem isUnderWay_cycleStep (world : World σ) (stage : CycleStage) :
    (world.cycleStep stage).1.isUnderWay.toNat +
        Journal.total ((world.cycleStep stage).1.happening? stage).toList Happening.ends =
      stage.isUnderWay.toNat +
        Journal.total ((world.cycleStep stage).1.happening? stage).toList Happening.begins := by
  have hmoves := world.cycleMoves stage
  generalize world.cycleStep stage = result at hmoves ⊢
  cases hmoves <;> rfl

theorem isUnderWay_nextTask {world : World σ} {who : Nat} {task : Task} {stage : CycleStage}
    (htask : world.tasks[who]? = some task) (hstage : world.cycleStage? who = some stage) :
    (world.nextTask who task).isUnderWay = (world.cycleStep stage).1.isUnderWay := by
  have hnext := cycleStage?_step_of_some hstage
  unfold cycleStage? at hnext
  rw [task_step, htask, Option.map_some, Option.bind_some] at hnext
  unfold Task.isUnderWay
  rw [hnext]
  cases (world.cycleStep stage).1 <;> rfl

/-- **Cycles come to be in progress** as they begin, and are no more once they have returned or
crashed. -/
theorem underWay_after (world : World σ) (event : Event σ) :
    (world.after event).underWay + (world.entries event).total Happening.ends =
      world.underWay + (world.entries event).total Happening.begins := by
  refine countP_after (p := Task.isUnderWay) ?_ ?_ world event
  · intro task hnew
    unfold Task.isUnderWay
    rw [cycleStage?_of_isNew task hnew]
    rfl
  · intro world who task htask
    have hbefore : task.isUnderWay = (world.cycleStage? who).any CycleStage.isUnderWay := by
      rw [cycleStage?_of_task htask]
      rfl
    cases hstage : world.cycleStage? who with
    | some stage =>
      rw [hstage] at hbefore
      rw [entries_of_cycleStage? hstage, isUnderWay_nextTask htask hstage, hbefore]
      exact isUnderWay_cycleStep world stage
    | none =>
      -- One that runs no cycle does not find itself in the middle of one.
      rw [hstage] at hbefore
      have hafter : (world.nextTask who task).isUnderWay = false := by
        have hstep := isUnderWay_step_of_none hstage
        unfold isUnderWay cycleStage? at hstep
        rw [task_step, htask] at hstep
        exact hstep
      rw [hbefore, hafter]
      rcases entries_cases_of_none hstage with h | ⟨id, h⟩ | ⟨id, h⟩ | ⟨id, outcome, h⟩ <;>
        rw [h] <;> rfl

section Along

variable {allowed : World σ → Event σ → Prop} {start world : World σ} {journal : Journal}

/-- **Every look-up was answered**, or its answer is still awaited. -/
theorem Journaled.awaited_eq (h : Journaled allowed start journal world) :
    world.awaited + journal.total Happening.answers =
      start.awaited + journal.total Happening.lookups :=
  h.balance fun _ _ => awaited_after _ _

/-- **Every cycle that has begun** has returned or crashed, or is still in progress. -/
theorem Journaled.underWay_eq (h : Journaled allowed start journal world) :
    world.underWay + journal.total Happening.ends =
      start.underWay + journal.total Happening.begins :=
  h.balance fun _ _ => underWay_after _ _

end Along

end World

end DeviceScope
