import DeviceScope.Proofs.Cache.Decision
import DeviceScope.Proofs.Service.Stages

/-!
# Calls and their replies

A call that comes in becomes a task behind all others (`World.task_begin`), and its reply is there
when this task has come to its end (`World.reply?`). `World.serve` is the world in which a call has
come in and has gone on at once, so that what it decides first is decided at that moment; a call
that asks whether an id may connect and wants no look-up has its reply then (`World.verdict?`).

The stage of a call changes only when its task goes on. So what is true of the stage at the
beginning of a course, is preserved when the task goes on, and does not depend on what else happens,
is true of the stage at the end (`Course.stage_induction`).
-/

namespace DeviceScope.World

variable {σ : Type}

/-- The reply of a call that has come to its end. -/
def reply? (world : World σ) (who : Nat) : Option Reply :=
  match world.tasks[who]? with
  | some (.call (.done reply)) => some reply
  | _ => none

theorem reply?_eq_some_iff {world : World σ} {who : Nat} {reply : Reply} :
    world.reply? who = some reply ↔ world.tasks[who]? = some (.call (.done reply)) := by
  unfold reply?
  split
  · next found htask => simp [htask]
  · next hother =>
    constructor
    · intro h
      exact absurd h (by simp)
    · intro htask
      exact absurd htask (hother reply)

theorem stage_eq_of_reply? {world : World σ} {who : Nat} {stage : CallStage} {reply : Reply}
    (hreply : world.reply? who = some reply) (htask : world.tasks[who]? = some (.call stage)) :
    stage = .done reply := by
  rw [reply?_eq_some_iff.1 hreply] at htask
  exact (Task.call.inj (Option.some.inj htask)).symm

theorem task_begin (world : World σ) (call : Call) :
    (world.begin call).tasks[world.tasks.length]? = some (.call (.begun call)) := by
  show (world.tasks ++ [_])[world.tasks.length]? = _
  rw [List.getElem?_append_right (Nat.le_refl _), Nat.sub_self]
  rfl

theorem isReady_begin (world : World σ) (call : Call) :
    (world.begin call).isReady world.tasks.length = true := by
  rw [isReady, task_begin]
  rfl

/-- A call that has its reply does not go on. -/
theorem not_isReady_of_done {world : World σ} {who : Nat} {reply : Reply}
    (h : world.tasks[who]? = some (.call (.done reply))) : ¬ world.isReady who = true := by
  rw [isReady, h]
  simp [isTaskReady]

section Step

variable [KeyValueStore σ]

/-- **The call comes in and goes on at once**, until it has its reply or has to wait. -/
def serve (world : World σ) (call : Call) : World σ :=
  (world.begin call).step world.tasks.length

end Step

variable [FallibleStore σ]

theorem task_step_of_call {world : World σ} {who : Nat} {stage : CallStage}
    (h : world.tasks[who]? = some (.call stage)) :
    (world.step who).tasks[who]? = some (.call (world.callStep who stage).1) := by
  rw [task_step, h]
  rfl

theorem step_of_call {world : World σ} {who : Nat} {stage : CallStage}
    (h : world.tasks[who]? = some (.call stage)) :
    world.step who =
      (world.callStep who stage).2.setTask who (.call (world.callStep who stage).1) := by
  rw [step, h]

theorem task_serve (world : World σ) (call : Call) :
    (world.serve call).tasks[world.tasks.length]? =
      some (.call ((world.begin call).beginCall world.tasks.length call).1) :=
  task_step_of_call (task_begin world call)

/-- The reply to the question whether an id may connect, if it is to be answered at once. -/
def verdict? (world : World σ) (id : String) : Option Reply :=
  (world.serve (.verify id false)).reply? world.tasks.length

theorem verdict?_eq (world : World σ) (id : String) :
    world.verdict? id = some (.verified (world.cache.decide id)) := by
  unfold verdict?
  rw [reply?_eq_some_iff, task_serve, beginCall, Bool.false_and, if_neg (by decide)]
  rfl

theorem verdict?_eq_ok_iff {world : World σ} {id : String} {identity : Identity} :
    world.verdict? id = some (.verified (.ok identity)) ↔
      world.cache.identity? id = some identity ∧ identity.isEnabled = true := by
  rw [verdict?_eq, ← Cache.decide_eq_ok_iff]
  constructor
  · intro h
    exact Reply.verified.inj (Option.some.inj h)
  · intro h
    rw [h]

/-- **What holds of the stage of a call** along a course: it holds at the beginning, it holds of the
next stage when the task goes on, and nothing else that happens makes a difference to it. -/
theorem Course.stage_induction {allowed : World σ → Event σ → Prop} {start world : World σ}
    {who : Nat} {first : CallStage} {log : List Attempt}
    {P : List Attempt → World σ → CallStage → Prop}
    (h : Course allowed start log world) (hfirst : start.tasks[who]? = some (.call first))
    (hstart : P [] start first)
    (hgoOn : ∀ log world stage, Course allowed start log world →
      world.tasks[who]? = some (.call stage) → world.isReady who = true → P log world stage →
      P (log ++ world.attempts (.goOn who)) (world.step who) (world.callStep who stage).1)
    (hother : ∀ log world event stage, Course allowed start log world → allowed world event →
      world.Admits event → event ≠ .goOn who → P log world stage →
      P (log ++ world.attempts event) (world.after event) stage) :
    ∃ stage, world.tasks[who]? = some (.call stage) ∧ P log world stage := by
  induction h with
  | here => exact ⟨first, hfirst, hstart⟩
  | @next log world event hcourse hallowed hadmits ih =>
    obtain ⟨stage, htask, hP⟩ := ih
    by_cases hevent : event = .goOn who
    · subst hevent
      exact ⟨_, task_step_of_call htask, hgoOn log world stage hcourse htask hadmits hP⟩
    · have hsame := task_after_of_ne hevent htask
      exact ⟨stage, hsame, hother log world event stage hcourse hallowed hadmits hevent hP⟩

end DeviceScope.World
