import DeviceScope.Proofs.Service.Diary

/-!
# Which request each cycle is charged to

A `Reckoning` goes through the diary along with the service: it charges cycles to requests, and it
holds the request that has let the loop go on and the one that is kept until the loop would park.
It is right if both can still be charged, one after the other (`Reckoning.Sound`).

What the loop may rely on at each of its stages is told by `Books.At`: before a cycle, that it was
asked for or that the time for it has come; in a cycle and after it, that a permit is kept for
whoever has asked for the next one; while it is parked, that nobody has asked for one without waking
it.
-/

namespace DeviceScope

variable {σ : Type}

/-- The requests that cycles are charged to. -/
structure Reckoning where
  /-- The request that the cycle that began at a place is charged to, if any. -/
  charge : Nat → Option Nat
  /-- The request that has let the loop go on to its next cycle. -/
  pending : Option Nat
  /-- The request that is kept until the loop would park. -/
  kept : Option Nat

namespace Diary

/-- **A request can still be charged**: it is later than all that were, and if it was made while a
cycle was running, none has begun since. -/
structure Chargeable (diary : Diary) (charge : Nat → Option Nat) (place : Nat) : Prop where
  requested : diary.Marks .requested place
  later : ∀ {began earlier}, charge began = some earlier → earlier < place
  fresh : diary.IsOpen place → ∀ later, place < later → ¬ diary.Marks .began later

section

variable {rate : Span} {exact : Prop} {diary : Diary} {charge : Nat → Option Nat} {place : Nat}
  {moment : Moment}

theorem Chargeable.snoc (h : diary.Chargeable charge place) (hmark : moment.mark ≠ .began) :
    Chargeable (diary ++ [moment]) charge place where
  requested := h.requested.snoc moment
  later := h.later
  fresh hopen later hlt hbegan := by
    rw [isOpen_snoc_of_le (Nat.le_of_lt h.requested.lt_length)] at hopen
    have hbegan := (marks_snoc.1 hbegan).resolve_right fun hlast => hmark hlast.2
    exact h.fresh hopen later hlt hbegan

/-- A request that has just been made can be charged. -/
theorem Charged.chargeable (h : Charged rate exact diary charge)
    (hmark : moment.mark = .requested) :
    Chargeable (diary ++ [moment]) charge diary.length where
  requested := marks_snoc.2 (.inr ⟨rfl, hmark⟩)
  later hcharge :=
    let ⟨hlt, _, hbegan⟩ := h.request hcharge
    Nat.lt_trans hlt hbegan.lt_length
  fresh _ later hlt hbegan := by
    have hlater := hbegan.lt_length
    rw [List.length_append, List.length_singleton] at hlater
    omega

/-- **A cycle that begins is charged** to a request that can still be charged, if there is one. -/
theorem Charged.began {pending : Option Nat} {time : Int} (h : Charged rate exact diary charge)
    (hpending : ∀ place, pending = some place → diary.Chargeable charge place)
    (hcaused : diary.Quiet 0 diary.length ∨ pending.isSome = true ∨
      ∃ last lastTime, diary.LastEnded last lastTime ∧ lastTime + rate.nanos ≤ time ∧
        (exact → time = lastTime + rate.nanos))
    (hprompt : exact → ∀ last lastTime, diary.LastEnded last lastTime → diary.Owes last →
      time = lastTime) :
    Charged rate exact (diary ++ [⟨.began, time⟩])
      fun began => if began = diary.length then pending else charge began := by
  -- No cycle that was charged before begins at the last place.
  have hne : ∀ {began place}, charge began = some place → began ≠ diary.length := fun hcharge =>
    Nat.ne_of_lt (h.request hcharge).2.2.lt_length
  have hlast : Marks (diary ++ [⟨.began, time⟩]) .began diary.length :=
    marks_snoc.2 (.inr ⟨rfl, rfl⟩)
  constructor
  case request =>
    intro began place hcharge
    split at hcharge
    · next heq =>
      subst heq
      have hrequested := (hpending place hcharge).requested
      exact ⟨hrequested.lt_length, hrequested.snoc _, hlast⟩
    · obtain ⟨hlt, hrequested, hbegan⟩ := h.request hcharge
      exact ⟨hlt, hrequested.snoc _, hbegan.snoc _⟩
  case ordered =>
    intro began later place laterPlace hcharge hlater hlt
    split at hlater
    · next heq =>
      subst heq
      rw [if_neg (Nat.ne_of_lt hlt)] at hcharge
      exact (hpending laterPlace hlater).later hcharge
    · next hnot =>
      have hbefore := (h.request hlater).2.2.lt_length
      rw [if_neg (by omega)] at hcharge
      exact h.ordered hcharge hlater hlt
  case next =>
    intro began place hcharge hopen between hafter hbefore
    split at hcharge
    · next heq =>
      subst heq
      have hchargeable := hpending place hcharge
      rw [isOpen_snoc_of_le (Nat.le_of_lt hchargeable.requested.lt_length)] at hopen
      rw [marks_snoc_of_lt hbefore]
      exact hchargeable.fresh hopen between hafter
    · obtain ⟨-, hrequested, hbegan⟩ := h.request hcharge
      rw [isOpen_snoc_of_le (Nat.le_of_lt hrequested.lt_length)] at hopen
      rw [marks_snoc_of_lt (Nat.lt_trans hbefore hbegan.lt_length)]
      exact h.next hcharge hopen between hafter hbefore
  case caused =>
    intro began hbegan
    rcases marks_snoc.1 hbegan with hbegan | ⟨rfl, -⟩
    · rw [if_neg (Nat.ne_of_lt hbegan.lt_length)]
      rcases h.caused hbegan with hfirst | hcharged | ⟨last, lastTime, began, hfollows, htime⟩
      · exact .inl ((quiet_snoc_of_le (Nat.le_of_lt hbegan.lt_length)).2 hfirst)
      · exact .inr (.inl hcharged)
      · exact .inr (.inr ⟨last, lastTime, began, (follows_snoc_of_lt hbegan.lt_length).2 hfollows,
          htime⟩)
    · rw [if_pos rfl]
      rcases hcaused with hfirst | hcharged | ⟨last, lastTime, hended, htime⟩
      · exact .inl ((quiet_snoc_of_le (Nat.le_refl _)).2 hfirst)
      · exact .inr (.inl hcharged)
      · have hlt := (marks_of_getElem? hended.ended).lt_length
        refine .inr (.inr ⟨last, lastTime, time, ⟨?_, hlt, ?_, getElem?_snoc_length⟩, htime⟩)
        · rw [getElem?_snoc_of_lt hlt]
          exact hended.ended
        · exact (quiet_snoc_of_le (Nat.le_refl _)).2 hended.quiet
  case prompt =>
    intro hexact last lastTime began beganTime howes hfollows
    rcases marks_snoc.1 (marks_of_getElem? hfollows.began) with hbegan | ⟨rfl, -⟩
    · have hlt := Nat.lt_trans hfollows.lt hbegan.lt_length
      exact h.prompt hexact ((owes_snoc_of_lt hlt).1 howes)
        ((follows_snoc_of_lt hbegan.lt_length).1 hfollows)
    · -- The cycle before the one that has just begun is the last that has ended.
      have hended := hfollows.ended
      rw [getElem?_snoc_of_lt hfollows.lt] at hended
      have htime : time = beganTime := by
        have hbegan := hfollows.began
        rw [getElem?_snoc_length] at hbegan
        exact congrArg Moment.time (Option.some.inj hbegan)
      rw [← htime]
      have hquiet := (quiet_snoc_of_le (Nat.le_refl _)).1 hfollows.quiet
      exact hprompt hexact last lastTime ⟨hended, hquiet⟩ ((owes_snoc_of_lt hfollows.lt).1 howes)

end

end Diary

open Diary

namespace Reckoning

/-- **The reckoning is right**: what was charged was, and what is still to be charged can be. -/
structure Sound (rate : Span) (exact : Prop) (diary : Diary) (reckoning : Reckoning) : Prop where
  charged : Charged rate exact diary reckoning.charge
  pending : ∀ place, reckoning.pending = some place → diary.Chargeable reckoning.charge place
  kept : ∀ place, reckoning.kept = some place → diary.Chargeable reckoning.charge place
  inOrder : ∀ {place later}, reckoning.pending = some place → reckoning.kept = some later →
    place < later

/-- Nothing was charged yet. -/
def blank : Reckoning := ⟨fun _ => none, none, none⟩

/-- A request is kept instead of the one that was. -/
def keep (reckoning : Reckoning) (place : Nat) : Reckoning :=
  { reckoning with kept := some place }

/-- A request wakes the loop. -/
def wake (reckoning : Reckoning) (place : Nat) : Reckoning :=
  { reckoning with pending := some place, kept := none }

/-- The request that was kept lets the loop go on. -/
def resume (reckoning : Reckoning) : Reckoning :=
  { reckoning with pending := reckoning.kept, kept := none }

/-- The loop is parked, and nothing has been asked for. -/
def park (reckoning : Reckoning) : Reckoning :=
  { reckoning with pending := none, kept := none }

/-- A cycle begins at a place, and is charged to the request that has let the loop go on. -/
def begin (reckoning : Reckoning) (place : Nat) : Reckoning where
  charge began := if began = place then reckoning.pending else reckoning.charge began
  pending := none
  kept := reckoning.kept

section

variable {rate : Span} {exact : Prop} {diary : Diary} {reckoning : Reckoning} {moment : Moment}

theorem sound_blank (rate : Span) (exact : Prop) : Sound rate exact [] blank where
  charged := charged_nil rate exact
  pending _ h := absurd h (by simp [blank])
  kept _ h := absurd h (by simp [blank])
  inOrder h := absurd h (by simp [blank])

theorem Sound.snoc (h : Sound rate exact diary reckoning) (hmark : moment.mark ≠ .began) :
    Sound rate exact (diary ++ [moment]) reckoning where
  charged := h.charged.snoc hmark
  pending place hplace := (h.pending place hplace).snoc hmark
  kept place hplace := (h.kept place hplace).snoc hmark
  inOrder := h.inOrder

theorem Sound.keep (h : Sound rate exact diary reckoning) (hmark : moment.mark = .requested) :
    Sound rate exact (diary ++ [moment]) (reckoning.keep diary.length) where
  charged := h.charged.snoc (by rw [hmark]; decide)
  pending place hplace := (h.pending place hplace).snoc (by rw [hmark]; decide)
  kept place hplace := by
    obtain rfl := Option.some.inj hplace
    exact h.charged.chargeable hmark
  inOrder {place later} hpending hkept := by
    obtain rfl := Option.some.inj hkept
    exact (h.pending place hpending).requested.lt_length

theorem Sound.wake (h : Sound rate exact diary reckoning) (hmark : moment.mark = .requested) :
    Sound rate exact (diary ++ [moment]) (reckoning.wake diary.length) where
  charged := h.charged.snoc (by rw [hmark]; decide)
  pending place hplace := by
    obtain rfl := Option.some.inj hplace
    exact h.charged.chargeable hmark
  kept _ hplace := absurd hplace (by simp [Reckoning.wake])
  inOrder _ hkept := absurd hkept (by simp [Reckoning.wake])

theorem Sound.resume (h : Sound rate exact diary reckoning) :
    Sound rate exact diary reckoning.resume where
  charged := h.charged
  pending place hplace := h.kept place hplace
  kept _ hplace := absurd hplace (by simp [Reckoning.resume])
  inOrder _ hkept := absurd hkept (by simp [Reckoning.resume])

theorem Sound.park (h : Sound rate exact diary reckoning) :
    Sound rate exact diary reckoning.park where
  charged := h.charged
  pending _ hplace := absurd hplace (by simp [Reckoning.park])
  kept _ hplace := absurd hplace (by simp [Reckoning.park])
  inOrder _ hkept := absurd hkept (by simp [Reckoning.park])

/-- **A cycle that begins** is charged to the request that has let the loop go on. -/
theorem Sound.begin {time : Int} (h : Sound rate exact diary reckoning)
    (hcaused : diary.Quiet 0 diary.length ∨ reckoning.pending.isSome = true ∨
      ∃ last lastTime, diary.LastEnded last lastTime ∧ lastTime + rate.nanos ≤ time ∧
        (exact → time = lastTime + rate.nanos))
    (hprompt : exact → ∀ last lastTime, diary.LastEnded last lastTime → diary.Owes last →
      time = lastTime)
    (houtside : ∀ place, reckoning.kept = some place → ¬ diary.IsOpen place) :
    Sound rate exact (diary ++ [⟨.began, time⟩]) (reckoning.begin diary.length) where
  charged := h.charged.began h.pending hcaused hprompt
  pending _ hplace := absurd hplace (by simp [Reckoning.begin])
  kept place hplace := by
    have hchargeable := h.kept place hplace
    refine ⟨hchargeable.requested.snoc _, fun {began earlier} hcharge => ?_, fun hopen => ?_⟩
    · unfold Reckoning.begin at hcharge
      dsimp only at hcharge
      split at hcharge
      · exact h.inOrder hcharge hplace
      · exact hchargeable.later hcharge
    · rw [isOpen_snoc_of_le (Nat.le_of_lt hchargeable.requested.lt_length)] at hopen
      exact absurd hopen (houtside place hplace)
  inOrder hpending := absurd hpending (by simp [Reckoning.begin])

end

end Reckoning

/-! ### What the loop may rely on -/

/-- Those that are parked, and those that have been woken. -/
def Service.sleepers (service : Service) : List Nat := service.parked ++ service.woken

theorem Service.sleepers_congr {service later : Service} (hparked : later.parked = service.parked)
    (hwoken : later.woken = service.woken) : later.sleepers = service.sleepers := by
  unfold sleepers
  rw [hparked, hwoken]

/-- What a stage of the loop is reckoned with. -/
structure Books where
  rate : Span
  /-- Whether the clock is exact. -/
  exact : Prop
  diary : Diary
  reckoning : Reckoning

namespace Books

/-- **No cycle has begun yet**, and a permit is kept if one was asked for. -/
structure BeforeFirst (books : Books) (world : World σ) : Prop where
  asleep : world.service.sleepers = []
  quiet : books.diary.Quiet 0 books.diary.length
  kept : ∀ place, books.diary.Marks .requested place → world.service.permit = true

/-- **The loop is about to run another cycle**, which was asked for, or the time for it has come. -/
structure BeforeNext (books : Books) (world : World σ) (last : Nat) (time : Int) : Prop where
  asleep : world.service.sleepers = []
  ended : books.diary.LastEnded last time
  caused : books.reckoning.pending.isSome = true ∨
    time + books.rate.nanos ≤ world.clock ∧ (books.exact → world.clock = time + books.rate.nanos)
  prompt : books.diary.Owes last → books.exact → world.clock = time
  outside : ∀ place, books.reckoning.kept = some place → ¬ books.diary.IsOpen place

/-- **A cycle is in progress**, and a permit is kept if another one was asked for. -/
structure InCycle (books : Books) (world : World σ) : Prop where
  asleep : world.service.sleepers = []
  isOpen : books.diary.IsOpen books.diary.length
  unanswered : ∀ place, books.diary.Unanswered place → world.service.permit = true
  /-- In the first cycle the permit is that of any request. -/
  first : (∀ place, ¬ books.diary.Marks .ended place) →
    ∀ place, books.diary.Marks .requested place → world.service.permit = true

/-- **A cycle has just ended**, and a permit is kept if another one was asked for. -/
structure AfterCycle (books : Books) (world : World σ) (last : Nat) (time : Int) : Prop where
  asleep : world.service.sleepers = []
  ended : books.diary.LastEnded last time
  le_clock : time ≤ world.clock
  clock_eq : books.exact → world.clock = time
  unanswered : ∀ place, books.diary.Unanswered place → world.service.permit = true
  owed : books.diary.Owes last → world.service.permit = true

/-- **The loop is parked until the time for the next cycle has come**, and woken if one was asked
for. -/
structure Parked (books : Books) (world : World σ) (who : Nat) (due : Int) (last : Nat)
    (time : Int) : Prop where
  asleep : world.service.sleepers = [who]
  ended : books.diary.LastEnded last time
  le_due : time + books.rate.nanos ≤ due
  due_eq : books.exact → due = time + books.rate.nanos ∧ world.clock ≤ due
  unowed : ¬ books.diary.Owes last
  unanswered : ∀ place, books.diary.Unanswered place → who ∈ world.service.woken
  woken : who ∈ world.service.woken → books.reckoning.pending.isSome = true
  outside : ∀ place, books.reckoning.kept = some place → ¬ books.diary.IsOpen place
  unkept : world.service.parked ≠ [] → books.reckoning.kept = none

end Books

/-- Whether the clock may show such a time while the loop has come to this stage, if the clock waits
for the loop. -/
def LoopStage.Lets (clock : Int) : LoopStage → Prop
  | .top | .cycling .queued | .rest => False
  | .parked due => clock ≤ due
  | .cycling (.walking _) | .cycling (.marking _ _) | .done => True

namespace Books

/-- **What the loop may rely on** at each of its stages. -/
def At (books : Books) (world : World σ) (who : Nat) : LoopStage → Prop
  | .top | .cycling .queued =>
    books.BeforeFirst world ∨ ∃ last time, books.BeforeNext world last time
  | .cycling (.walking _) | .cycling (.marking _ _) => books.InCycle world
  | .rest => ∃ last time, books.AfterCycle world last time
  | .parked due => ∃ last time, books.Parked world who due last time
  | .done => True

/-! ### From stage to stage -/

section

variable {books : Books} {world later : World σ} {who : Nat} {moment : Moment}

/-- The books after something was entered into the diary. -/
def enter (books : Books) (moment : Moment) (reckoning : Reckoning) : Books :=
  { books with diary := books.diary ++ [moment], reckoning }

/-- What is kept before the first cycle was not asked for in the middle of one. -/
theorem not_isOpen_of_quiet (hquiet : books.diary.Quiet 0 books.diary.length) {place : Nat}
    (hmarks : books.diary.Marks .requested place) : ¬ books.diary.IsOpen place :=
  Diary.not_isOpen_of_quiet fun earlier hfirst hlt =>
    hquiet earlier hfirst (Nat.lt_trans hlt hmarks.lt_length)

theorem BeforeFirst.passes (h : books.BeforeFirst world)
    (hpermit : later.service.permit = world.service.permit)
    (hsleepers : later.service.sleepers = world.service.sleepers) : books.BeforeFirst later where
  asleep := hsleepers.trans h.asleep
  quiet := h.quiet
  kept place hplace := hpermit.trans (h.kept place hplace)

theorem InCycle.passes (h : books.InCycle world)
    (hpermit : later.service.permit = world.service.permit)
    (hsleepers : later.service.sleepers = world.service.sleepers) : books.InCycle later where
  asleep := hsleepers.trans h.asleep
  isOpen := h.isOpen
  unanswered place hplace := hpermit.trans (h.unanswered place hplace)
  first hnone place hplace := hpermit.trans (h.first hnone place hplace)

theorem at_cycling {stage : CycleStage} (hunderWay : stage.isUnderWay = true) :
    books.At world who (.cycling stage) ↔ books.InCycle world := by
  cases stage with
  | queued => exact absurd hunderWay (by decide)
  | walking cycle => exact Iff.rfl
  | marking report gone => exact Iff.rfl

/-- **Where one is parked or woken**, it is the loop. -/
theorem At.parked_of_sleepers {stage : LoopStage} (h : books.At world who stage)
    (hnot : stage ≠ .done) (hsome : world.service.sleepers ≠ []) :
    ∃ due last time, stage = .parked due ∧ books.Parked world who due last time := by
  cases stage with
  | top => exact absurd (h.elim BeforeFirst.asleep fun ⟨_, _, hnext⟩ => hnext.asleep) hsome
  | cycling stage =>
    cases stage with
    | queued => exact absurd (h.elim BeforeFirst.asleep fun ⟨_, _, hnext⟩ => hnext.asleep) hsome
    | _ => exact absurd (InCycle.asleep h) hsome
  | rest =>
    obtain ⟨last, time, hrest⟩ := h
    exact absurd hrest.asleep hsome
  | parked due =>
    obtain ⟨last, time, hpark⟩ := h
    exact ⟨due, last, time, rfl, hpark⟩
  | done => exact absurd rfl hnot

/-- Where one is parked, no request is kept. -/
theorem At.kept_eq_none {stage : LoopStage} (h : books.At world who stage) (hnot : stage ≠ .done)
    (hsome : world.service.parked ≠ []) : books.reckoning.kept = none := by
  obtain ⟨due, last, time, -, hpark⟩ := h.parked_of_sleepers hnot fun hnone =>
    hsome (List.append_eq_nil_iff.1 hnone).1
  exact hpark.unkept hsome

/-- **The cycle begins.** -/
theorem At.begins (h : books.At world who (.cycling .queued))
    (hsound : books.reckoning.Sound books.rate books.exact books.diary)
    (hsleepers : later.service.sleepers = world.service.sleepers)
    (hpermit : later.service.permit = world.service.permit) :
    let after := books.enter ⟨.began, world.clock⟩ (books.reckoning.begin books.diary.length)
    after.reckoning.Sound after.rate after.exact after.diary ∧ after.InCycle later := by
  have hunanswered : ∀ place,
      ¬ Unanswered (books.diary ++ [⟨.began, world.clock⟩]) place :=
    fun place => not_unanswered_snoc rfl place
  rcases h with hfirst | ⟨last, time, hnext⟩
  · refine ⟨hsound.begin (.inl hfirst.quiet) ?_ ?_, ?_⟩
    · intro _ last lastTime hended
      have hmarks := marks_of_getElem? hended.ended
      exact absurd ((hfirst.quiet last (Nat.zero_le _) hmarks.lt_length).unique hmarks) (by decide)
    · intro place hkept
      exact not_isOpen_of_quiet hfirst.quiet (hsound.kept place hkept).requested
    · refine ⟨hsleepers.trans hfirst.asleep, isOpen_snoc rfl,
        fun place h => absurd h (hunanswered place), fun _ place hrequested => ?_⟩
      rw [hpermit]
      exact hfirst.kept place ((marks_snoc.1 hrequested).resolve_right fun hlast =>
        absurd hlast.2 (by simp))
  · refine ⟨hsound.begin ?_ ?_ hnext.outside, ?_⟩
    · exact .inr (hnext.caused.imp_right fun htime => ⟨last, time, hnext.ended, htime⟩)
    · intro hexact other otherTime hended howes
      -- The last cycle is the last cycle.
      obtain rfl := hnext.ended.eq (marks_of_getElem? hended.ended) hended.quiet
      have htime : time = otherTime := congrArg Moment.time
        (Option.some.inj (hnext.ended.ended.symm.trans hended.ended))
      rw [← htime]
      exact hnext.prompt howes hexact
    · refine ⟨hsleepers.trans hnext.asleep, isOpen_snoc rfl,
        fun place h => absurd h (hunanswered place), fun hnone => ?_⟩
      exact absurd ((marks_of_getElem? hnext.ended.ended).snoc _) (hnone last)

/-- **The cycle ends.** -/
theorem InCycle.ends (h : books.InCycle world) (hclock : later.clock = world.clock)
    (hsleepers : later.service.sleepers = world.service.sleepers)
    (hpermit : later.service.permit = world.service.permit) :
    (books.enter ⟨.ended, world.clock⟩ books.reckoning).AfterCycle later books.diary.length
      world.clock where
  asleep := hsleepers.trans h.asleep
  ended := lastEnded_snoc books.diary world.clock
  le_clock := Int.le_of_eq hclock.symm
  clock_eq _ := hclock
  unanswered place hplace := by
    rw [hpermit]
    rcases hplace.of_snoc with hbefore | ⟨-, hrequested⟩
    · exact h.unanswered place hbefore
    · exact absurd hrequested (by simp)
  owed howes := by
    rw [hpermit]
    rcases howes.of_snoc with ⟨place, hplace⟩ | ⟨hnone, place, hrequested⟩
    · exact h.unanswered place hplace
    · exact h.first hnone place hrequested

/-- **The loop goes on at once**, since a permit was kept. -/
theorem AfterCycle.resumes {last : Nat} {time : Int} (h : books.AfterCycle world last time)
    (hkept : books.reckoning.kept.isSome = true) (hclock : later.clock = world.clock)
    (hsleepers : later.service.sleepers = world.service.sleepers) :
    ({ books with reckoning := books.reckoning.resume } : Books).BeforeNext later last time where
  asleep := hsleepers.trans h.asleep
  ended := h.ended
  caused := .inl hkept
  prompt _ hexact := hclock.trans (h.clock_eq hexact)
  outside _ hplace := absurd hplace (by simp [Reckoning.resume])

/-- **The loop is parked**, since no permit was kept. -/
theorem AfterCycle.parks {last : Nat} {time : Int} (h : books.AfterCycle world last time)
    (hpermit : world.service.permit = false) (hclock : later.clock = world.clock)
    (hparked : later.service.parked = world.service.parked ++ [who])
    (hwoken : later.service.woken = world.service.woken) :
    ({ books with reckoning := books.reckoning.park } : Books).Parked later who
      (world.clock + books.rate.nanos) last time := by
  -- Whoever had asked for a cycle would have left a permit.
  have hunowed : ¬ (world.service.permit = true) := by rw [hpermit]; decide
  obtain ⟨hnone, hnobody⟩ := List.append_eq_nil_iff.1 h.asleep
  constructor
  case asleep =>
    unfold Service.sleepers
    rw [hparked, hwoken, hnone, hnobody]
    rfl
  case ended => exact h.ended
  case le_due => exact Int.add_le_add_right h.le_clock _
  case due_eq =>
    intro hexact
    rw [hclock, h.clock_eq hexact]
    exact ⟨rfl, Int.le_add_of_nonneg_right (Int.natCast_nonneg _)⟩
  case unowed => exact fun howes => hunowed (h.owed howes)
  case unanswered => exact fun place hplace => absurd (h.unanswered place hplace) hunowed
  case woken =>
    intro hmem
    rw [hwoken, hnobody] at hmem
    exact absurd hmem List.not_mem_nil
  case outside => exact fun _ hplace => absurd hplace (by simp [Reckoning.park])
  case unkept => exact fun _ => rfl

/-- **The loop goes on**, since it was woken or its time has come. -/
theorem Parked.unparks {last : Nat} {due time : Int} (h : books.Parked world who due last time)
    (hready : who ∈ world.service.woken ∨ due ≤ world.clock) (hclock : later.clock = world.clock)
    (hsleepers : later.service.sleepers = []) : books.BeforeNext later last time where
  asleep := hsleepers
  ended := h.ended
  caused := by
    rcases hready with hwoken | hdue
    · exact .inl (h.woken hwoken)
    · rw [hclock]
      refine .inr ⟨Int.le_trans h.le_due hdue, fun hexact => ?_⟩
      obtain ⟨hsame, hle⟩ := h.due_eq hexact
      exact (Int.le_antisymm hle hdue).trans hsame
  prompt howes := absurd howes h.unowed
  outside := h.outside

end

/-! ### A request is kept -/

section

variable {books : Books} {world later : World σ} {who : Nat} {moment : Moment}

theorem InCycle.keep (h : books.InCycle world) (hmark : moment.mark = .requested)
    (hsleepers : later.service.sleepers = world.service.sleepers)
    (hpermit : later.service.permit = true) :
    (books.enter moment (books.reckoning.keep books.diary.length)).InCycle later where
  asleep := hsleepers.trans h.asleep
  isOpen := by
    obtain ⟨began, hlt, hbegan, hquiet⟩ := h.isOpen
    refine ⟨began, ?_, hbegan.snoc _, hquiet.snoc hmark⟩
    show began < (books.diary ++ [moment]).length
    rw [List.length_append]
    omega
  unanswered _ _ := hpermit
  first _ _ _ := hpermit

theorem AfterCycle.keep {last : Nat} {time : Int} (h : books.AfterCycle world last time)
    (hmark : moment.mark = .requested) (hclock : later.clock = world.clock)
    (hsleepers : later.service.sleepers = world.service.sleepers)
    (hpermit : later.service.permit = true) :
    (books.enter moment (books.reckoning.keep books.diary.length)).AfterCycle later last time where
  asleep := hsleepers.trans h.asleep
  ended := h.ended.snoc hmark
  le_clock := by rw [hclock]; exact h.le_clock
  clock_eq := by rw [hclock]; exact h.clock_eq
  unanswered _ _ := hpermit
  owed _ := hpermit

/-- What is kept now was not asked for in the middle of a cycle, if none is in progress. -/
theorem outside_keep (hended : ¬ books.diary.IsOpen books.diary.length) :
    ∀ place, (books.reckoning.keep books.diary.length).kept = some place →
      ¬ IsOpen (books.diary ++ [moment]) place := by
  intro place hplace
  obtain rfl := Option.some.inj hplace
  rwa [isOpen_snoc_of_le (Nat.le_refl _)]

theorem BeforeNext.keep {last : Nat} {time : Int} (h : books.BeforeNext world last time)
    (hmark : moment.mark = .requested) (hclock : later.clock = world.clock)
    (hsleepers : later.service.sleepers = world.service.sleepers) :
    (books.enter moment (books.reckoning.keep books.diary.length)).BeforeNext later last time where
  asleep := hsleepers.trans h.asleep
  ended := h.ended.snoc hmark
  caused := by rw [hclock]; exact h.caused
  prompt howes := by
    rw [hclock]
    exact h.prompt ((owes_snoc_of_lt (marks_of_getElem? h.ended.ended).lt_length).1 howes)
  outside := outside_keep h.ended.not_isOpen

/-- The loop was woken before, since nobody is parked. -/
theorem Parked.keep {last : Nat} {due time : Int} (h : books.Parked world who due last time)
    (hmark : moment.mark = .requested) (hclock : later.clock = world.clock)
    (hnobody : world.service.parked = []) (hparked : later.service.parked = world.service.parked)
    (hwoken : later.service.woken = world.service.woken) :
    (books.enter moment (books.reckoning.keep books.diary.length)).Parked later who due last
      time := by
  -- The one that sleeps is not parked, so it has been woken and only has to go on.
  have hmem : who ∈ world.service.woken := by
    have hasleep := h.asleep
    unfold Service.sleepers at hasleep
    rw [hnobody, List.nil_append] at hasleep
    rw [hasleep]
    exact List.mem_singleton.2 rfl
  constructor
  case asleep => exact (Service.sleepers_congr hparked hwoken).trans h.asleep
  case ended => exact h.ended.snoc hmark
  case le_due => exact h.le_due
  case due_eq =>
    rw [hclock]
    exact h.due_eq
  case unowed =>
    exact fun howes =>
      h.unowed ((owes_snoc_of_lt (marks_of_getElem? h.ended.ended).lt_length).1 howes)
  case unanswered =>
    rw [hwoken]
    exact fun _ _ => hmem
  case woken => exact fun _ => h.woken hmem
  case outside => exact outside_keep h.ended.not_isOpen
  case unkept => exact fun hsome => absurd (hparked.trans hnobody) hsome

/-- **A request is kept.** -/
theorem At.keep {stage : LoopStage} (h : books.At world who stage)
    (hmark : moment.mark = .requested) (hclock : later.clock = world.clock)
    (hpermit : later.service.permit = true) (hnobody : world.service.parked = [])
    (hparked : later.service.parked = world.service.parked)
    (hwoken : later.service.woken = world.service.woken) :
    (books.enter moment (books.reckoning.keep books.diary.length)).At later who stage := by
  have hsleepers := Service.sleepers_congr hparked hwoken
  have hbefore : (books.BeforeFirst world ∨ ∃ last time, books.BeforeNext world last time) →
      (books.enter moment (books.reckoning.keep books.diary.length)).BeforeFirst later ∨
        ∃ last time, (books.enter moment (books.reckoning.keep books.diary.length)).BeforeNext
          later last time := by
    rintro (hfirst | ⟨last, time, hnext⟩)
    · exact .inl ⟨hsleepers.trans hfirst.asleep, hfirst.quiet.snoc hmark, fun _ _ => hpermit⟩
    · exact .inr ⟨last, time, hnext.keep hmark hclock hsleepers⟩
  cases stage with
  | top => exact hbefore h
  | cycling stage =>
    cases stage with
    | queued => exact hbefore h
    | _ => exact InCycle.keep h hmark hsleepers hpermit
  | rest =>
    obtain ⟨last, time, hrest⟩ := h
    exact ⟨last, time, hrest.keep hmark hclock hsleepers hpermit⟩
  | parked due =>
    obtain ⟨last, time, hpark⟩ := h
    exact ⟨last, time, hpark.keep hmark hclock hnobody hparked hwoken⟩
  | done => trivial

/-! ### A request wakes the loop -/

/-- The loop is the only one that is parked. -/
theorem Parked.wake {first last : Nat} {rest : List Nat} {due time : Int}
    (h : books.Parked world who due last time) (hmark : moment.mark = .requested)
    (hclock : later.clock = world.clock) (hsome : world.service.parked = first :: rest)
    (hparked : later.service.parked = rest)
    (hwoken : later.service.woken = world.service.woken ++ [first]) :
    (books.enter moment (books.reckoning.wake books.diary.length)).Parked later who due last
      time := by
  have hasleep := h.asleep
  unfold Service.sleepers at hasleep
  rw [hsome, List.cons_append, List.cons.injEq, List.append_eq_nil_iff] at hasleep
  obtain ⟨rfl, rfl, hnone⟩ := hasleep
  rw [hnone, List.nil_append] at hwoken
  constructor
  case asleep =>
    unfold Service.sleepers
    rw [hparked, hwoken]
    rfl
  case ended => exact h.ended.snoc hmark
  case le_due => exact h.le_due
  case due_eq =>
    rw [hclock]
    exact h.due_eq
  case unowed =>
    exact fun howes =>
      h.unowed ((owes_snoc_of_lt (marks_of_getElem? h.ended.ended).lt_length).1 howes)
  case unanswered =>
    rw [hwoken]
    exact fun _ _ => List.mem_singleton.2 rfl
  case woken => exact fun _ => rfl
  case outside => exact fun _ hplace => absurd hplace (by simp [enter, Reckoning.wake])
  case unkept => exact fun hsome => absurd hparked hsome

/-- **A request wakes the loop.** -/
theorem At.wake {stage : LoopStage} {first : Nat} {rest : List Nat} (h : books.At world who stage)
    (hmark : moment.mark = .requested) (hclock : later.clock = world.clock)
    (hsome : world.service.parked = first :: rest) (hparked : later.service.parked = rest)
    (hwoken : later.service.woken = world.service.woken ++ [first]) :
    (books.enter moment (books.reckoning.wake books.diary.length)).At later who stage := by
  by_cases hdone : stage = .done
  · subst hdone
    trivial
  · have hsleepers : world.service.sleepers ≠ [] := by
      unfold Service.sleepers
      rw [hsome]
      simp
    obtain ⟨due, last, time, rfl, hpark⟩ := h.parked_of_sleepers hdone hsleepers
    exact ⟨last, time, hpark.wake hmark hclock hsome hparked hwoken⟩

/-! ### Time passes -/

/-- Before a cycle begins an exact clock stands still. -/
theorem BeforeNext.passes {last : Nat} {time : Int} (h : books.BeforeNext world last time)
    (hsleepers : later.service.sleepers = world.service.sleepers)
    (hle : world.clock ≤ later.clock) (hsame : books.exact → later.clock = world.clock) :
    books.BeforeNext later last time where
  asleep := hsleepers.trans h.asleep
  ended := h.ended
  caused := h.caused.imp_right fun ⟨hdue, heq⟩ =>
    ⟨Int.le_trans hdue hle, fun hexact => (hsame hexact).trans (heq hexact)⟩
  prompt howes hexact := (hsame hexact).trans (h.prompt howes hexact)
  outside := h.outside

/-- So it does after one has ended. -/
theorem AfterCycle.passes {last : Nat} {time : Int} (h : books.AfterCycle world last time)
    (hpermit : later.service.permit = world.service.permit)
    (hsleepers : later.service.sleepers = world.service.sleepers)
    (hle : world.clock ≤ later.clock) (hsame : books.exact → later.clock = world.clock) :
    books.AfterCycle later last time where
  asleep := hsleepers.trans h.asleep
  ended := h.ended
  le_clock := Int.le_trans h.le_clock hle
  clock_eq hexact := (hsame hexact).trans (h.clock_eq hexact)
  unanswered place hplace := hpermit.trans (h.unanswered place hplace)
  owed howes := hpermit.trans (h.owed howes)

theorem Parked.passes {last : Nat} {due time : Int} (h : books.Parked world who due last time)
    (hparked : later.service.parked = world.service.parked)
    (hwoken : later.service.woken = world.service.woken)
    (hexact : books.exact → later.clock = world.clock ∨ later.clock ≤ due) :
    books.Parked later who due last time where
  asleep := (Service.sleepers_congr hparked hwoken).trans h.asleep
  ended := h.ended
  le_due := h.le_due
  due_eq hclock := by
    obtain ⟨hdue, hle⟩ := h.due_eq hclock
    exact ⟨hdue, (hexact hclock).elim (fun heq => heq ▸ hle) id⟩
  unowed := h.unowed
  unanswered := by rw [hwoken]; exact h.unanswered
  woken := by rw [hwoken]; exact h.woken
  outside := h.outside
  unkept := by rw [hparked]; exact h.unkept

/-- **Nothing is lost as time passes**, if an exact clock waits for the loop. -/
theorem At.passes {stage : LoopStage} (h : books.At world who stage)
    (hpermit : later.service.permit = world.service.permit)
    (hparked : later.service.parked = world.service.parked)
    (hwoken : later.service.woken = world.service.woken) (hle : world.clock ≤ later.clock)
    (hexact : books.exact → later.clock = world.clock ∨ stage.Lets later.clock) :
    books.At later who stage := by
  have hsleepers := Service.sleepers_congr hparked hwoken
  -- An exact clock stands still unless the loop waits for it.
  have hsame : ¬ stage.Lets later.clock → books.exact → later.clock = world.clock :=
    fun hnot h => (hexact h).resolve_right hnot
  have hbefore : ¬ stage.Lets later.clock →
      (books.BeforeFirst world ∨ ∃ last time, books.BeforeNext world last time) →
      books.BeforeFirst later ∨ ∃ last time, books.BeforeNext later last time := by
    rintro hnot (hfirst | ⟨last, time, hnext⟩)
    · exact .inl (hfirst.passes hpermit hsleepers)
    · exact .inr ⟨last, time, hnext.passes hsleepers hle (hsame hnot)⟩
  cases stage with
  | top => exact hbefore id h
  | cycling stage =>
    cases stage with
    | queued => exact hbefore id h
    | _ => exact InCycle.passes h hpermit hsleepers
  | rest =>
    obtain ⟨last, time, hrest⟩ := h
    exact ⟨last, time, hrest.passes hpermit hsleepers hle (hsame id)⟩
  | parked due =>
    obtain ⟨last, time, hpark⟩ := h
    exact ⟨last, time, hpark.passes hparked hwoken hexact⟩
  | done => trivial

end

end Books

end DeviceScope
