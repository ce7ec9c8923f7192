import DeviceScope.Proofs.Directory.Listing
import DeviceScope.Proofs.Service.Cycle

/-!
# When the pages of a cycle arrive

A cycle asks for a page as soon as it has taken in the one before. So the pages arrive one after
another at equal distances from the moment at which the cycle began, which is what its `Timetable`
says, while the deadline is the same for all of them.

`Timetable.Keeps` — the cycle is where the timetable has it, at this moment of the clock. It holds
when a cycle begins (`Timetable.keeps_start`), and is kept by each of its turns (`Keeps.fetched`,
`Keeps.tookIn`) and while it waits (`Keeps.wait`). How a listing comes to its end is read off it
(`Keeps.closed`, `Keeps.brokeOff`, `Keeps.tookLong`).

A cycle that keeps to its timetable looks ahead no farther than to its `Timetable.horizon`
(`Keeps.isInReach`). Where this is no later than the `lastMoment` of a timer, it does not matter
that timers have one.
-/

namespace DeviceScope

variable {σ : Type}

/-! ### Waiting for a page -/

namespace Cycle

variable {cycle : Cycle} {clock : Int}

/-- **A cycle waits** for a page that has not arrived, until it does or the listing has taken too
long. -/
theorem isReady_eq_false_iff :
    cycle.isReady clock = false ↔ cycle.page = [] ∧ cycle.listing.hasNext = true ∧
      cycle.hasPage clock = false ∧ cycle.isLate clock = false := by
  unfold isReady
  cases cycle.page <;> cases cycle.listing.hasNext <;> simp

/-- The alarm of a cycle is the first of the two moments that it waits for. -/
theorem le_of_alarm? {alarm : Int} (h : cycle.alarm? = some alarm) :
    (∀ due, cycle.due = some due → alarm ≤ due) ∧
      ∀ deadline, cycle.deadline = some deadline → alarm ≤ deadline := by
  unfold alarm? at h
  split at h
  · next due deadline hdue hdeadline =>
    obtain rfl := Option.some.inj h
    simp only [hdue, hdeadline, Option.some.injEq, forall_eq']
    exact ⟨Int.min_le_left _ _, Int.min_le_right _ _⟩
  · next due hdue hdeadline =>
    obtain rfl := Option.some.inj h
    simp [hdue, hdeadline]
  · next hdue =>
    simp [hdue, h]

/-- **A cycle that waits has an alarm**, which is still to come, and then it goes on. -/
theorem exists_alarm (h : cycle.isReady clock = false) :
    ∃ alarm, cycle.alarm? = some alarm ∧ clock ≤ alarm ∧ cycle.isReady alarm = true := by
  obtain ⟨-, -, hpage, hlate⟩ := isReady_eq_false_iff.1 h
  unfold hasPage at hpage
  unfold isLate at hlate
  unfold isReady hasPage isLate alarm?
  -- The page is due at some moment, and this moment or the deadline is the first of the two.
  cases hdue : cycle.due with
  | none =>
    rw [hdue] at hpage
    exact absurd hpage (by simp)
  | some due =>
    rw [hdue, Option.all_some, decide_eq_false_iff_not] at hpage
    cases hdeadline : cycle.deadline with
    | none => exact ⟨due, rfl, by omega, by simp⟩
    | some deadline =>
      rw [hdeadline, Option.any_some, decide_eq_false_iff_not] at hlate
      refine ⟨min due deadline, rfl, by omega, ?_⟩
      rcases Int.le_total due deadline with hle | hle
      · rw [Int.min_eq_left hle]
        simp
      · rw [Int.min_eq_right hle]
        simp

end Cycle

/-- The last moment that a timer waits for which counts milliseconds in 64 bits and means something
else by the two greatest counts. Deadlines, whose seconds have 64 bits, reach farther. -/
def lastMoment : Int := 18446744073709551613000000

/-- **A timer reaches every moment that the cycle waits for.** -/
structure Cycle.IsInReach (cycle : Cycle) : Prop where
  deadline : ∀ deadline, cycle.deadline = some deadline → deadline ≤ lastMoment
  due : cycle.page = [] → cycle.listing.hasNext = true →
    ∀ due, cycle.due = some due → due ≤ lastMoment

/-! ### Timetables -/

/-- When a cycle began, the listing that it opened, and how long the listing may take. -/
structure Timetable where
  begun : Int
  opened : Listing
  timeout : Option Span

/-- **What a cycle has taken in**: the identities that it was shown, in their order, and nothing
else was written. -/
structure Report.Covers (shown : List Identity) (log : List Attempt) (report : Report) : Prop where
  statement_eq : log.map Attempt.statement = shown.map Identity.statement
  report_eq : report = ⟨shown.length, 0, Attempt.failures log⟩

namespace Timetable

/-- How long each page takes, in nanoseconds. -/
def pace (table : Timetable) : Nat := table.opened.delay.elim 0 Span.nanos

/-- When as many pages have arrived. -/
def arrival (table : Timetable) (count : Nat) : Int := table.begun + (count * table.pace : Nat)

/-- Whether as many pages arrive before the listing has taken too long. One that arrives at the
deadline is in time. -/
def InTime (table : Timetable) (count : Nat) : Prop :=
  ∀ span, table.timeout = some span → count * table.pace ≤ span.nanos

/-- **The last moment that a cycle looks ahead to**: when a page would arrive that it asked for at
the deadline or, if there is no deadline, when the last page arrives. -/
def horizon (table : Timetable) : Int :=
  match table.timeout with
  | some span => table.begun + span.nanos + (table.pace : Nat)
  | none => table.arrival table.opened.remaining

variable {table : Timetable}

theorem arrival_mono {few many : Nat} (h : few ≤ many) :
    table.arrival few ≤ table.arrival many := by
  have hle := Nat.mul_le_mul_right table.pace h
  unfold arrival
  omega

theorem arrival_zero : table.arrival 0 = table.begun := by
  unfold arrival
  omega

theorem arrival_succ (count : Nat) :
    table.arrival (count + 1) = table.arrival count + (table.pace : Nat) := by
  unfold arrival
  rw [Nat.succ_mul]
  omega

theorem pace_of_delay {delay : Span} (h : table.opened.delay = some delay) :
    table.pace = delay.nanos := by
  rw [pace, h]
  rfl

theorem pace_of_delay_eq_none (h : table.opened.delay = none) : table.pace = 0 := by
  rw [pace, h]
  rfl

/-- **A cycle keeps to its timetable**: so many pages were served, and the clock stands between the
arrival of the last one and that of the next, and not beyond the deadline. -/
structure Keeps (table : Timetable) (clock : Int) (cycle : Cycle) : Prop where
  left : table.opened.Left cycle.listing
  deadline_eq : cycle.deadline = table.timeout.map fun span => table.begun + span.nanos
  /-- The next page was asked for when the last one arrived. -/
  due_eq : cycle.page = [] →
    cycle.due = Cycle.dueOf table.opened (table.arrival cycle.listing.served)
  /-- Time passes only while a page is waited for. -/
  clock_eq : cycle.page ≠ [] ∨ cycle.listing.hasNext = false →
    clock = table.arrival cycle.listing.served
  arrival_le : table.arrival cycle.listing.served ≤ clock
  le_arrival : clock ≤ table.arrival (cycle.listing.served + 1)
  le_deadline : ∀ span, table.timeout = some span → clock ≤ table.begun + span.nanos

/-- **The listing was walked to its end**, and every page was in time. -/
structure Through (table : Timetable) (clock : Int) : Prop where
  failure_eq : table.opened.failure = none
  clock_eq : clock = table.arrival table.opened.remaining
  inTime : table.InTime table.opened.remaining

/-- A page that has arrived at this moment is in time if the moment is not beyond the deadline. -/
theorem inTime_of_le {clock : Int} {count : Nat} (hclock : clock = table.arrival count)
    (hdeadline : ∀ span, table.timeout = some span → clock ≤ table.begun + span.nanos) :
    table.InTime count := by
  intro span htimeout
  have hle := hdeadline span htimeout
  rw [hclock, arrival] at hle
  omega

/-- A cycle that has just got a page, or has just taken in an identity, asks for the next page if
nothing is left of the last one. So it keeps to its timetable. -/
theorem keeps_resume {cycle : Cycle} {clock : Int} (hleft : table.opened.Left cycle.listing)
    (hdeadline : cycle.deadline = table.timeout.map fun span => table.begun + span.nanos)
    (hclock : clock = table.arrival cycle.listing.served)
    (hle : ∀ span, table.timeout = some span → clock ≤ table.begun + span.nanos) :
    table.Keeps clock (cycle.resume clock) := by
  have hdue : (cycle.resume clock).page = [] →
      (cycle.resume clock).due = Cycle.dueOf table.opened (table.arrival cycle.listing.served) := by
    unfold Cycle.resume
    split
    · intro _
      rw [← hclock, Cycle.dueOf, Cycle.dueOf, ← hleft.delay_eq]
    · next hpage =>
      intro hempty
      rw [hempty] at hpage
      exact absurd rfl hpage
  -- All else is as it was before the cycle asked.
  obtain ⟨due, hresume⟩ := cycle.exists_resume_eq clock
  rw [hresume] at hdue ⊢
  refine ⟨hleft, hdeadline, hdue, fun _ => hclock, ?_, ?_, hle⟩
  · exact Int.le_of_eq hclock.symm
  · show clock ≤ table.arrival (cycle.listing.served + 1)
    rw [hclock, arrival_succ]
    omega

/-- A cycle that begins is at the beginning of its timetable. -/
theorem keeps_start (table : Timetable) (hserved : table.opened.served = 0) :
    table.Keeps table.begun (.start table.opened table.timeout table.begun) := by
  -- It asks for its first page, as a cycle does that has taken in a page.
  let before : Cycle := { Cycle.start table.opened table.timeout table.begun with due := none }
  have hleft : table.opened.Left before.listing := Listing.Walked.opened.left hserved
  have hclock : table.begun = table.arrival before.listing.served := by
    show table.begun = table.arrival table.opened.served
    rw [hserved, arrival_zero]
  have hbegun : table.Keeps table.begun (before.resume table.begun) := by
    refine keeps_resume hleft rfl hclock ?_
    intro span _
    omega
  exact hbegun

namespace Keeps

variable {cycle : Cycle} {clock : Int}

/-- **Time passes** while the cycle waits, but not beyond its alarm. -/
theorem wait {later alarm : Int} (h : table.Keeps clock cycle)
    (hwaits : cycle.isReady clock = false) (hle : clock ≤ later)
    (halarm : cycle.alarm? = some alarm) (hbefore : later ≤ alarm) :
    table.Keeps later cycle := by
  obtain ⟨hpage, hmore, hpending, -⟩ := Cycle.isReady_eq_false_iff.1 hwaits
  obtain ⟨hdue, hdeadline⟩ := Cycle.le_of_alarm? halarm
  refine ⟨h.left, h.deadline_eq, h.due_eq, ?_, Int.le_trans h.arrival_le hle, ?_, ?_⟩
  · rintro (hbusy | hend)
    · exact absurd hpage hbusy
    · rw [hmore] at hend
      exact absurd hend (by decide)
  · -- The alarm is not after the arrival of the page that is waited for.
    cases hdelay : table.opened.delay with
    | none =>
      rw [Cycle.hasPage, h.due_eq hpage, Cycle.dueOf, hdelay] at hpending
      exact absurd hpending (by simp)
    | some delay =>
      have harrives : alarm ≤ table.arrival cycle.listing.served + delay.nanos :=
        hdue _ (by rw [h.due_eq hpage, Cycle.dueOf, hdelay]; rfl)
      rw [arrival_succ, pace_of_delay hdelay]
      omega
  · intro span htimeout
    have hlast : alarm ≤ table.begun + span.nanos :=
      hdeadline _ (by rw [h.deadline_eq, htimeout]; rfl)
    omega

/-- A page that is there has arrived at its time. -/
theorem clock_eq_of_hasPage (h : table.Keeps clock cycle) (hpage : cycle.page = [])
    (harrived : cycle.hasPage clock = true) :
    clock = table.arrival (cycle.listing.served + 1) := by
  -- The clock has come to the moment at which the page was due, and cannot have gone past it.
  have hfrom := h.arrival_le
  have hto := h.le_arrival
  rw [arrival_succ] at hto ⊢
  rw [Cycle.hasPage, h.due_eq hpage, Cycle.dueOf] at harrived
  cases hdelay : table.opened.delay with
  | none =>
    rw [pace_of_delay_eq_none hdelay] at hto ⊢
    omega
  | some delay =>
    rw [hdelay, Option.map_some, Option.all_some, decide_eq_true_iff] at harrived
    rw [pace_of_delay hdelay] at hto ⊢
    omega

/-- One more page has arrived. -/
theorem fetched {page : List Identity} {rest : Listing} (h : table.Keeps clock cycle)
    (hpage : cycle.page = []) (hmore : cycle.listing.hasNext = true)
    (harrived : cycle.hasPage clock = true) (hnext : cycle.listing.next = (.ok page, rest)) :
    table.Keeps clock (Cycle.resume { cycle with listing := rest, page } clock) := by
  have hserved : rest.served = cycle.listing.served + 1 := by
    obtain ⟨-, rfl, -⟩ := Listing.of_next_ok hnext
    rfl
  refine keeps_resume (h.left.next hmore hnext) h.deadline_eq ?_ h.le_deadline
  show clock = table.arrival rest.served
  rw [hserved]
  exact h.clock_eq_of_hasPage hpage harrived

/-- One more identity is taken in. -/
theorem tookIn [KeyValueStore σ] {identity : Identity} {page : List Identity}
    (h : table.Keeps clock cycle) (cache : Cache σ) (now : Timestamp)
    (hpage : cycle.page = identity :: page) :
    table.Keeps clock (({ cycle with page }.takeIn cache identity now).1.resume clock) := by
  rw [Cycle.takeIn_eq]
  refine keeps_resume h.left h.deadline_eq (h.clock_eq (.inl ?_)) h.le_deadline
  rw [hpage]
  exact List.cons_ne_nil _ _

/-- **At the end of the listing** all its pages have arrived. -/
theorem closed (h : table.Keeps clock cycle) (hend : cycle.listing.hasNext = false) :
    table.Through clock := by
  have hnone : cycle.listing.remaining = 0 := by
    refine Nat.eq_zero_of_not_pos fun hpos => ?_
    rw [(Listing.hasNext_iff cycle.listing).2 hpos] at hend
    exact absurd hend (by decide)
  have hcount := h.left.served_add_remaining
  rw [hnone, Nat.add_zero] at hcount
  have hclock := h.clock_eq (.inr hend)
  rw [hcount] at hclock
  refine ⟨?_, hclock, inTime_of_le hclock h.le_deadline⟩
  -- A listing that is to break off is not at its end before it does.
  cases hfailure : table.opened.failure with
  | none => rfl
  | some failure =>
    have hle := h.left.served_le failure hfailure
    rw [Listing.hasNext, h.left.failure_eq, hfailure, Option.any_some, decide_eq_true hle,
      Bool.or_true] at hend
    exact absurd hend (by decide)

/-- **A listing that breaks off** does so when the page arrives at which it was to. -/
theorem brokeOff {error : DirectoryError} {rest : Listing} (h : table.Keeps clock cycle)
    (hpage : cycle.page = []) (harrived : cycle.hasPage clock = true)
    (hnext : cycle.listing.next = (.error error, rest)) :
    table.opened.failure = some (cycle.listing.served, error) ∧
      clock = table.arrival (cycle.listing.served + 1) ∧
      table.InTime (cycle.listing.served + 1) := by
  have hclock := h.clock_eq_of_hasPage hpage harrived
  refine ⟨?_, hclock, inTime_of_le hclock h.le_deadline⟩
  rw [← h.left.failure_eq]
  exact Listing.of_next_error hnext

/-- **A listing that has taken too long** has come to its deadline, and the next page is not to
arrive before it. -/
theorem tookLong (h : table.Keeps clock cycle) (hpage : cycle.page = [])
    (hmore : cycle.listing.hasNext = true) (hpending : cycle.hasPage clock = false)
    (hready : cycle.isReady clock = true) :
    ∃ span, table.timeout = some span ∧ clock = table.begun + span.nanos ∧
      cycle.listing.served = span.nanos / table.pace ∧
      span.nanos < table.opened.remaining * table.pace := by
  have hlate : cycle.isLate clock = true := by
    cases hlate : cycle.isLate clock with
    | true => rfl
    | false =>
      rw [Cycle.isReady_eq_false_iff.2 ⟨hpage, hmore, hpending, hlate⟩] at hready
      exact absurd hready (by decide)
  rw [Cycle.isLate, h.deadline_eq] at hlate
  rw [Cycle.hasPage, h.due_eq hpage, Cycle.dueOf] at hpending
  cases htimeout : table.timeout with
  | none =>
    rw [htimeout] at hlate
    exact absurd hlate (by simp)
  | some span =>
    rw [htimeout, Option.map_some, Option.any_some, decide_eq_true_iff] at hlate
    have hdeadline := h.le_deadline span htimeout
    have hclock : clock = table.begun + span.nanos := by omega
    refine ⟨span, rfl, hclock, ?_⟩
    cases hdelay : table.opened.delay with
    | none =>
      rw [hdelay] at hpending
      exact absurd hpending (by simp)
    | some delay =>
      rw [hdelay, Option.map_some, Option.all_some, decide_eq_false_iff_not] at hpending
      -- The deadline falls between the last arrival and the next one.
      have hlast : cycle.listing.served * table.pace ≤ span.nanos := by
        have hfrom := h.arrival_le
        rw [arrival] at hfrom
        omega
      have hnext : span.nanos < (cycle.listing.served + 1) * table.pace := by
        rw [Nat.succ_mul]
        rw [arrival, ← pace_of_delay hdelay] at hpending
        omega
      refine ⟨(Nat.div_eq_of_lt_le hlast hnext).symm, Nat.lt_of_lt_of_le hnext ?_⟩
      have hcount := h.left.served_add_remaining
      have hpos := (Listing.hasNext_iff cycle.listing).1 hmore
      exact Nat.mul_le_mul_right _ (by omega)

/-- A page that is waited for arrives no later than at the horizon. -/
theorem due_le_horizon {due : Int} (h : table.Keeps clock cycle) (hpage : cycle.page = [])
    (hmore : cycle.listing.hasNext = true) (hdue : cycle.due = some due) : due ≤ table.horizon := by
  have harrives : due = table.arrival (cycle.listing.served + 1) := by
    rw [h.due_eq hpage, Cycle.dueOf] at hdue
    obtain ⟨delay, hdelay, rfl⟩ := Option.map_eq_some_iff.1 hdue
    rw [arrival_succ, pace_of_delay hdelay]
  unfold horizon
  split
  · next span htimeout =>
    -- It was asked for at the deadline at the latest.
    have hdeadline := h.le_deadline span htimeout
    have hasked := h.arrival_le
    rw [arrival_succ] at harrives
    omega
  · have hcount := h.left.served_add_remaining
    have hpos := (Listing.hasNext_iff cycle.listing).1 hmore
    rw [harrives]
    exact arrival_mono (by omega)

/-- The deadline is no later than the horizon. -/
theorem deadline_le_horizon {deadline : Int} (h : table.Keeps clock cycle)
    (hdeadline : cycle.deadline = some deadline) : deadline ≤ table.horizon := by
  rw [h.deadline_eq] at hdeadline
  obtain ⟨span, htimeout, rfl⟩ := Option.map_eq_some_iff.1 hdeadline
  rw [horizon, htimeout]
  dsimp only
  omega

/-- **A cycle waits for nothing that a timer does not reach**, if the horizon is not beyond it. -/
theorem isInReach (h : table.Keeps clock cycle) (hhorizon : table.horizon ≤ lastMoment) :
    cycle.IsInReach :=
  ⟨fun _ hdeadline => Int.le_trans (h.deadline_le_horizon hdeadline) hhorizon,
    fun hpage hmore _ hdue => Int.le_trans (h.due_le_horizon hpage hmore hdue) hhorizon⟩

end Keeps

/-- **How a cycle ends by its timetable.** -/
inductive Ended (table : Timetable) (log : List Attempt) (clock : Int) : CycleOutcome → Prop where
  /-- All pages were in time, and the listing has not broken off. -/
  | completed {report : Report} (hthrough : table.Through clock)
    (hlisted : report.listed = table.opened.pages.flatten.length) :
    Ended table log clock (.completed report)
  /-- The listing has broken off in time. -/
  | aborted {report : Report} {page : Nat} {error : DirectoryError}
    (hfailure : table.opened.failure = some (page, error))
    (hclock : clock = table.arrival (page + 1)) (hintime : table.InTime (page + 1))
    (hcovers : report.Covers (table.opened.pages.take page).flatten log) :
    Ended table log clock (.aborted report error)
  /-- The deadline has come before the last page. -/
  | timedOut {report : Report} {span : Span} (htimeout : table.timeout = some span)
    (hlate : span.nanos < table.opened.remaining * table.pace)
    (hclock : clock = table.begun + span.nanos)
    (hcovers : report.Covers (table.opened.pages.take (span.nanos / table.pace)).flatten log) :
    Ended table log clock (.timedOut report)

end Timetable

end DeviceScope
