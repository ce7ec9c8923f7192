import DeviceScope.Proofs.Service.Stages

/-!
# Cycles under way

Where a cycle comes from that is under way. It was begun by its task when that task had its turn,
with the listing of what the directory held at that moment (`World.Course.exists_opening`); since
then it has taken in identities from that listing, in its order, and nothing else, whatever happened
around it (`Cycle.Follows`, `World.Course.exists_follows`). If it is marking ids absent, it came to
the end of the listing at some moment on the way, and they were gone then
(`World.Course.exists_closing`).
-/

namespace DeviceScope

variable {σ : Type}

/-! ### What a cycle has from its listing -/

/-- **The cycle has taken in these identities** from a listing, and nothing else has happened to
it. -/
structure Cycle.Follows (opened : Listing) (written : List Identity) (cycle : Cycle) : Prop where
  /-- They are what was fetched from the listing, but for what is left of the page. -/
  fetched : ∃ taken, Listing.Walked opened taken cycle.listing ∧
    taken.flatten = written ++ cycle.page
  /-- Their ids count as mentioned, and no others. -/
  seen : ∀ id, cycle.seen.contains id = true ↔ ∃ identity ∈ written, identity.id = id
  /-- They are counted in the report. -/
  listed : cycle.report.listed = written.length
  /-- Nothing was marked absent yet. -/
  removed : cycle.report.removed = 0

namespace Cycle

variable {opened : Listing} {written : List Identity} {cycle : Cycle}

theorem Follows.start (opened : Listing) (timeout : Option Span) (clock : Int) :
    Follows opened [] (.start opened timeout clock) where
  fetched := ⟨[], .opened, rfl⟩
  seen := by
    intro id
    show (∅ : Ledger Unit).contains id = true ↔ _
    simp
  listed := rfl
  removed := rfl

/-- One more page has arrived. -/
theorem Follows.turn {page : List Identity} {rest : Listing} (h : Follows opened written cycle)
    (due : Option Int) (hpage : cycle.page = []) (hmore : cycle.listing.hasNext = true)
    (hnext : cycle.listing.next = (.ok page, rest)) :
    Follows opened written { cycle with listing := rest, page, due } where
  fetched := by
    obtain ⟨taken, hwalked, htaken⟩ := h.fetched
    refine ⟨taken ++ [page], hwalked.fetched hmore hnext, ?_⟩
    -- Nothing was left of the last page, so everything that was fetched before was taken in.
    rw [List.flatten_append, List.flatten_singleton, htaken, hpage, List.append_nil]
  seen := h.seen
  listed := h.listed
  removed := h.removed

/-- One more identity is taken in. -/
theorem Follows.takeIn [KeyValueStore σ] {identity : Identity} {page : List Identity}
    (h : Follows opened written cycle) (cache : Cache σ) (now : Timestamp) (due : Option Int)
    (hpage : cycle.page = identity :: page) :
    Follows opened (written ++ [identity])
      { ({ cycle with page }.takeIn cache identity now).1 with due } := by
  rw [takeIn_eq]
  -- The identity moves from the page to what was taken in, and its id counts as mentioned.
  refine ⟨?_, ?_, ?_, h.removed⟩
  · obtain ⟨taken, hwalked, htaken⟩ := h.fetched
    refine ⟨taken, hwalked, ?_⟩
    rw [htaken, hpage, List.append_assoc]
    rfl
  · intro id
    show (cycle.seen.insert identity.id ()).contains id = true ↔ _
    rw [Ledger.contains_insert, Bool.or_eq_true, decide_eq_true_iff, h.seen]
    constructor
    · rintro (rfl | ⟨other, hmem, rfl⟩)
      · exact ⟨identity, by simp, rfl⟩
      · exact ⟨other, List.mem_append_left _ hmem, rfl⟩
    · rintro ⟨other, hmem, rfl⟩
      rcases List.mem_append.1 hmem with hmem | hmem
      · exact .inr ⟨other, hmem, rfl⟩
      · rw [List.mem_singleton.1 hmem]
        exact .inl rfl
  · rw [List.length_append, ← h.listed]
    rfl

/-- What was taken in is shown by the listing. -/
theorem Follows.mem_of_mem (h : Follows opened written cycle) {identity : Identity}
    (hmem : identity ∈ written) : identity ∈ opened.pages.flatten := by
  obtain ⟨taken, hwalked, htaken⟩ := h.fetched
  refine hwalked.mem_of_mem ?_
  rw [htaken]
  exact List.mem_append_left _ hmem

/-- **At the end of the listing** everything that it shows was taken in. -/
theorem Follows.written_eq (h : Follows opened written cycle) (hpage : cycle.page = [])
    (hend : cycle.listing.hasNext = false) : written = opened.pages.flatten := by
  obtain ⟨taken, hwalked, htaken⟩ := h.fetched
  rw [← hwalked.flatten_eq hend, htaken, hpage, List.append_nil]

/-- **At the end of the listing, what is gone** are the ids that are present and that the listing
does not show. -/
theorem Follows.mem_gone_iff (h : Follows opened written cycle) (hpage : cycle.page = [])
    (hend : cycle.listing.hasNext = false) (cache : Cache σ) (id : String) :
    id ∈ cycle.gone cache ↔
      id ∈ cache.presentIds ∧ ∀ identity ∈ opened.pages.flatten, identity.id ≠ id := by
  -- What counts as mentioned is by now what the whole listing shows.
  rw [gone, List.mem_filter, Bool.not_eq_true', ← Bool.not_eq_true, h.seen,
    h.written_eq hpage hend]
  simp only [not_exists, not_and, ne_eq]

end Cycle

/-- The task has taken in these identities from a listing, and if it is marking ids absent, these
are all that the listing shows. -/
def CycleStage.Follows (opened : Listing) (written : List Identity) : CycleStage → Prop
  | .queued => False
  | .walking cycle => cycle.Follows opened written
  | .marking _ _ => written = opened.pages.flatten

namespace World

variable [FallibleStore σ]

/-- What happens while the task is in the middle of a cycle. -/
def during (who : Nat) : World σ → Event σ → Prop := fun world _ => world.isUnderWay who = true

/-- A task that has just begun its cycle has taken in nothing yet. -/
theorem follows_of_queued {world : World σ} {who : Nat} {stage : CycleStage}
    (hqueued : world.cycleStage? who = some .queued)
    (h : (world.step who).cycleStage? who = some stage) (hstage : stage.isUnderWay = true) :
    stage.Follows world.directory.listing [] := by
  have hafter : (world.after (.goOn who)).cycleStage? who = some stage := h
  rcases turns_of_isUnderWay_after hafter hstage with
    ⟨hne, -⟩ | ⟨-, before, hbefore, hturns⟩
  · exact absurd rfl hne
  · rw [hqueued] at hbefore
    obtain rfl := Option.some.inj hbefore
    -- A task that waited for its turn makes one turn only.
    cases hturns with
    | began timeout => exact .start _ _ _

/-- A turn of the cycle takes in at most one more identity. -/
theorem Turns.exists_follows {world : World σ} {stage later : CycleStage} {opened : Listing}
    {written : List Identity} (h : world.Turns stage later)
    (hfollows : stage.Follows opened written) :
    ∃ more, later.Follows opened (written ++ more) := by
  cases h with
  | began timeout => exact absurd hfollows id
  | fetched due hpage hmore hnext =>
    exact ⟨[], by rw [List.append_nil]; exact Cycle.Follows.turn hfollows due hpage hmore hnext⟩
  | tookIn due hpage => exact ⟨_, Cycle.Follows.takeIn hfollows _ _ due hpage⟩
  | closed hpage hend =>
    exact ⟨[], by rw [List.append_nil]; exact Cycle.Follows.written_eq hfollows hpage hend⟩
  | marked report id gone => exact ⟨[], by rwa [List.append_nil]⟩

section Along

variable {allowed : World σ → Event σ → Prop} {start world : World σ} {log : List Attempt}
  {who : Nat} {stage : CycleStage}

/-- A task that is in the middle of a cycle was so before, or it had waited for its turn. -/
theorem isUnderWay_or_queued {event : Event σ} (h : (world.after event).isUnderWay who = true) :
    world.isUnderWay who = true ∨
      event = .goOn who ∧ world.cycleStage? who = some .queued := by
  obtain ⟨later, hlater, hunderWay⟩ := isUnderWay_iff.1 h
  rcases turns_of_isUnderWay_after hlater hunderWay with ⟨-, hsame⟩ | ⟨hevent, stage, hstage, -⟩
  · exact .inl (isUnderWay_iff.2 ⟨later, hsame, hunderWay⟩)
  · cases stage with
    | queued => exact .inr ⟨hevent, hstage⟩
    | _ => exact .inl (isUnderWay_iff.2 ⟨_, hstage, rfl⟩)

/-- **The beginning of a cycle.** A task that is in the middle of a cycle at the end of a course,
but was not at its beginning, began it at some moment on the way: it had waited for its turn then,
and has been in the middle of this cycle ever since. -/
theorem Course.exists_opening (h : Course allowed start log world)
    (hstart : start.isUnderWay who = false) (hworld : world.isUnderWay who = true) :
    ∃ earlier before later, Course allowed start earlier before ∧
      before.cycleStage? who = some .queued ∧
      Course (during who) (before.step who) later world := by
  -- Going back along the course, either the task was under way before or this is where it began.
  induction h with
  | here =>
    rw [hstart] at hworld
    exact absurd hworld (by decide)
  | @next log world event hcourse hallowed hadmits ih =>
    rcases isUnderWay_or_queued hworld with hduring | ⟨rfl, hqueued⟩
    · obtain ⟨earlier, before, later, hreached, hqueued, hsince⟩ := ih hduring
      exact ⟨earlier, before, _, hreached, hqueued, hsince.next hduring hadmits⟩
    · exact ⟨log, world, [], hcourse, hqueued, .here⟩

/-- **What a cycle has taken in** since it began is from the listing of what the directory held
then. -/
theorem Course.exists_follows {before : World σ}
    (h : Course (during who) (before.step who) log world)
    (hqueued : before.cycleStage? who = some .queued) (hstage : world.cycleStage? who = some stage)
    (hunderWay : stage.isUnderWay = true) :
    ∃ written, stage.Follows before.directory.listing written := by
  -- The listing stays the one that was opened first, whatever the directory does meanwhile.
  induction h generalizing stage with
  | here => exact ⟨[], follows_of_queued hqueued hstage hunderWay⟩
  | @next log world event hcourse hduring hadmits ih =>
    rcases turns_of_isUnderWay_after hstage hunderWay with
      ⟨-, hsame⟩ | ⟨rfl, previous, hprevious, hturns⟩
    · exact ih hsame hunderWay
    · have hpreviousUnderWay := (isUnderWay_eq hprevious).symm.trans hduring
      obtain ⟨written, hfollows⟩ := ih hprevious hpreviousUnderWay
      obtain ⟨more, hmore⟩ := hturns.exists_follows hfollows
      exact ⟨_, hmore⟩

/-- A task that is marking ids absent was doing so before, with no fewer ids, or it has come to the
end of its listing. -/
theorem marking_or_closed {event : Event σ} {report : Report} {gone : List String}
    (h : (world.after event).cycleStage? who = some (.marking report gone)) :
    (∃ before more, world.cycleStage? who = some (.marking before more) ∧ gone.Sublist more) ∨
      event = .goOn who ∧ ∃ cycle, world.IsWalking who cycle ∧ cycle.page = [] ∧
        cycle.listing.hasNext = false ∧ gone = cycle.gone world.cache := by
  rcases turns_of_isUnderWay_after h rfl with ⟨-, hsame⟩ | ⟨hevent, stage, hstage, hturns⟩
  · exact .inl ⟨report, gone, hsame, List.Sublist.refl gone⟩
  · cases hturns with
    | closed hpage hend => exact .inr ⟨hevent, _, hstage, hpage, hend, rfl⟩
    | marked before id gone => exact .inl ⟨before, _, hstage, List.sublist_cons_self id gone⟩

/-- A task that has begun to mark ids absent does so to the end of its cycle. -/
theorem Course.exists_marking {report : Report} {gone : List String}
    (h : Course allowed start log world)
    (hduring : ∀ world event, allowed world event → world.isUnderWay who = true)
    (hstart : start.cycleStage? who = some (.marking report gone))
    (hstage : world.cycleStage? who = some stage) (hunderWay : stage.isUnderWay = true) :
    ∃ report gone, stage = .marking report gone := by
  induction h generalizing stage with
  | here =>
    rw [hstart] at hstage
    exact ⟨report, gone, (Option.some.inj hstage).symm⟩
  | @next log world event hcourse hallowed hadmits ih =>
    rcases turns_of_isUnderWay_after hstage hunderWay with
      ⟨-, hsame⟩ | ⟨rfl, previous, hprevious, hturns⟩
    · exact ih hsame hunderWay
    · have hpreviousUnderWay := (isUnderWay_eq hprevious).symm.trans (hduring _ _ hallowed)
      obtain ⟨report, gone, rfl⟩ := ih hprevious hpreviousUnderWay
      -- From here a cycle only goes on to the next id.
      cases hturns with
      | marked report id gone => exact ⟨_, gone, rfl⟩

/-- **The end of a listing.** A task that is marking ids absent came to the end of its listing at
some moment since it began, and these ids were gone then. -/
theorem Course.exists_closing {before : World σ} {report : Report} {gone : List String}
    (h : Course (during who) (before.step who) log world)
    (hqueued : before.cycleStage? who = some .queued)
    (hmarking : world.cycleStage? who = some (.marking report gone)) :
    ∃ earlier closing later cycle, Course (during who) (before.step who) earlier closing ∧
      closing.IsWalking who cycle ∧ cycle.page = [] ∧ cycle.listing.hasNext = false ∧
      Course (during who) (closing.step who) later world ∧
        gone.Sublist (cycle.gone closing.cache) := by
  -- Going back along the course, more and more ids are left.
  induction h generalizing report gone with
  | here =>
    have hafter : (before.after (.goOn who)).cycleStage? who = some (.marking report gone) :=
      hmarking
    rcases marking_or_closed hafter with
      ⟨_, _, hstage, -⟩ | ⟨-, cycle, hstage, -⟩
    · rw [hqueued] at hstage
      exact absurd hstage (by simp)
    · rw [IsWalking, hqueued] at hstage
      exact absurd hstage (by simp)
  | @next log world event hcourse hduring hadmits ih =>
    rcases marking_or_closed hmarking with
      ⟨_, more, hbefore, hsublist⟩ | ⟨rfl, cycle, hwalking, hpage, hend, rfl⟩
    · obtain ⟨earlier, closing, later, cycle, hreached, hwalking, hpage, hend, hsince, hgone⟩ :=
        ih hbefore
      exact ⟨earlier, closing, _, cycle, hreached, hwalking, hpage, hend,
        hsince.next hduring hadmits, hsublist.trans hgone⟩
    · exact ⟨log, world, [], cycle, hcourse, hwalking, hpage, hend, .here, List.Sublist.refl _⟩

end Along

end World

end DeviceScope
