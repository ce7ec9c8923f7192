import DeviceScope.Proofs.Service.Stages

/-!
# The diary of the service

A diary says when a cycle was asked for, when one began and when one ended, in the order in which
all this came about (`Diary`). `World.moment?` is what an event enters into it, and `World.Account`
is a course of events together with its diary. A place in the diary is a number, counted from the
front, so that nothing that is entered later moves it.

What the service owes to those who ask for a cycle is told by the diary alone: `Diary.Unanswered`
says that no cycle has begun since, `Diary.Owes` that the wait after a cycle is to end at once, and
`Diary.Charged` that every cycle but the first was asked for, or that the time for it had come.
-/

namespace DeviceScope

variable {σ : Type}

/-- What a diary tells of. -/
inductive Mark where
  /-- A cycle was asked for. -/
  | requested
  /-- A cycle began. -/
  | began
  /-- A cycle ended. -/
  | ended
  deriving DecidableEq, Repr

/-- What has come about with a cycle, if it was in progress before or is now. -/
def Mark.turned? : Bool → Bool → Option Mark
  | false, true => some .began
  | true, false => some .ended
  | _, _ => none

/-- What came about, and the time on the clock. -/
structure Moment where
  mark : Mark
  time : Int
  deriving DecidableEq, Repr

/-- What came about, one after another. -/
abbrev Diary := List Moment

namespace Diary

/-! ### What a diary says -/

/-- The diary tells of such a thing at a place. -/
def Marks (diary : Diary) (mark : Mark) (place : Nat) : Prop :=
  diary[place]?.map Moment.mark = some mark

instance (diary : Diary) (mark : Mark) (place : Nat) : Decidable (diary.Marks mark place) :=
  inferInstanceAs (Decidable (_ = _))

/-- How often the diary tells of such a thing. -/
def tally (diary : Diary) (mark : Mark) : Nat := diary.countP (·.mark = mark)

/-- Nothing came about from one place up to another but that cycles were asked for. -/
def Quiet (diary : Diary) (first last : Nat) : Prop :=
  ∀ place, first ≤ place → place < last → diary.Marks .requested place

/-- **A cycle is in progress** at this place. -/
def IsOpen (diary : Diary) (place : Nat) : Prop :=
  ∃ began < place, diary.Marks .began began ∧ diary.Quiet (began + 1) place

/-- **The last cycle has ended** at this place, at this time, and none has begun since. -/
structure LastEnded (diary : Diary) (place : Nat) (time : Int) : Prop where
  ended : diary[place]? = some ⟨.ended, time⟩
  quiet : diary.Quiet (place + 1) diary.length

/-- **A cycle that ended** at one place **is followed by one that begins** at another. -/
structure Follows (diary : Diary) (last : Nat) (lastTime : Int) (next : Nat) (nextTime : Int) :
    Prop where
  ended : diary[last]? = some ⟨.ended, lastTime⟩
  lt : last < next
  quiet : diary.Quiet (last + 1) next
  began : diary[next]? = some ⟨.began, nextTime⟩

/-- **A cycle was asked for** at this place, and none has begun since. -/
structure Unanswered (diary : Diary) (place : Nat) : Prop where
  requested : diary.Marks .requested place
  unbegun : ∀ later, place < later → ¬ diary.Marks .began later

/-- **The cycle that ends at this place leaves another one owed**: it was asked for while this one
was running, or this one is the first and it was asked for at any time before. -/
def Owes (diary : Diary) (last : Nat) : Prop :=
  ∃ place < last, diary.Marks .requested place ∧
    (diary.Quiet (place + 1) last ∨ ∀ earlier < last, ¬ diary.Marks .ended earlier)

/-- **What every cycle is charged to.** Here `charge` gives for the place at which a cycle begins
the place at which it was asked for, if it is charged to that. Whether the clock is exact is told
by `exact`. -/
structure Charged (rate : Span) (exact : Prop) (diary : Diary) (charge : Nat → Option Nat) :
    Prop where
  /-- A cycle is charged to a request that was made before it began. -/
  request : ∀ {began place}, charge began = some place →
    place < began ∧ diary.Marks .requested place ∧ diary.Marks .began began
  /-- Cycles are charged to requests in the order in which they were made, and each only once. -/
  ordered : ∀ {began later place laterPlace}, charge began = some place →
    charge later = some laterPlace → began < later → place < laterPlace
  /-- A request that was made while a cycle was running is charged for the next one, if any. -/
  next : ∀ {began place}, charge began = some place → diary.IsOpen place →
    ∀ between, place < between → between < began → ¬ diary.Marks .began between
  /-- A cycle is the first, or it is charged to a request, or the time for it has come. -/
  caused : ∀ {began}, diary.Marks .began began →
    diary.Quiet 0 began ∨ (charge began).isSome = true ∨
      ∃ last lastTime time, diary.Follows last lastTime began time ∧
        lastTime + rate.nanos ≤ time ∧ (exact → time = lastTime + rate.nanos)
  /-- One that is owed begins at the very time at which the one before it ends. -/
  prompt : exact → ∀ {last lastTime began time}, diary.Owes last →
    diary.Follows last lastTime began time → time = lastTime

/-! ### Entering something -/

theorem tally_append (diary more : Diary) (mark : Mark) :
    tally (diary ++ more) mark = diary.tally mark + tally more mark :=
  List.countP_append

section

variable {diary : Diary} {mark : Mark} {place first last : Nat} {time : Int} {moment : Moment}

theorem marks_of_getElem? (h : diary[place]? = some ⟨mark, time⟩) : diary.Marks mark place := by
  unfold Marks
  rw [h]
  rfl

theorem Marks.lt_length (h : diary.Marks mark place) : place < diary.length := by
  obtain ⟨moment, hmoment, -⟩ := Option.map_eq_some_iff.1 h
  exact (List.getElem?_eq_some_iff.1 hmoment).1

theorem Marks.unique {other : Mark} (h : diary.Marks mark place)
    (hother : diary.Marks other place) : mark = other :=
  Option.some.inj (h.symm.trans hother)

theorem getElem?_snoc_of_lt (h : place < diary.length) :
    (diary ++ [moment])[place]? = diary[place]? :=
  List.getElem?_append_left h

theorem getElem?_snoc_length : (diary ++ [moment])[diary.length]? = some moment :=
  List.getElem?_concat_length

theorem marks_snoc_of_lt (h : place < diary.length) :
    Marks (diary ++ [moment]) mark place ↔ diary.Marks mark place := by
  unfold Marks
  rw [getElem?_snoc_of_lt h]

/-- What is entered comes at the end. -/
theorem marks_snoc : Marks (diary ++ [moment]) mark place ↔
    diary.Marks mark place ∨ place = diary.length ∧ moment.mark = mark := by
  rcases Nat.lt_trichotomy place diary.length with hlt | heq | hgt
  · rw [marks_snoc_of_lt hlt]
    exact ⟨.inl, fun h => h.resolve_right fun heq => absurd heq.1 (Nat.ne_of_lt hlt)⟩
  · subst heq
    have hnot : ¬ diary.Marks mark diary.length := fun h => absurd h.lt_length (Nat.lt_irrefl _)
    unfold Marks at hnot ⊢
    rw [getElem?_snoc_length]
    constructor
    · intro h
      exact .inr ⟨rfl, Option.some.inj h⟩
    · rintro (h | ⟨-, rfl⟩)
      · exact absurd h hnot
      · rfl
  · constructor
    · intro h
      have hlt := h.lt_length
      rw [List.length_append, List.length_singleton] at hlt
      omega
    · rintro (h | ⟨rfl, -⟩)
      · exact absurd h.lt_length (by omega)
      · exact absurd hgt (Nat.lt_irrefl _)

theorem Marks.snoc (h : diary.Marks mark place) (moment : Moment) :
    Marks (diary ++ [moment]) mark place :=
  marks_snoc.2 (.inl h)

theorem quiet_snoc_of_le (h : last ≤ diary.length) :
    Quiet (diary ++ [moment]) first last ↔ diary.Quiet first last :=
  forall_congr' fun _ => imp_congr_right fun _ =>
    ⟨fun hmarks hlt => (marks_snoc_of_lt (Nat.lt_of_lt_of_le hlt h)).1 (hmarks hlt),
      fun hmarks hlt => (hmarks hlt).snoc moment⟩

/-- Where nothing but requests came about, one more may. -/
theorem Quiet.snoc (h : diary.Quiet first diary.length) (hmark : moment.mark = .requested) :
    Quiet (diary ++ [moment]) first (diary ++ [moment]).length := by
  intro place hfirst hlast
  rw [List.length_append, List.length_singleton] at hlast
  by_cases hlt : place < diary.length
  · exact (h place hfirst hlt).snoc moment
  · exact marks_snoc.2 (.inr ⟨by omega, hmark⟩)

theorem isOpen_snoc_of_le (h : place ≤ diary.length) :
    IsOpen (diary ++ [moment]) place ↔ diary.IsOpen place := by
  constructor
  · rintro ⟨began, hlt, hmarks, hquiet⟩
    exact ⟨began, hlt, (marks_snoc_of_lt (Nat.lt_of_lt_of_le hlt h)).1 hmarks,
      (quiet_snoc_of_le h).1 hquiet⟩
  · rintro ⟨began, hlt, hmarks, hquiet⟩
    exact ⟨began, hlt, hmarks.snoc moment, (quiet_snoc_of_le h).2 hquiet⟩

/-- One that was unanswered before, or is now, is unanswered still, unless a cycle begins. -/
theorem Unanswered.of_snoc (h : Unanswered (diary ++ [moment]) place) :
    diary.Unanswered place ∨ place = diary.length ∧ moment.mark = .requested := by
  rcases marks_snoc.1 h.requested with hrequested | hlast
  · exact .inl ⟨hrequested, fun later hlt hbegan => h.unbegun later hlt (hbegan.snoc moment)⟩
  · exact .inr hlast

/-- Nothing is unanswered when a cycle begins. -/
theorem not_unanswered_snoc (hmark : moment.mark = .began) (place : Nat) :
    ¬ Unanswered (diary ++ [moment]) place := by
  intro h
  rcases marks_snoc.1 h.requested with hrequested | ⟨-, hrequested⟩
  · exact h.unbegun diary.length hrequested.lt_length (marks_snoc.2 (.inr ⟨rfl, hmark⟩))
  · exact absurd (hmark.symm.trans hrequested) (by decide)

theorem owes_snoc_of_lt (h : place < diary.length) :
    Owes (diary ++ [moment]) place ↔ diary.Owes place := by
  have hended : ∀ earlier < place,
      (Marks (diary ++ [moment]) .ended earlier ↔ diary.Marks .ended earlier) :=
    fun earlier hlt => marks_snoc_of_lt (Nat.lt_trans hlt h)
  constructor
  · rintro ⟨request, hlt, hrequested, hcase⟩
    refine ⟨request, hlt, (marks_snoc_of_lt (Nat.lt_trans hlt h)).1 hrequested, ?_⟩
    exact hcase.imp (quiet_snoc_of_le (Nat.le_of_lt h)).1
      fun hnone earlier hearlier hmarks => hnone earlier hearlier ((hended _ hearlier).2 hmarks)
  · rintro ⟨request, hlt, hrequested, hcase⟩
    refine ⟨request, hlt, hrequested.snoc moment, ?_⟩
    exact hcase.imp (quiet_snoc_of_le (Nat.le_of_lt h)).2
      fun hnone earlier hearlier hmarks => hnone earlier hearlier ((hended _ hearlier).1 hmarks)

/-- What was asked for at an end was asked for in the cycle that ends, or the first one ends. -/
theorem Owes.of_snoc (h : Owes (diary ++ [moment]) diary.length) :
    (∃ request, diary.Unanswered request) ∨
      (∀ place, ¬ diary.Marks .ended place) ∧ ∃ request, diary.Marks .requested request := by
  obtain ⟨request, hlt, hrequested, hcase⟩ := h
  have hrequested := (marks_snoc_of_lt hlt).1 hrequested
  rcases hcase with hquiet | hnone
  · have hquiet := (quiet_snoc_of_le (Nat.le_refl _)).1 hquiet
    refine .inl ⟨request, hrequested, fun later hlater hbegan => ?_⟩
    exact absurd ((hquiet later hlater hbegan.lt_length).unique hbegan) (by decide)
  · exact .inr ⟨fun place hmarks => hnone place hmarks.lt_length (hmarks.snoc moment),
      request, hrequested⟩

end

/-! ### Between two cycles -/

section

variable {diary : Diary} {moment : Moment} {place other : Nat} {time otherTime : Int}

/-- The last cycle ends at one place only. -/
theorem LastEnded.eq (h : diary.LastEnded place time) (hended : diary.Marks .ended other)
    (hquiet : diary.Quiet (other + 1) diary.length) : other = place := by
  have hplace := marks_of_getElem? h.ended
  rcases Nat.lt_trichotomy other place with hlt | heq | hgt
  · exact absurd ((hquiet place hlt hplace.lt_length).unique hplace) (by decide)
  · exact heq
  · exact absurd ((h.quiet other hgt hended.lt_length).unique hended) (by decide)

theorem LastEnded.snoc (h : diary.LastEnded place time) (hmark : moment.mark = .requested) :
    LastEnded (diary ++ [moment]) place time where
  ended := by
    rw [getElem?_snoc_of_lt (marks_of_getElem? h.ended).lt_length]
    exact h.ended
  quiet := h.quiet.snoc hmark

/-- The cycle that has just ended is the last. -/
theorem lastEnded_snoc (diary : Diary) (time : Int) :
    LastEnded (diary ++ [⟨.ended, time⟩]) diary.length time where
  ended := getElem?_snoc_length
  quiet place hfirst hlast := by
    rw [List.length_append, List.length_singleton] at hlast
    omega

/-- No cycle is in progress before the first one begins. -/
theorem not_isOpen_of_quiet (h : diary.Quiet 0 place) : ¬ diary.IsOpen place := by
  rintro ⟨began, hlt, hbegan, -⟩
  exact absurd ((h began (Nat.zero_le _) hlt).unique hbegan) (by decide)

/-- No cycle is in progress between two. -/
theorem LastEnded.not_isOpen (h : diary.LastEnded place time) : ¬ diary.IsOpen diary.length := by
  rintro ⟨began, hlt, hbegan, hquiet⟩
  have hplace := marks_of_getElem? h.ended
  rcases Nat.lt_trichotomy began place with hbefore | rfl | hafter
  · exact absurd ((hquiet place hbefore hplace.lt_length).unique hplace) (by decide)
  · exact absurd (hbegan.unique hplace) (by decide)
  · exact absurd ((h.quiet began hafter hlt).unique hbegan) (by decide)

/-- The cycle that has just begun is in progress. -/
theorem isOpen_snoc (hmark : moment.mark = .began) :
    IsOpen (diary ++ [moment]) (diary ++ [moment]).length := by
  refine ⟨diary.length, by simp, marks_snoc.2 (.inr ⟨rfl, hmark⟩), fun place hfirst hlast => ?_⟩
  rw [List.length_append, List.length_singleton] at hlast
  omega

end

/-! ### What cycles are charged to -/

section

variable {rate : Span} {exact : Prop} {diary : Diary} {charge : Nat → Option Nat} {moment : Moment}

theorem follows_snoc_of_lt {last next : Nat} {lastTime nextTime : Int} (h : next < diary.length) :
    Follows (diary ++ [moment]) last lastTime next nextTime ↔
      diary.Follows last lastTime next nextTime := by
  constructor
  · rintro ⟨hended, hlt, hquiet, hbegan⟩
    rw [getElem?_snoc_of_lt (Nat.lt_trans hlt h)] at hended
    rw [getElem?_snoc_of_lt h] at hbegan
    exact ⟨hended, hlt, (quiet_snoc_of_le (Nat.le_of_lt h)).1 hquiet, hbegan⟩
  · rintro ⟨hended, hlt, hquiet, hbegan⟩
    exact ⟨(getElem?_snoc_of_lt (Nat.lt_trans hlt h)).trans hended, hlt,
      (quiet_snoc_of_le (Nat.le_of_lt h)).2 hquiet, (getElem?_snoc_of_lt h).trans hbegan⟩

theorem charged_nil (rate : Span) (exact : Prop) : Charged rate exact [] fun _ => none where
  request h := absurd h (by simp)
  ordered h := absurd h (by simp)
  next h := absurd h (by simp)
  caused h := absurd h.lt_length (by simp)
  prompt _ _ _ _ _ _ h := absurd (marks_of_getElem? h.began).lt_length (by simp)

/-- A diary in which no other cycle begins is charged as before. -/
theorem Charged.snoc (h : Charged rate exact diary charge) (hmark : moment.mark ≠ .began) :
    Charged rate exact (diary ++ [moment]) charge where
  request hcharge :=
    let ⟨hlt, hrequested, hbegan⟩ := h.request hcharge
    ⟨hlt, hrequested.snoc moment, hbegan.snoc moment⟩
  ordered := h.ordered
  next hcharge hopen between hafter hbefore := by
    obtain ⟨hlt, hrequested, hbegan⟩ := h.request hcharge
    rw [isOpen_snoc_of_le (Nat.le_of_lt hrequested.lt_length)] at hopen
    rw [marks_snoc_of_lt (Nat.lt_trans hbefore hbegan.lt_length)]
    exact h.next hcharge hopen between hafter hbefore
  caused {began} hbegan := by
    have hbegan := (marks_snoc.1 hbegan).resolve_right fun hlast => hmark hlast.2
    rcases h.caused hbegan with hfirst | hcharged | ⟨last, lastTime, time, hfollows, htime⟩
    · exact .inl ((quiet_snoc_of_le (Nat.le_of_lt hbegan.lt_length)).2 hfirst)
    · exact .inr (.inl hcharged)
    · exact .inr (.inr ⟨last, lastTime, time, (follows_snoc_of_lt hbegan.lt_length).2 hfollows,
        htime⟩)
  prompt hexact {last lastTime began time} howes hfollows := by
    have hbegan := (marks_snoc.1 (marks_of_getElem? hfollows.began)).resolve_right
      fun hlast => hmark hlast.2
    have hlast := Nat.lt_trans hfollows.lt hbegan.lt_length
    exact h.prompt hexact ((owes_snoc_of_lt hlast).1 howes)
      ((follows_snoc_of_lt hbegan.lt_length).1 hfollows)

end

end Diary

namespace World

/-! ### Keeping a diary -/

section

variable [FallibleStore σ]

/-- **What an event enters into the diary.** -/
def moment? (world : World σ) (event : Event σ) : Option Moment :=
  match event with
  | .requestRefresh => some ⟨.requested, world.clock⟩
  | .goOn who =>
    (Mark.turned? (world.isUnderWay who) ((world.after event).isUnderWay who)).map
      (⟨·, world.clock⟩)
  | _ => none

/-- **A course of events** from one world to another, with the diary that was kept on the way. -/
inductive Account (allowed : World σ → Event σ → Prop) (start : World σ) :
    Diary → World σ → Prop where
  | here : Account allowed start [] start
  | next {diary : Diary} {world : World σ} {event : Event σ}
    (h : Account allowed start diary world) (hallowed : allowed world event)
    (hadmits : world.Admits event) :
    Account allowed start (diary ++ (world.moment? event).toList) (world.after event)

variable {allowed : World σ → Event σ → Prop} {start world : World σ}

theorem Account.course {diary : Diary} (h : Account allowed start diary world) :
    ∃ log, Course allowed start log world := by
  induction h with
  | here => exact ⟨_, .here⟩
  | next _ hallowed hadmits ih =>
    obtain ⟨log, hcourse⟩ := ih
    exact ⟨_, hcourse.next hallowed hadmits⟩

/-- Every course has a diary. -/
theorem Course.exists_account {log : List Attempt} (h : Course allowed start log world) :
    ∃ diary, Account allowed start diary world := by
  induction h with
  | here => exact ⟨_, .here⟩
  | next _ hallowed hadmits ih =>
    obtain ⟨diary, haccount⟩ := ih
    exact ⟨_, haccount.next hallowed hadmits⟩

end

end World

end DeviceScope
