import DeviceScope.Proofs.Notifier.Reading
import Mathlib.Data.Finset.Card
import Mathlib.Data.List.Induction

/-!
# What subscribers can rely on

A notifier is used by its subscribers and by those who send (`Notifier.Use`), in any order. One that
has subscribed and has remained a subscriber (`Notifier.Remains`) has been told of a front part of
what was sent since, and the rest of it is still to come (`Notifier.Stands`). This is preserved by
one more use (`Notifier.Stands.serve`), and so it is the case at any time
(`Notifier.exists_stands`).

From this follows all that a subscriber can rely on (`Notifier.Delivery`): it receives messages in
their order and none of them twice, it is told the number of those it misses, it misses none as long
as it reads in time, and after a miss it goes on with the oldest one that is kept. The number of
subscribers that a message is delivered to is the number of those that have subscribed and have
remained subscribers (`Notifier.notify_fst`).
-/

namespace DeviceScope.Notifier

open Receipt (changes totalMissed Tells)

/-- What a notifier is used for: a subscriber does something, or a change is sent. -/
inductive Use where
  | act (act : Act)
  | notify (change : Change)
  deriving DecidableEq

/-- The change that is sent, if one is. -/
def Use.change? : Use → Option Change
  | .act _ => none
  | .notify message => some message

/-- The changes that are sent in the course of uses. -/
def sentIn (uses : List Use) : List Change := uses.filterMap Use.change?

def serve (notifier : Notifier) : Use → Notifier
  | .act act => notifier.after act
  | .notify change => (notifier.notify change).2

/-- The notifier after uses one after another. -/
def serveAll (notifier : Notifier) (uses : List Use) : Notifier := uses.foldl serve notifier

/-- What is received under a name with one use. -/
def receipt? (notifier : Notifier) (name : String) (use : Use) : Option Receipt :=
  if use = .act (.receive name) then (notifier.receive name).1 else none

/-- What is received under a name in the course of uses. -/
def received (notifier : Notifier) (name : String) : List Use → List Receipt
  | [] => []
  | use :: rest => (notifier.receipt? name use).toList ++ (notifier.serve use).received name rest

/-- **The number of messages that one has still to receive, or to be told of**: those that reading
on until there is nothing left would bring. -/
def unread (notifier : Notifier) (name : String) : Nat :=
  let coming := (notifier.receiveAll name none).1
  (changes coming).length + totalMissed coming

/-- **A subscriber remains one** in the course of uses: nobody subscribes in its place, and it is
not unsubscribed. -/
def Remains (name : String) (uses : List Use) : Prop :=
  .act (.subscribe name) ∉ uses ∧ .act (.unsubscribe name) ∉ uses

/-- **Under a name there is a subscriber** after uses: one has subscribed and has remained one. -/
def Subscribed (uses : List Use) (name : String) : Prop :=
  ∃ before since, uses = before ++ .act (.subscribe name) :: since ∧ Remains name since

variable {notifier start : Notifier} {messages dealt later : List Change} {name : String}
  {uses : List Use} {use : Use}

/-! ### One use more -/

@[simp] theorem sentIn_append (uses others : List Use) :
    sentIn (uses ++ others) = sentIn uses ++ sentIn others :=
  List.filterMap_append

@[simp] theorem sentIn_singleton (use : Use) : sentIn [use] = use.change?.toList := by
  cases use <;> rfl

@[simp] theorem serveAll_append (notifier : Notifier) (uses others : List Use) :
    notifier.serveAll (uses ++ others) = (notifier.serveAll uses).serveAll others :=
  List.foldl_append

@[simp] theorem serveAll_singleton (notifier : Notifier) (use : Use) :
    notifier.serveAll [use] = notifier.serve use := rfl

theorem received_snoc (notifier : Notifier) (name : String) (uses : List Use) (use : Use) :
    notifier.received name (uses ++ [use]) =
      notifier.received name uses ++ ((notifier.serveAll uses).receipt? name use).toList := by
  induction uses generalizing notifier with
  | nil => exact List.append_nil _
  | cons first rest ih =>
    rw [List.cons_append, received, ih, received, List.append_assoc]
    rfl

theorem remains_append {others : List Use} :
    Remains name (uses ++ others) ↔ Remains name uses ∧ Remains name others := by
  unfold Remains
  rw [List.mem_append, List.mem_append, not_or, not_or]
  tauto

theorem remains_singleton :
    Remains name [use] ↔ use ≠ .act (.subscribe name) ∧ use ≠ .act (.unsubscribe name) := by
  unfold Remains
  rw [List.mem_singleton, List.mem_singleton, ne_comm, ne_comm (a := use)]

/-- Either something is sent, or a use changes nothing but the places of the subscribers. -/
theorem serve_cases (notifier : Notifier) (use : Use) :
    (use.change? = none ∧ ∃ cursors, notifier.serve use = { notifier with cursors }) ∨
      ∃ change, use.change? = some change ∧ notifier.serve use = notifier.send change := by
  cases use with
  | notify change => exact .inr ⟨change, rfl, rfl⟩
  | act act =>
    refine .inl ⟨rfl, ?_⟩
    cases act with
    | subscribe other => exact ⟨_, rfl⟩
    | unsubscribe other => exact ⟨_, rfl⟩
    | receive other =>
      rcases receive_snd notifier other with heq | ⟨cursor, -, heq⟩
      · exact ⟨notifier.cursors, heq⟩
      · exact ⟨_, heq⟩

theorem capacity_serve (notifier : Notifier) (use : Use) :
    (notifier.serve use).capacity = notifier.capacity := by
  rcases serve_cases notifier use with ⟨-, cursors, heq⟩ | ⟨change, -, heq⟩
  · rw [heq]
  · rw [heq, send]
    split <;> rfl

theorem capacity_serveAll (notifier : Notifier) (uses : List Use) :
    (notifier.serveAll uses).capacity = notifier.capacity := by
  induction uses generalizing notifier with
  | nil => rfl
  | cons use rest ih => exact (ih (notifier.serve use)).trans (capacity_serve notifier use)

/-- **What is sent is kept**, if there is somebody to receive it. -/
theorem Keeps.serve (h : notifier.Keeps messages) (hlistened : notifier.cursors.isEmpty = false)
    (use : Use) : (notifier.serve use).Keeps (messages ++ use.change?.toList) := by
  rcases serve_cases notifier use with ⟨hnone, cursors, heq⟩ | ⟨change, hsome, heq⟩
  · rw [hnone, heq, Option.toList_none, List.append_nil]
    exact h.of_cursors cursors
  · rw [hsome, heq]
    exact h.send hlistened change

/-- What is sent is kept, or it is dropped because there is nobody to receive it. -/
theorem exists_keeps (capacity : Nat) (uses : List Use) :
    ∃ messages, ((ofCapacity capacity).serveAll uses).Keeps messages := by
  induction uses using List.reverseRecOn with
  | nil => exact ⟨[], keeps_ofCapacity capacity⟩
  | append_singleton uses use ih =>
    obtain ⟨messages, hkeeps⟩ := ih
    rw [serveAll_append, serveAll_singleton]
    cases hempty : ((ofCapacity capacity).serveAll uses).cursors.isEmpty with
    | false => exact ⟨_, hkeeps.serve hempty use⟩
    | true =>
      rcases serve_cases ((ofCapacity capacity).serveAll uses) use with
        ⟨-, cursors, heq⟩ | ⟨change, -, heq⟩
      · rw [heq]
        exact ⟨messages, hkeeps.of_cursors cursors⟩
      · rw [heq, send, hempty]
        exact ⟨messages, hkeeps⟩

/-- The place of a subscriber is changed by nobody else. -/
theorem get?_cursors_serve (hremains : Remains name [use]) (hother : use ≠ .act (.receive name)) :
    (notifier.serve use).cursors.get? name = notifier.cursors.get? name := by
  rw [remains_singleton] at hremains
  cases use with
  | notify change =>
    show (notifier.send change).cursors.get? name = _
    rw [send]
    split <;> rfl
  | act act =>
    cases act with
    | subscribe other =>
      have hne : name ≠ other := fun heq => hremains.1 (by rw [heq])
      exact Ledger.get?_insert_of_ne _ _ hne
    | unsubscribe other =>
      have hne : name ≠ other := fun heq => hremains.2 (by rw [heq])
      exact (Ledger.get?_erase _ _ _).trans (if_neg hne)
    | receive other =>
      have hne : name ≠ other := fun heq => hother (by rw [heq])
      show (notifier.receive other).2.cursors.get? name = _
      rcases receive_snd notifier other with heq | ⟨cursor, -, heq⟩
      · rw [heq]
      · rw [heq]
        exact Ledger.get?_insert_of_ne _ _ hne

theorem Awaits.isEmpty_cursors {coming : List Change} (h : notifier.Awaits name coming) :
    notifier.cursors.isEmpty = false := by
  obtain ⟨past, -, hcursor⟩ := h
  exact Ledger.isEmpty_eq_false_of_get? hcursor

/-- **What others do** adds to what is still to come, and takes nothing from it. -/
theorem Awaits.serve {coming : List Change} (h : notifier.Awaits name coming)
    (hremains : Remains name [use]) (hother : use ≠ .act (.receive name)) :
    (notifier.serve use).Awaits name (coming ++ use.change?.toList) := by
  have hlistened := h.isEmpty_cursors
  obtain ⟨past, hkeeps, hcursor⟩ := h
  refine ⟨past, ?_, (get?_cursors_serve hremains hother).trans hcursor⟩
  rw [← List.append_assoc]
  exact hkeeps.serve hlistened use

/-- For a new subscriber nothing is still to come. -/
theorem awaits_subscribe (capacity : Nat) (before : List Use) (name : String) :
    ((ofCapacity capacity).serveAll (before ++ [.act (.subscribe name)])).Awaits name [] := by
  obtain ⟨messages, hkeeps⟩ := exists_keeps capacity before
  rw [serveAll_append, serveAll_singleton]
  refine ⟨messages, ?_, ?_⟩
  · rw [List.append_nil]
    exact hkeeps.of_cursors _
  · rw [← hkeeps.sent]
    exact Ledger.get?_insert_self _ _ _

/-! ### Where a subscriber stands -/

/-- **Where a subscriber stands** after uses since it has subscribed: some of what was sent it has
been told of, and the rest is still to come. -/
structure Stands (start : Notifier) (name : String) (uses : List Use) (dealt later : List Change) :
    Prop where
  split : sentIn uses = dealt ++ later
  told : Tells (start.received name uses) dealt
  awaits : (start.serveAll uses).Awaits name later
  /-- Right after a report it has not caught up: as much is still to come as there is room for. -/
  behind : ∀ missed, (start.received name uses).getLast? = some (.lagged missed) →
    start.capacity ≤ later.length

theorem stands_nil (h : start.Awaits name []) : Stands start name [] [] [] :=
  ⟨rfl, .nothing, h, fun _ hlast => absurd hlast (by simp [received])⟩

/-- **One use more.** -/
theorem Stands.serve (h : Stands start name uses dealt later) (hremains : Remains name [use]) :
    ∃ dealt' later', Stands start name (uses ++ [use]) dealt' later' := by
  have hsent : sentIn (uses ++ [use]) = dealt ++ (later ++ use.change?.toList) := by
    rw [sentIn_append, sentIn_singleton, h.split, List.append_assoc]
  have hreceived := received_snoc start name uses use
  by_cases hown : use = .act (.receive name)
  · -- The subscriber reads: what it receives passes from the messages to come to those dealt with.
    subst hown
    obtain ⟨left, htakes, hawaits⟩ := h.awaits.receive
    obtain ⟨told, hlater, htells⟩ := htakes.tells
    rw [receipt?, if_pos rfl] at hreceived
    refine ⟨dealt ++ told, left, ⟨?_, ?_, ?_, ?_⟩⟩
    · rw [hsent, hlater, Use.change?, Option.toList_none, List.append_nil, List.append_assoc]
    · rw [hreceived]
      exact h.told.append htells
    · rw [serveAll_append]
      exact hawaits
    · intro missed hlast
      rw [hreceived] at hlast
      rw [capacity_serveAll] at htakes
      generalize ((start.serveAll uses).receive name).1 = receipt? at htakes hlast
      cases htakes with
      | nothing =>
        rw [Option.toList_none, List.append_nil] at hlast
        exact h.behind missed hlast
      | oldest _ => simp at hlast
      | report _ hfull => exact Nat.le_of_eq hfull.symm
  · -- It does not: what is sent is still to come for it.
    rw [receipt?, if_neg hown, Option.toList_none, List.append_nil] at hreceived
    refine ⟨dealt, later ++ use.change?.toList, ⟨hsent, ?_, ?_, ?_⟩⟩
    · rw [hreceived]
      exact h.told
    · rw [serveAll_append]
      exact h.awaits.serve hremains hown
    · intro missed hlast
      rw [hreceived] at hlast
      rw [List.length_append]
      exact Nat.le_add_right_of_le (h.behind missed hlast)

/-- **Any uses.** -/
theorem exists_stands (h : start.Awaits name []) (hremains : Remains name uses) :
    ∃ dealt later, Stands start name uses dealt later := by
  induction uses using List.reverseRecOn with
  | nil => exact ⟨[], [], stands_nil h⟩
  | append_singleton uses use ih =>
    rw [remains_append] at hremains
    obtain ⟨dealt, later, hstands⟩ := ih hremains.1
    exact hstands.serve hremains.2

/-! ### What follows for the subscriber -/

/-- What reading on would bring is all that is still to come. -/
theorem Awaits.unread_eq {coming : List Change} (h : notifier.Awaits name coming) :
    notifier.unread name = coming.length :=
  h.receiveAll.length_eq

/-- A report comes to one that has fallen behind by more than there is room for. -/
theorem Awaits.exists_of_lagged {coming : List Change} {missed : Nat}
    (h : notifier.Awaits name coming)
    (hreport : (notifier.receive name).1 = some (.lagged missed)) :
    ∃ lost retained, coming = lost ++ retained ∧ lost ≠ [] ∧
      retained.length = notifier.capacity ∧ (notifier.receive name).2.Awaits name retained := by
  obtain ⟨left, htakes, hleft⟩ := h.receive
  rw [hreport] at htakes
  generalize hreceipt : some (Receipt.lagged missed) = receipt? at htakes
  cases htakes with
  | nothing => exact absurd hreceipt (by simp)
  | oldest _ => exact absurd hreceipt (by simp)
  | @report lost _ hlost hfull => exact ⟨lost, left, rfl, hlost, hfull, hleft⟩

/-- If as much as there is room for is still to come, this is what is kept. -/
theorem Awaits.kept_eq {lost retained : List Change} (h : notifier.Awaits name (lost ++ retained))
    (hfull : retained.length = notifier.capacity) : notifier.kept = retained.reverse := by
  obtain ⟨past, hkeeps, -⟩ := h
  rw [hkeeps.kept, ← List.append_assoc, List.reverse_append, ← hfull, ← List.length_reverse,
    List.take_left]

/-- One for which as much is still to come as there is room for, or more, goes on with the oldest
message that is kept, unless it is first reported a loss. -/
theorem Awaits.receive_of_behind {coming : List Change} (h : notifier.Awaits name coming)
    (hpositive : 0 < notifier.capacity) (hbehind : notifier.capacity ≤ coming.length) :
    ∃ oldest, notifier.kept.getLast? = some oldest ∧
      ((notifier.receive name).1 = some (.change oldest) ∨
        ∃ more, (notifier.receive name).1 = some (.lagged more)) := by
  obtain ⟨left, htakes, -⟩ := h.receive
  rcases room_or_lag notifier.capacity coming with hroom | ⟨lost, retained, rfl, hlost, hfull⟩
  · obtain ⟨oldest, rest, rfl⟩ :=
      List.exists_cons_of_length_pos (Nat.lt_of_lt_of_le hpositive hbehind)
    have hkept : notifier.kept = (oldest :: rest).reverse :=
      (List.nil_append (oldest :: rest) ▸ h).kept_eq (Nat.le_antisymm hroom hbehind)
    refine ⟨oldest, ?_, .inl (htakes.unique (.oldest hroom)).1⟩
    rw [hkept, List.getLast?_reverse]
    rfl
  · obtain ⟨oldest, rest, rfl⟩ := List.exists_cons_of_length_pos (hfull ▸ hpositive)
    refine ⟨oldest, ?_, .inr ⟨lost.length, (htakes.unique (.report hlost hfull)).1⟩⟩
    rw [h.kept_eq hfull, List.getLast?_reverse]
    rfl

/-- **One that reads in time is reported no loss.** -/
theorem lagged_not_mem_received (h : start.Awaits name []) (hremains : Remains name uses)
    (htimely : ∀ earlier, earlier <+: uses →
      (start.serveAll earlier).unread name ≤ start.capacity) (missed : Nat) :
    .lagged missed ∉ start.received name uses := by
  induction uses using List.reverseRecOn with
  | nil => exact List.not_mem_nil
  | append_singleton uses use ih =>
    rw [remains_append] at hremains
    have hbefore : uses <+: uses ++ [use] := List.prefix_append uses [use]
    have hnone := ih hremains.1 fun earlier hearlier => htimely earlier (hearlier.trans hbefore)
    rw [received_snoc, List.mem_append, not_or]
    refine ⟨hnone, fun hmem => ?_⟩
    -- A report now would mean that too much was still to come just before.
    obtain ⟨dealt, later, hstands⟩ := exists_stands h hremains.1
    have hroom := htimely uses hbefore
    rw [hstands.awaits.unread_eq] at hroom
    rw [Option.mem_toList, receipt?] at hmem
    split at hmem
    · obtain ⟨lost, retained, rfl, hlost, hfull, -⟩ := hstands.awaits.exists_of_lagged hmem
      have hpositive := List.length_pos_iff.2 hlost
      rw [List.length_append, hfull, capacity_serveAll] at hroom
      omega
    · exact absurd hmem (by simp)

/-- **What a subscriber can rely on** after uses since it has subscribed. -/
structure Delivery (start : Notifier) (name : String) (uses : List Use) : Prop where
  /-- What it has received is some of what was sent, in the same order and nothing of it twice. -/
  in_order : (changes (start.received name uses)).Sublist (sentIn uses)
  /-- What it has received, what was reported lost to it, and what it has still to receive or to be
  told of make up the number of messages that were sent. -/
  accounted : (changes (start.received name uses)).length +
    totalMissed (start.received name uses) + (start.serveAll uses).unread name =
      (sentIn uses).length
  /-- Together with what reading on would bring its receipts tell of all messages one by one. -/
  told : Tells (start.received name uses ++ ((start.serveAll uses).receiveAll name none).1)
    (sentIn uses)
  /-- If there was room at any time for all that it had not read, it was reported no loss. -/
  timely : (∀ earlier, earlier <+: uses →
      (start.serveAll earlier).unread name ≤ start.capacity) →
    ∀ missed, .lagged missed ∉ start.received name uses
  /-- If it is now reported a loss, it goes on with the oldest message that is kept, and receives
  all that are kept: the newest of those that were sent, as many as there is room for. -/
  resumed : ∀ missed, ((start.serveAll uses).receive name).1 = some (.lagged missed) →
    ∃ lost retained, sentIn uses = lost ++ retained ∧ retained.length = start.capacity ∧
      (start.serveAll uses).kept = retained.reverse ∧
      (((start.serveAll uses).receive name).2.receiveAll name none).1 = retained.map .change
  /-- If the last that it has received is the report of a loss, and whatever has been sent since,
  the next is the oldest message that is kept, or else the report of another loss. -/
  resumes : ∀ missed, (start.received name uses).getLast? = some (.lagged missed) →
    ∃ oldest, (start.serveAll uses).kept.getLast? = some oldest ∧
      (((start.serveAll uses).receive name).1 = some (.change oldest) ∨
        ∃ more, ((start.serveAll uses).receive name).1 = some (.lagged more))

/-- A subscriber that can receive anything at all can rely on its notifier. -/
theorem Stands.delivery (h : Stands start name uses dealt later) (hstart : start.Awaits name [])
    (hremains : Remains name uses) (hpositive : 0 < start.capacity) :
    Delivery start name uses where
  in_order := by
    rw [h.split]
    exact h.told.changes_sublist.trans (List.sublist_append_left dealt later)
  accounted := by
    rw [h.told.length_eq, h.awaits.unread_eq, h.split, List.length_append]
  told := by
    rw [h.split]
    exact h.told.append h.awaits.receiveAll
  timely htimely := lagged_not_mem_received hstart hremains htimely
  resumed missed hreport := by
    obtain ⟨lost, retained, rfl, -, hfull, hleft⟩ := h.awaits.exists_of_lagged hreport
    refine ⟨dealt ++ lost, retained, ?_, ?_, h.awaits.kept_eq hfull, ?_⟩
    · rw [h.split, List.append_assoc]
    · rw [hfull, capacity_serveAll]
    · exact hleft.receiveAll_of_room (by rw [capacity_receive]; exact Nat.le_of_eq hfull)
  resumes missed hlast := by
    have hbehind := h.behind missed hlast
    rw [← capacity_serveAll start uses] at hbehind hpositive
    exact h.awaits.receive_of_behind hpositive hbehind

/-! ### Who the subscribers are -/

theorem contains_cursors_receive (notifier : Notifier) (name other : String) :
    (notifier.receive other).2.cursors.contains name = notifier.cursors.contains name := by
  rcases receive_snd notifier other with heq | ⟨cursor, hcontains, heq⟩
  · rw [heq]
  · rw [heq]
    show (notifier.cursors.insert other cursor).contains name = _
    rw [Ledger.contains_insert]
    by_cases hname : name = other
    · rw [hname, hcontains, Bool.or_true]
    · rw [decide_eq_false hname, Bool.false_or]

theorem subscribed_snoc :
    Subscribed (uses ++ [use]) name ↔
      use = .act (.subscribe name) ∨ use ≠ .act (.unsubscribe name) ∧ Subscribed uses name := by
  constructor
  · rintro ⟨before, since, hsplit, hremains⟩
    rcases List.eq_nil_or_concat' since with rfl | ⟨since, last, rfl⟩
    · obtain ⟨-, hlast⟩ := List.append_inj' hsplit rfl
      exact .inl (List.cons.inj hlast).1
    · rw [← List.cons_append, ← List.append_assoc] at hsplit
      obtain ⟨rfl, hlast⟩ := List.append_inj' hsplit rfl
      obtain rfl := (List.cons.inj hlast).1
      rw [remains_append, remains_singleton] at hremains
      exact .inr ⟨hremains.2.2, before, since, rfl, hremains.1⟩
  · rintro (rfl | ⟨hstays, before, since, rfl, hremains⟩)
    · exact ⟨uses, [], rfl, List.not_mem_nil, List.not_mem_nil⟩
    · by_cases hnew : use = .act (.subscribe name)
      · subst hnew
        exact ⟨_, [], rfl, List.not_mem_nil, List.not_mem_nil⟩
      · refine ⟨before, since ++ [use], ?_, ?_⟩
        · rw [List.append_assoc, List.cons_append]
        · exact remains_append.2 ⟨hremains, remains_singleton.2 ⟨hnew, hstays⟩⟩

/-- **A name has a place exactly if there is a subscriber under it.** -/
theorem contains_cursors_iff (capacity : Nat) :
    ((ofCapacity capacity).serveAll uses).cursors.contains name = true ↔ Subscribed uses name := by
  induction uses using List.reverseRecOn with
  | nil =>
    constructor
    · intro h
      exact absurd h (by simp [serveAll, ofCapacity])
    · rintro ⟨before, since, hsplit, -⟩
      exact absurd hsplit (by simp)
  | append_singleton uses use ih =>
    rw [serveAll_append, serveAll_singleton, subscribed_snoc, ← ih]
    -- From here on it matters only what one use does to the subscribers.
    generalize (ofCapacity capacity).serveAll uses = notifier
    cases use with
    | notify change =>
      have hsame : (notifier.serve (.notify change)).cursors = notifier.cursors := by
        show (notifier.send change).cursors = _
        rw [send]
        split <;> rfl
      rw [hsame]
      simp
    | act act =>
      cases act with
      | subscribe other =>
        show (notifier.cursors.insert other notifier.sent).contains name = true ↔ _
        rw [Ledger.contains_insert, Bool.or_eq_true, decide_eq_true_iff, eq_comm]
        simp
      | unsubscribe other =>
        show (notifier.cursors.erase other).contains name = true ↔ _
        rw [Ledger.contains_erase, Bool.and_eq_true, decide_eq_true_iff, ne_comm]
        simp
      | receive other =>
        show (notifier.receive other).2.cursors.contains name = true ↔ _
        rw [contains_cursors_receive]
        simp

/-- **A message is delivered to all subscribers**, and their number is told. -/
theorem notify_fst (capacity : Nat) (uses : List Use) (change : Change) :
    ∃ names : Finset String, (∀ name, name ∈ names ↔ Subscribed uses name) ∧
      (((ofCapacity capacity).serveAll uses).notify change).1 = names.card := by
  refine ⟨((ofCapacity capacity).serveAll uses).cursors.keys.toFinset, fun name => ?_, ?_⟩
  · rw [List.mem_toFinset, Ledger.mem_keys_iff, contains_cursors_iff]
  · rw [List.toFinset_card_of_nodup (Ledger.nodup_keys _)]
    exact List.length_map _ |>.symm

/-! ### The capacity -/

/-- **The capacity is rounded up** to the least power of two. -/
theorem roundUp_least (n : Nat) (hpositive : 0 < n) : (roundUp n).isPowerOfTwo ∧ n ≤ roundUp n ∧
    ∀ other, other.isPowerOfTwo → n ≤ other → roundUp n ≤ other := by
  unfold roundUp
  split
  · exact ⟨⟨0, rfl⟩, by omega, fun other _ hle => by omega⟩
  · have hlog : 2 ^ (n - 1).log2 ≤ n - 1 := Nat.log2_self_le (by omega)
    have hnext : n - 1 < 2 ^ ((n - 1).log2 + 1) := Nat.lt_log2_self
    refine ⟨⟨_, rfl⟩, by show n ≤ 2 ^ ((n - 1).log2 + 1); omega, ?_⟩
    rintro other ⟨exponent, rfl⟩ hle
    have hlt : 2 ^ (n - 1).log2 < 2 ^ exponent := by omega
    exact Nat.pow_le_pow_right (by decide) ((Nat.pow_lt_pow_iff_right (by decide)).1 hlt)

/-! ### Delivery -/

/-- **No message is lost to a subscriber without its being told.** A notifier keeps as many of the
newest messages as the least power of two that is not less than the capacity it was made with, nor
than one. However it is used, each subscriber can rely on it from the time it subscribes
(`Delivery`), and sending tells the number of subscribers there are. -/
theorem changes_are_delivered_or_reported (capacity : Nat) :
    ((ofCapacity capacity).capacity.isPowerOfTwo ∧ max capacity 1 ≤ (ofCapacity capacity).capacity ∧
      ∀ other, other.isPowerOfTwo → max capacity 1 ≤ other →
        (ofCapacity capacity).capacity ≤ other) ∧
    (∀ before name since, Remains name since →
      Delivery ((ofCapacity capacity).serveAll (before ++ [.act (.subscribe name)])) name since) ∧
    ∀ uses change, ∃ names : Finset String, (∀ name, name ∈ names ↔ Subscribed uses name) ∧
      (((ofCapacity capacity).serveAll uses).notify change).1 = names.card := by
  have hcapacity := roundUp_least (max capacity 1) (Nat.le_max_right capacity 1)
  refine ⟨hcapacity, fun before name since hremains => ?_, notify_fst capacity⟩
  have hstart := awaits_subscribe capacity before name
  obtain ⟨dealt, later, hstands⟩ := exists_stands hstart hremains
  refine hstands.delivery hstart hremains ?_
  rw [capacity_serveAll]
  exact Nat.lt_of_lt_of_le (Nat.le_max_right capacity 1) hcapacity.2.1

/-- With room for two messages. The subscriber misses one of three, reads one, and then misses one
of three others again. Of the five it has received one, two were reported, and two are to come. -/
theorem changes_are_delivered_or_reported_after_two_losses :
    let sends (id : String) : Use := .notify (.removed id)
    let reads : Use := .act (.receive "a")
    let before : List Use := [.act (.subscribe "b")]
    let since : List Use :=
      [sends "1", sends "2", sends "3", reads, reads, sends "4", sends "5", reads]
    let start := (ofCapacity 2).serveAll (before ++ [.act (.subscribe "a")])
    Remains "a" since ∧
      start.received "a" since = [.lagged 1, .change (.removed "2"), .lagged 1] ∧
      1 + 2 + (start.serveAll since).unread "a" = 5 ∧
      (∃ oldest, (start.serveAll since).kept.getLast? = some oldest ∧ oldest = .removed "4" ∧
        (((start.serveAll since).receive "a").1 = some (.change oldest) ∨
          ∃ more, ((start.serveAll since).receive "a").1 = some (.lagged more))) ∧
      ∃ names : Finset String,
        (∀ name, name ∈ names ↔ Subscribed before name) ∧ names.card = 1 := by
  intro sends reads before since start
  have hremains : Remains "a" since := ⟨by decide, by decide⟩
  have hreceived : start.received "a" since = [.lagged 1, .change (.removed "2"), .lagged 1] := by
    decide
  obtain ⟨-, hdelivery, hnotify⟩ := changes_are_delivered_or_reported 2
  have h := hdelivery before "a" since hremains
  refine ⟨hremains, hreceived, ?_, ?_, ?_⟩
  · have haccounted := h.accounted
    rw [hreceived] at haccounted
    exact haccounted
  · obtain ⟨oldest, holdest, hnext⟩ := h.resumes 1 (by rw [hreceived]; rfl)
    refine ⟨oldest, holdest, ?_, hnext⟩
    have hkept : (start.serveAll since).kept.getLast? = some (.removed "4") := by decide
    exact Option.some.inj (holdest.symm.trans hkept)
  · obtain ⟨names, hnames, hcount⟩ := hnotify before (.removed "0")
    exact ⟨names, hnames, hcount.symm.trans (by decide)⟩

end DeviceScope.Notifier
