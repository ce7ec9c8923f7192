import DeviceScope.Notifier
import DeviceScope.Proofs.Ledger

/-!
# Reading from a notifier

A notifier keeps the newest of the messages that were sent (`Notifier.Keeps`), and for a subscriber
some of them, the newest again, are still to come (`Notifier.Awaits`). Receiving takes the oldest of
these if they are all kept; otherwise it takes those that are not, all at once, as a number
(`Notifier.Takes`). So what one receives tells of the messages one after another, whether as
themselves or as part of a number (`Receipt.Tells`), and reading on until there is nothing left
tells of all that are still to come (`Notifier.Awaits.receiveAll`).
-/

namespace DeviceScope

/-! ### Receipts -/

namespace Receipt

/-- The change that is received, if it is one. -/
def change? : Receipt → Option Change
  | .change message => some message
  | .lagged _ | .closed => none

/-- The number of messages that are reported lost. -/
def missed : Receipt → Nat
  | .lagged missed => missed
  | .change _ | .closed => 0

/-- The changes among receipts. -/
def changes (receipts : List Receipt) : List Change := receipts.filterMap change?

/-- The number of messages that are reported lost in all of the receipts. -/
def totalMissed (receipts : List Receipt) : Nat :=
  receipts.foldr (fun receipt sum => receipt.missed + sum) 0

theorem changes_append (receipts others : List Receipt) :
    changes (receipts ++ others) = changes receipts ++ changes others :=
  List.filterMap_append

theorem totalMissed_append (receipts others : List Receipt) :
    totalMissed (receipts ++ others) = totalMissed receipts + totalMissed others := by
  induction receipts with
  | nil => exact (Nat.zero_add _).symm
  | cons receipt rest ih =>
    show receipt.missed + totalMissed (rest ++ others) = receipt.missed + totalMissed rest + _
    rw [ih, Nat.add_assoc]

/-- **Receipts tell of messages**, the first receipt of the first messages: each message is received
itself, or is one of those whose number is reported. -/
inductive Tells : List Receipt → List Change → Prop where
  | nothing : Tells [] []
  | change {receipts : List Receipt} {messages : List Change} (h : Tells receipts messages)
    (change : Change) : Tells (receipts ++ [.change change]) (messages ++ [change])
  | lagged {receipts : List Receipt} {messages : List Change} (h : Tells receipts messages)
    (lost : List Change) : Tells (receipts ++ [.lagged lost.length]) (messages ++ lost)

namespace Tells

variable {receipts others : List Receipt} {messages rest : List Change}

theorem append (h : Tells receipts messages) (hrest : Tells others rest) :
    Tells (receipts ++ others) (messages ++ rest) := by
  induction hrest with
  | nothing => rwa [List.append_nil, List.append_nil]
  | change _ change ih =>
    rw [← List.append_assoc, ← List.append_assoc]
    exact ih.change change
  | lagged _ lost ih =>
    rw [← List.append_assoc, ← List.append_assoc]
    exact ih.lagged lost

theorem single (change : Change) : Tells [.change change] [change] := .change .nothing change

theorem report (lost : List Change) : Tells [.lagged lost.length] lost := .lagged .nothing lost

/-- What is received is some of the messages, in their order and each of them once. -/
theorem changes_sublist (h : Tells receipts messages) : (changes receipts).Sublist messages := by
  induction h with
  | nothing => exact .slnil
  | change _ change ih =>
    rw [changes_append]
    exact ih.append (List.Sublist.refl [change])
  | lagged _ lost ih =>
    rw [changes_append]
    exact ih.append (List.nil_sublist lost)

/-- Every message is received or reported. -/
theorem length_eq (h : Tells receipts messages) :
    (changes receipts).length + totalMissed receipts = messages.length := by
  induction h with
  | nothing => rfl
  | change _ change ih =>
    rw [changes_append, totalMissed_append, List.length_append, List.length_append, ← ih]
    show _ + 1 + (_ + 0) = _ + _ + 1
    omega
  | lagged _ lost ih =>
    rw [changes_append, totalMissed_append, List.length_append, List.length_append, ← ih]
    show _ + 0 + (_ + (lost.length + 0)) = _
    omega

end Tells

end Receipt

namespace Notifier

open Receipt

/-! ### The messages that are kept -/

/-- **The notifier keeps the newest of the messages** that were sent, the first of which stands
first, and more may follow. -/
structure Keeps (notifier : Notifier) (messages : List Change) : Prop where
  sent : notifier.sent = messages.length
  kept : notifier.kept = messages.reverse.take notifier.capacity
  isOpen : notifier.closed = false

variable {notifier : Notifier} {messages past coming : List Change} {name : String}

/-- Nothing has been sent yet. -/
theorem keeps_ofCapacity (capacity : Nat) : (ofCapacity capacity).Keeps [] where
  sent := rfl
  kept := List.take_nil.symm
  isOpen := rfl

/-- A message that is sent to somebody is the newest one. -/
theorem Keeps.send (h : notifier.Keeps messages) (hlistened : notifier.cursors.isEmpty = false)
    (change : Change) : (notifier.send change).Keeps (messages ++ [change]) := by
  have hsend : notifier.send change = { notifier with
      sent := notifier.sent + 1
      kept := (change :: notifier.kept).take notifier.capacity } := by
    rw [Notifier.send, hlistened]
    rfl
  rw [hsend]
  refine ⟨?_, ?_, h.isOpen⟩
  · show notifier.sent + 1 = _
    rw [h.sent, List.length_append]
    rfl
  · show (change :: notifier.kept).take notifier.capacity = _
    rw [h.kept, List.reverse_append, List.reverse_singleton, List.singleton_append]
    show List.take notifier.capacity _ = List.take notifier.capacity _
    cases notifier.capacity with
    | zero => rfl
    | succ room =>
      -- Of the others one less is kept, whether or not one had to go before.
      rw [List.take_succ_cons, List.take_succ_cons, List.take_take,
        Nat.min_eq_left (Nat.le_succ room)]

/-- What subscribers do leaves the messages alone. -/
theorem Keeps.of_cursors (h : notifier.Keeps messages) (cursors : Ledger Nat) :
    Keeps { notifier with cursors } messages :=
  ⟨h.sent, h.kept, h.isOpen⟩

/-- A message with fewer than the capacity behind it is found under its number. -/
theorem Keeps.message?_eq_some {change : Change} {rest : List Change}
    (h : notifier.Keeps (past ++ change :: rest)) (hroom : rest.length < notifier.capacity) :
    notifier.message? past.length = some change := by
  have hlength : (past ++ change :: rest).length = past.length + (rest.length + 1) :=
    List.length_append
  have hplace : notifier.sent - 1 - past.length = rest.length := by
    rw [h.sent, hlength]
    omega
  have hlt : past.length < notifier.sent := by
    rw [h.sent, hlength]
    omega
  have hreverse : (past ++ change :: rest).reverse = rest.reverse ++ change :: past.reverse := by
    rw [List.reverse_append, List.reverse_cons, List.append_assoc]
    rfl
  rw [message?, if_pos hlt, hplace, h.kept, List.getElem?_take_of_lt hroom, hreverse,
    List.getElem?_append_right (Nat.le_of_eq List.length_reverse), List.length_reverse,
    Nat.sub_self]
  rfl

/-! ### The messages that are still to come -/

/-- **The messages that are still to come** for a subscriber: those it has not been told of. -/
def Awaits (notifier : Notifier) (name : String) (coming : List Change) : Prop :=
  ∃ past : List Change, notifier.Keeps (past ++ coming) ∧
    notifier.cursors.get? name = some past.length

/-- **What one receives** of the messages that are still to come, and which are left: the oldest one
if there is room for all of them; otherwise the number of those that there is no room for. -/
inductive Takes (capacity : Nat) : List Change → Option Receipt → List Change → Prop where
  | nothing : Takes capacity [] none []
  | oldest {change : Change} {rest : List Change} (hroom : rest.length < capacity) :
    Takes capacity (change :: rest) (some (.change change)) rest
  | report {lost retained : List Change} (hlost : lost ≠ []) (hfull : retained.length = capacity) :
    Takes capacity (lost ++ retained) (some (.lagged lost.length)) retained

/-- Either there is room for all that is still to come, or it ends with as many messages as there is
room for. -/
theorem room_or_lag (capacity : Nat) (coming : List Change) :
    coming.length ≤ capacity ∨ ∃ lost retained, coming = lost ++ retained ∧ lost ≠ [] ∧
      retained.length = capacity := by
  by_cases hroom : coming.length ≤ capacity
  · exact .inl hroom
  · refine .inr ⟨coming.take (coming.length - capacity), coming.drop (coming.length - capacity),
      (List.take_append_drop _ coming).symm, ?_, by rw [List.length_drop]; omega⟩
    rw [← List.length_pos_iff, List.length_take]
    omega

/-- What is received tells of the messages that are not left. -/
theorem Takes.tells {capacity : Nat} {receipt? : Option Receipt} {later : List Change}
    (h : Takes capacity coming receipt? later) :
    ∃ dealt, coming = dealt ++ later ∧ Tells receipt?.toList dealt := by
  cases h with
  | nothing => exact ⟨[], rfl, .nothing⟩
  | oldest _ => exact ⟨[_], rfl, .single _⟩
  | report _ _ => exact ⟨_, rfl, .report _⟩

/-- Receiving changes nothing but the own place. -/
theorem receive_snd (notifier : Notifier) (name : String) :
    (notifier.receive name).2 = notifier ∨
      ∃ cursor, notifier.cursors.contains name = true ∧
        (notifier.receive name).2 =
          { notifier with cursors := notifier.cursors.insert name cursor } := by
  unfold receive
  split
  · exact .inl rfl
  · next cursor hcursor =>
    have hcontains : notifier.cursors.contains name = true :=
      Ledger.contains_iff.2 ⟨cursor, hcursor⟩
    dsimp only
    split
    · exact .inr ⟨_, hcontains, rfl⟩
    · split
      · exact .inr ⟨_, hcontains, rfl⟩
      · exact .inl rfl

@[simp] theorem capacity_receive (notifier : Notifier) (name : String) :
    (notifier.receive name).2.capacity = notifier.capacity := by
  rcases receive_snd notifier name with h | ⟨cursor, -, h⟩ <;> rw [h]

/-- **Receiving.** -/
theorem Awaits.receive (h : notifier.Awaits name coming) :
    ∃ later, Takes notifier.capacity coming (notifier.receive name).1 later ∧
      (notifier.receive name).2.Awaits name later := by
  obtain ⟨past, hkeeps, hcursor⟩ := h
  have hsent : notifier.sent = past.length + coming.length :=
    hkeeps.sent.trans List.length_append
  rcases room_or_lag notifier.capacity coming with hroom | ⟨lost, retained, rfl, hlost, hfull⟩
  · -- All that is to come is kept, so the next of it is found.
    have hnot : ¬ past.length + notifier.capacity < notifier.sent := by omega
    cases coming with
    | nil =>
      have hnone : notifier.message? past.length = none := by
        rw [message?, if_neg (by rw [hsent]; exact Nat.lt_irrefl _)]
      have hreceive : notifier.receive name = (none, notifier) := by
        unfold Notifier.receive
        rw [hcursor]
        dsimp only
        rw [if_neg hnot, hnone]
        dsimp only
        rw [hkeeps.isOpen]
        rfl
      rw [hreceive]
      exact ⟨[], .nothing, past, hkeeps, hcursor⟩
    | cons change rest =>
      have hreceive : notifier.receive name = (some (.change change), { notifier with
          cursors := notifier.cursors.insert name (past ++ [change]).length }) := by
        unfold Notifier.receive
        rw [hcursor]
        dsimp only
        rw [if_neg hnot, hkeeps.message?_eq_some hroom, List.length_append]
        rfl
      rw [hreceive]
      refine ⟨rest, .oldest hroom, past ++ [change], ?_, Ledger.get?_insert_self _ _ _⟩
      rw [List.append_assoc]
      exact hkeeps.of_cursors _
  · -- The messages that are not kept come before the newest ones.
    have hpositive := List.length_pos_iff.2 hlost
    rw [List.length_append, hfull] at hsent
    have hlag : past.length + notifier.capacity < notifier.sent := by omega
    have hplace : notifier.sent - notifier.capacity = past.length + lost.length := by omega
    have hreceive : notifier.receive name = (some (.lagged lost.length), { notifier with
        cursors := notifier.cursors.insert name (past ++ lost).length }) := by
      unfold Notifier.receive
      rw [hcursor]
      dsimp only
      rw [if_pos hlag, hplace, Nat.add_sub_cancel_left, List.length_append]
    rw [hreceive]
    refine ⟨retained, .report hlost hfull, past ++ lost, ?_, Ledger.get?_insert_self _ _ _⟩
    rw [List.append_assoc]
    exact hkeeps.of_cursors _

/-- What is still to come decides what one receives. -/
theorem Takes.unique {capacity : Nat} {receipt? other? : Option Receipt}
    {later others : List Change} (h : Takes capacity coming receipt? later)
    (hother : Takes capacity coming other? others) : receipt? = other? ∧ later = others := by
  -- A number is reported exactly if there is no room for all messages.
  have hlag : ∀ {lost retained : List Change}, lost ≠ [] → retained.length = capacity →
      capacity < (lost ++ retained).length := by
    intro lost retained hlost hfull
    have := List.length_pos_iff.2 hlost
    rw [List.length_append]
    omega
  generalize hsame : coming = messages at hother
  cases h with
  | nothing =>
    cases hother with
    | nothing => exact ⟨rfl, rfl⟩
    | oldest _ => exact absurd hsame (by simp)
    | report hlost _ => exact absurd (List.append_eq_nil_iff.1 hsame.symm).1 hlost
  | oldest hroom =>
    cases hother with
    | nothing => exact absurd hsame (by simp)
    | oldest _ =>
      obtain ⟨rfl, rfl⟩ := List.cons.inj hsame
      exact ⟨rfl, rfl⟩
    | report hlost hfull =>
      have := hlag hlost hfull
      rw [← hsame, List.length_cons] at this
      omega
  | report hlost hfull =>
    cases hother with
    | nothing => exact absurd (List.append_eq_nil_iff.1 hsame).1 hlost
    | oldest hroom =>
      have := hlag hlost hfull
      rw [hsame, List.length_cons] at this
      omega
    | report _ hfull' =>
      obtain ⟨rfl, rfl⟩ := List.append_inj' hsame (hfull.trans hfull'.symm)
      exact ⟨rfl, rfl⟩

/-! ### Reading on -/

theorem receiveMany_of_none (h : (notifier.receive name).1 = none) (limit : Nat) :
    (notifier.receiveMany name limit).1 = [] := by
  cases limit with
  | zero => rfl
  | succ limit =>
    rw [receiveMany]
    rcases hreceive : notifier.receive name with ⟨receipt?, later⟩
    rw [hreceive] at h
    subst h
    rfl

theorem receiveMany_of_some {receipt : Receipt} (h : (notifier.receive name).1 = some receipt)
    (hopen : receipt ≠ .closed) (limit : Nat) :
    (notifier.receiveMany name (limit + 1)).1 =
      receipt :: ((notifier.receive name).2.receiveMany name limit).1 := by
  rw [receiveMany]
  rcases hreceive : notifier.receive name with ⟨receipt?, later⟩
  rw [hreceive] at h
  subst h
  cases receipt with
  | change _ | lagged _ => rfl
  | closed => exact absurd rfl hopen

/-- With room for all that is still to come, one receives all of it. -/
theorem Awaits.receiveMany (h : notifier.Awaits name coming)
    (hroom : coming.length ≤ notifier.capacity) {limit : Nat} (hlimit : coming.length ≤ limit) :
    (notifier.receiveMany name limit).1 = coming.map .change := by
  induction coming generalizing notifier limit with
  | nil =>
    obtain ⟨later, htakes, -⟩ := h.receive
    exact receiveMany_of_none (htakes.unique .nothing).1 limit
  | cons change rest ih =>
    rw [List.length_cons] at hroom hlimit
    obtain ⟨limit, rfl⟩ : ∃ less, limit = less + 1 := ⟨limit - 1, by omega⟩
    obtain ⟨later, htakes, hlater⟩ := h.receive
    obtain ⟨hreceipt, rfl⟩ := htakes.unique (.oldest hroom)
    rw [receiveMany_of_some hreceipt (by simp), List.map_cons,
      ih hlater (by rw [capacity_receive]; omega) (by omega)]

/-- At least as many messages are kept as are still to come, up to the capacity. -/
theorem Awaits.le_length_kept (h : notifier.Awaits name coming) :
    min notifier.capacity coming.length ≤ notifier.kept.length := by
  obtain ⟨past, hkeeps, -⟩ := h
  rw [hkeeps.kept, List.length_take, List.length_reverse, List.length_append]
  omega

theorem receiveAll_none (notifier : Notifier) (name : String) :
    notifier.receiveAll name none = notifier.receiveMany name (notifier.kept.length + 2) := by
  rw [receiveAll, Option.getD_none, Nat.min_self, receiptBound]

/-- One that has not fallen behind reads all that is still to come. -/
theorem Awaits.receiveAll_of_room (h : notifier.Awaits name coming)
    (hroom : coming.length ≤ notifier.capacity) :
    (notifier.receiveAll name none).1 = coming.map .change := by
  have hkept := h.le_length_kept
  rw [receiveAll_none]
  exact h.receiveMany hroom (by omega)

/-- One that has fallen behind reads how many messages it has missed, and then all that are kept. -/
theorem Awaits.receiveAll_of_lag {lost retained : List Change}
    (h : notifier.Awaits name (lost ++ retained)) (hlost : lost ≠ [])
    (hfull : retained.length = notifier.capacity) :
    (notifier.receiveAll name none).1 = .lagged lost.length :: retained.map .change := by
  have hkept := h.le_length_kept
  obtain ⟨later, htakes, hlater⟩ := h.receive
  obtain ⟨hreceipt, rfl⟩ := htakes.unique (.report hlost hfull)
  rw [List.length_append] at hkept
  rw [receiveAll_none, receiveMany_of_some hreceipt (by simp),
    hlater.receiveMany (by rw [capacity_receive]; omega) (by omega)]

theorem tells_map_change (messages : List Change) : Tells (messages.map .change) messages := by
  induction messages with
  | nil => exact .nothing
  | cons change rest ih => exact (Tells.single change).append ih

/-- **Reading on** until there is nothing left tells of all that is still to come. -/
theorem Awaits.receiveAll (h : notifier.Awaits name coming) :
    Tells (notifier.receiveAll name none).1 coming := by
  rcases room_or_lag notifier.capacity coming with hroom | ⟨lost, retained, rfl, hlost, hfull⟩
  · rw [h.receiveAll_of_room hroom]
    exact tells_map_change coming
  · rw [h.receiveAll_of_lag hlost hfull]
    exact (Tells.report lost).append (tells_map_change retained)

end Notifier

end DeviceScope
