import DeviceScope.Identity.Basic
import DeviceScope.Ledger

/-!
# Notifications

A notifier tells its subscribers what has changed. It keeps the newest messages, as many as its
capacity, and every subscriber reads them at its own pace, from the first message that is sent
after it has subscribed. One that falls behind by more than the capacity is told how many messages
it has missed, once, and goes on with the oldest that is kept.

`Notifier.send` drops a message that nobody would receive.
-/

namespace DeviceScope

/-- A change that subscribers are told of. -/
inductive Change where
  /-- An identity in scope was replaced by another one. -/
  | updated (identity : Identity)
  /-- An identity that could connect is no longer in scope. -/
  | removed (id : String)
  deriving DecidableEq, Repr, Inhabited

namespace Change

/-- The id that has changed. -/
def id : Change → String
  | .updated identity => identity.id
  | .removed id => id

/-- Whether something is no longer in scope. -/
def isRemoval : Change → Bool
  | .updated _ => false
  | .removed _ => true

end Change

/-- Sends changes to subscribers. -/
structure Notifier where
  /-- How many messages are kept; a power of two. -/
  capacity : Nat
  /-- The number of messages that have been sent. -/
  sent : Nat
  /-- The messages that are kept, the newest one first. -/
  kept : List Change
  /-- For each subscriber the number of messages that came before the one it reads next. -/
  cursors : Ledger Nat
  /-- Whether no more messages will be sent. -/
  closed : Bool
  deriving DecidableEq, Inhabited

/-- What a subscriber receives. -/
inductive Receipt where
  | change (change : Change)
  /-- So many messages are lost to the subscriber. -/
  | lagged (missed : Nat)
  /-- No more messages will come. -/
  | closed
  deriving DecidableEq, Repr, Inhabited

namespace Notifier

/-- The least power of two that is not less than a number. -/
def roundUp (n : Nat) : Nat := if n ≤ 1 then 1 else Nat.pow 2 ((n - 1).log2 + 1)

/-- A notifier without subscribers. A capacity that is no power of two is rounded up to one. -/
def ofCapacity (capacity : Nat) : Notifier := ⟨roundUp (max capacity 1), 0, [], ∅, false⟩

/-- The capacity that holds where nothing else is said. -/
def standardCapacity : Nat := 64

def subscriberCount (notifier : Notifier) : Nat := notifier.cursors.size

/-- Adds a subscriber, in place of an earlier one of that name. -/
def subscribe (notifier : Notifier) (name : String) : Notifier :=
  { notifier with cursors := notifier.cursors.insert name notifier.sent }

/-- Removes a subscriber. -/
def unsubscribe (notifier : Notifier) (name : String) : Notifier :=
  { notifier with cursors := notifier.cursors.erase name }

/-- Sends a message to all subscribers. -/
def send (notifier : Notifier) (change : Change) : Notifier :=
  if notifier.cursors.isEmpty then notifier
  else
    { notifier with
      sent := notifier.sent + 1
      kept := (change :: notifier.kept).take notifier.capacity }

/-- Sends a message, and tells how many subscribers it is delivered to. -/
def notify (notifier : Notifier) (change : Change) : Nat × Notifier :=
  (notifier.subscriberCount, notifier.send change)

def close (notifier : Notifier) : Notifier := { notifier with closed := true }

/-- The message before which `number` messages were sent, if it is kept. -/
def message? (notifier : Notifier) (number : Nat) : Option Change :=
  if number < notifier.sent then notifier.kept[notifier.sent - 1 - number]? else none

/-- Lets a subscriber receive one thing; `none` if there is nothing for it. -/
def receive (notifier : Notifier) (name : String) : Option Receipt × Notifier :=
  match notifier.cursors.get? name with
  | none => (none, notifier)
  | some cursor =>
    let moveTo (cursor : Nat) := { notifier with cursors := notifier.cursors.insert name cursor }
    -- The oldest message that is kept is the one to go on with.
    if cursor + notifier.capacity < notifier.sent then
      (some (.lagged (notifier.sent - notifier.capacity - cursor)),
        moveTo (notifier.sent - notifier.capacity))
    else
      match notifier.message? cursor with
      | some change => (some (.change change), moveTo (cursor + 1))
      | none => (if notifier.closed then some .closed else none, notifier)

/-- Lets a subscriber receive what there is for it, up to `limit` things. -/
def receiveMany (notifier : Notifier) (name : String) : Nat → List Receipt × Notifier
  | 0 => ([], notifier)
  | limit + 1 =>
    match notifier.receive name with
    | (none, notifier) => ([], notifier)
    | (some .closed, notifier) => ([.closed], notifier)
    | (some receipt, notifier) =>
      let (receipts, notifier) := notifier.receiveMany name limit
      (receipt :: receipts, notifier)

/-- How many things a subscriber can receive at most: a report, the messages that are kept, and
the end. -/
def receiptBound (notifier : Notifier) : Nat := notifier.kept.length + 2

/-- Lets a subscriber receive everything there is for it, up to `limit` things if one is given. -/
def receiveAll (notifier : Notifier) (name : String) (limit : Option Nat) :
    List Receipt × Notifier :=
  notifier.receiveMany name (min (limit.getD notifier.receiptBound) notifier.receiptBound)

/-- What a subscriber does. -/
inductive Act where
  | subscribe (name : String)
  | unsubscribe (name : String)
  | receive (name : String)
  deriving DecidableEq, Repr

/-- The notifier after a subscriber has done something. -/
def after (notifier : Notifier) : Act → Notifier
  | .subscribe name => notifier.subscribe name
  | .unsubscribe name => notifier.unsubscribe name
  | .receive name => (notifier.receive name).2

end Notifier

end DeviceScope
