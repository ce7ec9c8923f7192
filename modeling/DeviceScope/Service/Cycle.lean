import DeviceScope.Cache.Basic
import DeviceScope.Directory.Listing
import DeviceScope.Service.Basic

/-!
# Cycles

A cycle walks through a listing of the directory, writes down every identity as its page arrives,
and then marks absent what was held to be present and was not mentioned. An id counts as mentioned
even if writing it down has failed, so a failed write never leads to a removal. A listing that
breaks off or takes too long ends the cycle before anything is marked absent.

It does so one write at a time (`Cycle.takeIn`, `Cycle.markAbsent`), so that others may come between
any two of them. What is to be marked absent is settled when the listing is over (`Cycle.gone`).

Times are nanoseconds on the clock of the gateway, and sums of times are exact. A timer that counts
milliseconds in 64 bits reaches no moment beyond 2^64 of them, so a page would not be waited for as
long as it takes; and where the seconds of a moment have 64 bits, a deadline beyond 2^63 of them
would make the cycle crash when it begins. Whoever sets spans of such a length is not spoken of
here.
-/

namespace DeviceScope

variable {σ : Type}

/-- A cycle that walks through a listing. -/
structure Cycle where
  /-- What is left of the listing. -/
  listing : Listing
  /-- What is left of the page that has arrived. -/
  page : List Identity
  /-- When the next page arrives; one that takes no time is there at once. -/
  due : Option Int
  /-- When the listing has taken too long. -/
  deadline : Option Int
  /-- The ids that were mentioned. -/
  seen : Ledger Unit
  report : Report
  deriving DecidableEq

namespace Cycle

/-- When the next page of a listing arrives that is asked for now, on a clock without end. -/
def dueOf (listing : Listing) (clock : Int) : Option Int :=
  listing.delay.map fun delay => clock + delay.nanos

/-- A cycle that begins with a listing. Its deadline is the sum of two times, on a clock without
end. -/
def start (listing : Listing) (timeout : Option Span) (clock : Int) : Cycle :=
  ⟨listing, [], dueOf listing clock, timeout.map fun span => clock + span.nanos, ∅, .none⟩

/-- Whether the next page has arrived. -/
def hasPage (cycle : Cycle) (clock : Int) : Bool := cycle.due.all (· ≤ clock)

/-- Whether the listing has taken too long. -/
def isLate (cycle : Cycle) (clock : Int) : Bool := cycle.deadline.any (· ≤ clock)

/-- Whether the cycle can go on. -/
def isReady (cycle : Cycle) (clock : Int) : Bool :=
  !cycle.page.isEmpty || !cycle.listing.hasNext || cycle.hasPage clock || cycle.isLate clock

/-- When the cycle can go on at the latest. -/
def alarm? (cycle : Cycle) : Option Int :=
  match cycle.due, cycle.deadline with
  | some due, some deadline => some (min due deadline)
  | some due, none => some due
  | none, deadline => deadline

/-- Asks for the next page if nothing is left of the last one. -/
def resume (cycle : Cycle) (clock : Int) : Cycle :=
  if cycle.page.isEmpty then { cycle with due := dueOf cycle.listing clock } else cycle

/-- The ids that are held to be present and were not mentioned. -/
def gone (cycle : Cycle) (cache : Cache σ) : List String :=
  cache.presentIds.filter fun id => !cycle.seen.contains id

variable [KeyValueStore σ]

/-- Writes down an identity that was listed. -/
def takeIn (cycle : Cycle) (cache : Cache σ) (identity : Identity) (now : Timestamp) :
    Cycle × Cache σ :=
  let report := { cycle.report with listed := cycle.report.listed + 1 }
  let cycle := { cycle with seen := cycle.seen.insert identity.id (), report }
  match cache.applyUpdate identity now with
  | (.ok (), cache) => (cycle, cache)
  | (.error _, cache) =>
    ({ cycle with report := { report with failures := report.failures + 1 } }, cache)

def markAbsent (report : Report) (cache : Cache σ) (id : String) (now : Timestamp) :
    Report × Cache σ :=
  match cache.applyRemoval id now with
  | (.ok (), cache) => ({ report with removed := report.removed + 1 }, cache)
  | (.error _, cache) => ({ report with failures := report.failures + 1 }, cache)

end Cycle

end DeviceScope
