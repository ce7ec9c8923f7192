import DeviceScope.Proofs.Cache.Writing
import DeviceScope.Proofs.Ledger
import DeviceScope.Service.Cycle

/-!
# What the parts of a cycle write

A cycle writes in two places: `Cycle.takeIn` writes an identity that was listed as present, and
`Cycle.markAbsent` an id that was not mentioned as absent. Either is one write, and what it leaves
behind besides is told by how the write came out (`takeIn_eq`, `markAbsent_eq`): the ids that count
as mentioned, and the report.
-/

namespace DeviceScope

variable {σ : Type}

namespace Attempt

def successes (log : List Attempt) : Nat := log.countP fun attempt => attempt.succeeded

def failures (log : List Attempt) : Nat := log.countP fun attempt => !attempt.succeeded

theorem failures_append (log more : List Attempt) :
    failures (log ++ more) = failures log + failures more :=
  List.countP_append

theorem successes_append (log more : List Attempt) :
    successes (log ++ more) = successes log + successes more :=
  List.countP_append

@[simp] theorem successes_singleton (attempt : Attempt) :
    successes [attempt] = if attempt.succeeded then 1 else 0 :=
  List.countP_singleton

@[simp] theorem failures_singleton (attempt : Attempt) :
    failures [attempt] = if attempt.succeeded then 0 else 1 := by
  rw [failures, List.countP_singleton]
  cases attempt.succeeded <;> rfl

/-- Without failures every attempt succeeded. -/
theorem succeeded_of_failures_eq_zero {log : List Attempt} {attempt : Attempt}
    (h : failures log = 0) (hmem : attempt ∈ log) : attempt.succeeded = true := by
  have := List.countP_eq_zero.1 h attempt hmem
  simpa using this

end Attempt

/-- What a listing says of an identity that it shows. -/
def Identity.statement (identity : Identity) : String × Entry := (identity.id, .present identity)

namespace Cycle

/-- Asking for the next page sets its time, and nothing else. -/
theorem exists_resume_eq (cycle : Cycle) (clock : Int) :
    ∃ due, cycle.resume clock = { cycle with due } := by
  rw [resume]
  split
  · exact ⟨_, rfl⟩
  · exact ⟨cycle.due, rfl⟩

variable [KeyValueStore σ]

/-- One identity is taken in: it counts as mentioned and as listed, whatever becomes of its
write. -/
theorem takeIn_eq (cycle : Cycle) (cache : Cache σ) (identity : Identity) (now : Timestamp) :
    cycle.takeIn cache identity now =
      ({ cycle with
          seen := cycle.seen.insert identity.id ()
          report := { cycle.report with
            listed := cycle.report.listed + 1
            failures := cycle.report.failures +
              if (cache.attempt (.present identity now)).succeeded then 0 else 1 } },
        (cache.write (.present identity now)).2) := by
  rw [takeIn, Cache.applyUpdate, Cache.attempt]
  rcases cache.write (.present identity now) with ⟨_ | _, written⟩ <;> rfl

/-- One id is marked absent: it counts as removed, or as a failure. -/
theorem markAbsent_eq (report : Report) (cache : Cache σ) (id : String) (now : Timestamp) :
    markAbsent report cache id now =
      ({ report with
          removed := report.removed +
            if (cache.attempt (.absent id now)).succeeded then 1 else 0
          failures := report.failures +
            if (cache.attempt (.absent id now)).succeeded then 0 else 1 },
        (cache.write (.absent id now)).2) := by
  rw [markAbsent, Cache.applyRemoval, Cache.attempt]
  rcases cache.write (.absent id now) with ⟨_ | _, written⟩ <;> rfl

end Cycle

end DeviceScope
