import DeviceScope.Cache.Refresh

/-!
# Decisions

`Cache.decide` is told by the identity that is kept under an id: there is one and it may connect,
there is one and it may not, or there is none. When a decision has the id looked up first
(`Cache.NeedsLookup`) is told by the record and the clock, on integers: a record from the future has
no age.
-/

namespace DeviceScope

variable {σ : Type}

namespace Cache

theorem decide_eq_ok_iff {cache : Cache σ} {id : String} {identity : Identity} :
    cache.decide id = .ok identity ↔
      cache.identity? id = some identity ∧ identity.isEnabled = true := by
  unfold decide
  cases cache.identity? id with
  | none => simp
  | some known =>
    by_cases henabled : known.isEnabled = true
    · simp only [henabled, if_true, Except.ok.injEq, Option.some.injEq]
      constructor
      · rintro rfl
        exact ⟨rfl, henabled⟩
      · exact fun h => h.1
    · simp only [henabled, if_false, Option.some.injEq, Bool.false_eq_true]
      constructor
      · intro h
        exact absurd h (by simp)
      · rintro ⟨rfl, h⟩
        exact absurd h henabled

theorem decide_eq_disabled_iff {cache : Cache σ} {id : String} :
    cache.decide id = .error (.disabled id) ↔
      ∃ identity, cache.identity? id = some identity ∧ identity.isEnabled = false := by
  unfold decide
  cases cache.identity? id with
  | none => simp
  | some known => cases henabled : known.isEnabled <;> simp [henabled]

theorem decide_eq_outOfScope_iff {cache : Cache σ} {id : String} :
    cache.decide id = .error (.outOfScope id) ↔ cache.identity? id = none := by
  unfold decide
  cases cache.identity? id with
  | none => simp
  | some known => cases henabled : known.isEnabled <;> simp [henabled]

/-- Two caches with the same record of an id decide alike. -/
theorem decide_congr {cache other : Cache σ} {id : String}
    (h : cache.record? id = other.record? id) : cache.decide id = other.decide id := by
  unfold decide identity?
  rw [h]

/-- **A decision needs a look-up**: nothing is known of the id, or it has been known for longer than
a record stays fresh. -/
def NeedsLookup (cache : Cache σ) (id : String) (now : Timestamp) : Prop :=
  ∀ record, cache.record? id = some record →
    (cache.refreshDelay.nanos : Int) < now.nanos - record.stamp.nanos

theorem isStale_iff {cache : Cache σ} {id : String} {now : Timestamp} :
    cache.isStale id now = true ↔ cache.NeedsLookup id now := by
  unfold isStale NeedsLookup
  rw [Option.all_eq_true]
  refine forall_congr' fun record => imp_congr_right fun _ => ?_
  unfold Record.isStaleAt Record.ageAt
  rw [decide_eq_true_iff]
  omega

end Cache

end DeviceScope
