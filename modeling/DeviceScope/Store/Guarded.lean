import DeviceScope.Store.Basic

/-!
# Guarded stores

A guard in front of a store turns away puts for some keys, and walks over the entries, before the
store itself sees them.
-/

namespace DeviceScope

/-- A store behind a guard. -/
structure Guarded (σ : Type) where
  /-- The store itself. -/
  store : σ
  /-- The keys whose puts are turned away. -/
  refusedKeys : List String
  /-- Whether walks over the entries are turned away. -/
  refusesWalks : Bool
  deriving Inhabited

namespace Guarded

variable {σ : Type} [KeyValueStore σ]

/-- A guard that turns nothing away. -/
def ofStore (store : σ) : Guarded σ := ⟨store, [], false⟩

def put (guarded : Guarded σ) (key value : String) : Except StoreError Unit × Guarded σ :=
  if key ∈ guarded.refusedKeys then (.error (.unavailable ("refused " ++ key)), guarded)
  else
    let (result, store) := KeyValueStore.put guarded.store key value
    (result, { guarded with store })

/-- All entries. -/
def entries (guarded : Guarded σ) : Except StoreError (List (String × String)) :=
  if guarded.refusesWalks then .error (.unavailable "iteration refused")
  else KeyValueStore.entries guarded.store

instance : KeyValueStore (Guarded σ) where
  contents guarded := KeyValueStore.contents guarded.store
  put := put
  entries := entries
  contents_of_put_ok guarded key value h := by
    unfold put at h ⊢
    split at h
    · cases h
    · rw [if_neg (by assumption)]
      exact KeyValueStore.contents_of_put_ok _ _ _ h
  contents_of_put_error guarded key value error h := by
    unfold put at h ⊢
    split at h
    · rw [if_pos (by assumption)]
    · rw [if_neg (by assumption)]
      exact KeyValueStore.contents_of_put_error _ _ _ _ h
  eq_of_entries_ok guarded list h := by
    unfold entries at h
    split at h
    · cases h
    · exact KeyValueStore.eq_of_entries_ok _ _ h

end Guarded

end DeviceScope
