import DeviceScope.Proofs.Cache.Mirror
import DeviceScope.Store.Memory

/-!
# The ids that are present

Records are kept under their own ids (`Ledger.KeyedBy`): so they are when a cache is created over a
store (`Cache.keyedBy_of_create`), and no write changes it (`Attempt.keyedBy_replay`). What
`Cache.presentIds` lists is then what `Cache.record?` finds (`Cache.mem_presentIds_iff`), each id
once (`Cache.nodup_presentIds`).
-/

namespace DeviceScope

variable {σ : Type}

theorem Attempt.keyedBy_enter {records : Ledger Record} (h : records.KeyedBy Record.id)
    (attempt : Attempt) : (attempt.enter records).KeyedBy Record.id := by
  rw [enter]
  split
  · exact h.insert attempt.record
  · exact h

/-- Records that are written are kept under their own ids. -/
theorem Attempt.keyedBy_replay {records : Ledger Record} (h : records.KeyedBy Record.id)
    (log : List Attempt) : (replay records log).KeyedBy Record.id := by
  induction log generalizing records with
  | nil => exact h
  | cons attempt log ih => exact ih (keyedBy_enter h attempt)

namespace Cache

/-- Records that were found in a store are kept under their own ids: others would not have been
taken for records. -/
theorem keyedBy_of_create [KeyValueStore σ] {store : σ} {config : Config} {cache : Cache σ}
    (h : Cache.create store config = .ok cache) : cache.records.KeyedBy Record.id := by
  intro key record hget
  obtain ⟨text, -, hdecode⟩ := (mirrors_of_create h key record).1 hget
  exact Record.id_of_decode hdecode

/-- **What counts as present**: an id whose record holds an identity. -/
theorem mem_presentIds_iff {cache : Cache σ} (h : cache.records.KeyedBy Record.id) {id : String} :
    id ∈ cache.presentIds ↔
      ∃ record, cache.record? id = some record ∧ record.entry.isPresent = true := by
  rw [presentIds, List.mem_map]
  constructor
  · rintro ⟨record, hmem, rfl⟩
    obtain ⟨hvalue, hpresent⟩ := List.mem_filter.1 hmem
    exact ⟨record, h.mem_values_iff.1 hvalue, hpresent⟩
  · rintro ⟨record, hget, hpresent⟩
    have hid : record.id = id := h id record hget
    subst hid
    exact ⟨record, List.mem_filter.2 ⟨h.mem_values_iff.2 hget, hpresent⟩, rfl⟩

/-- No id is listed twice. -/
theorem nodup_presentIds {cache : Cache σ} (h : cache.records.KeyedBy Record.id) :
    cache.presentIds.Nodup :=
  -- The ids of all records are the keys, and these are some of them.
  h.nodup_map_values.sublist (List.filter_sublist.map _)

/-- The cache over an empty store in memory. -/
def blank : Cache MemoryStore := ⟨.ofEntries ∅, ∅, .ofCapacity 64, .ofSeconds 300, 0, 0, 0, 0⟩

theorem create_blank : Cache.create (.ofEntries ∅ : MemoryStore) .standard = .ok blank := rfl

end Cache

end DeviceScope
