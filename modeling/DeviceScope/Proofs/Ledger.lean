import DeviceScope.Ledger

/-!
# Counting and listing the entries of a ledger

What `Ledger.insert` does to the number of entries, what `Ledger.values` and `Ledger.keys` list,
and that the entries of a ledger, taken in one after another, make up the ledger again
(`Ledger.ofList_entries`).
-/

namespace DeviceScope.Ledger

variable {α β : Type}

/-! ### Inserting -/

theorem length_insertEntry_of_findEntry_eq_none {key : String} {value : α}
    {l : List (String × α)} (h : findEntry key l = none) :
    (insertEntry key value l).length = l.length + 1 := by
  induction l with
  | nil => rfl
  | cons a rest ih =>
    -- The key is not that of the first entry: it stands before it or goes behind it.
    rw [findEntry] at h
    split at h
    · exact absurd h (by simp)
    · next hne =>
      rw [insertEntry]
      split
      · rfl
      · rw [List.length_cons, ih h, List.length_cons]

/-- A key that is new makes one entry more. -/
theorem size_insert_of_get?_eq_none {ledger : Ledger α} {key : String} (value : α)
    (h : ledger.get? key = none) : (ledger.insert key value).size = ledger.size + 1 :=
  length_insertEntry_of_findEntry_eq_none h

theorem contains_insert (ledger : Ledger α) (key k : String) (value : α) :
    (ledger.insert key value).contains k = (decide (k = key) || ledger.contains k) := by
  rw [contains, contains, get?_insert]
  split <;> simp [*]

theorem contains_erase (ledger : Ledger α) (key k : String) :
    (ledger.erase key).contains k = (decide (k ≠ key) && ledger.contains k) := by
  rw [contains, contains, get?_erase]
  split <;> simp [*]

/-- A ledger with a value has an entry. -/
theorem isEmpty_eq_false_of_get? {ledger : Ledger α} {key : String} {value : α}
    (h : ledger.get? key = some value) : ledger.isEmpty = false := by
  unfold isEmpty
  rw [List.isEmpty_eq_false_iff]
  exact List.ne_nil_of_mem (mem_entries_iff.2 h)

@[simp] theorem contains_empty (key : String) : (∅ : Ledger α).contains key = false := rfl

/-! ### Listing -/

theorem mem_values_iff {ledger : Ledger α} {value : α} :
    value ∈ ledger.values ↔ ∃ key, ledger.get? key = some value := by
  rw [values, List.mem_map]
  constructor
  · rintro ⟨⟨k, v⟩, hm, rfl⟩
    exact ⟨k, mem_entries_iff.1 hm⟩
  · rintro ⟨k, hk⟩
    exact ⟨(k, value), mem_entries_iff.2 hk, rfl⟩

/-- The keys ascend strictly. -/
theorem pairwise_keys (ledger : Ledger α) : ledger.keys.Pairwise (· < ·) :=
  List.pairwise_map.2 ledger.ascending

theorem nodup_keys (ledger : Ledger α) : ledger.keys.Nodup := by
  refine List.Pairwise.imp ?_ (pairwise_keys ledger)
  intro a b hlt heq
  rw [heq] at hlt
  exact String.lt_irrefl b hlt

/-! ### Values that tell their keys -/

/-- Every value is kept under the key that can be read off it. -/
def KeyedBy (keyOf : α → String) (ledger : Ledger α) : Prop :=
  ∀ key value, ledger.get? key = some value → keyOf value = key

variable {keyOf : α → String} {ledger : Ledger α}

theorem keyedBy_empty : KeyedBy keyOf (∅ : Ledger α) := by
  intro key value h
  exact absurd h (by simp)

theorem KeyedBy.insert (h : ledger.KeyedBy keyOf) (value : α) :
    (ledger.insert (keyOf value) value).KeyedBy keyOf := by
  intro key kept hget
  rw [get?_insert] at hget
  split at hget
  · next hkey =>
    rw [hkey, Option.some.inj hget]
  · exact h key kept hget

theorem KeyedBy.erase (h : ledger.KeyedBy keyOf) (key : String) :
    (ledger.erase key).KeyedBy keyOf := by
  intro other kept hget
  rw [get?_erase] at hget
  split at hget
  · exact absurd hget (by simp)
  · exact h other kept hget

/-- The keys are what is read off the values. -/
theorem KeyedBy.map_values_eq_keys (h : ledger.KeyedBy keyOf) :
    ledger.values.map keyOf = ledger.keys := by
  rw [values, keys, List.map_map]
  refine List.map_congr_left fun entry hm => ?_
  exact h entry.1 entry.2 (mem_entries_iff.1 hm)

theorem KeyedBy.nodup_map_values (h : ledger.KeyedBy keyOf) :
    (ledger.values.map keyOf).Nodup := by
  rw [h.map_values_eq_keys]
  exact nodup_keys ledger

/-- A value is kept exactly if it is what is found under its key. -/
theorem KeyedBy.mem_values_iff (h : ledger.KeyedBy keyOf) {value : α} :
    value ∈ ledger.values ↔ ledger.get? (keyOf value) = some value := by
  rw [Ledger.mem_values_iff]
  constructor
  · rintro ⟨key, hget⟩
    rwa [h key value hget]
  · intro hget
    exact ⟨keyOf value, hget⟩

/-! ### Entries taken in one after another -/

/-- Looking up after taking in entries whose keys ascend: they win over what was there. -/
theorem get?_foldl_insert {entries : List (String × α)} (h : entries.Pairwise (·.1 < ·.1))
    (ledger : Ledger α) (key : String) :
    (entries.foldl (fun ledger pair => ledger.insert pair.1 pair.2) ledger).get? key =
      (findEntry key entries).or (ledger.get? key) := by
  -- What was taken in before is any ledger here.
  induction entries generalizing ledger with
  | nil => rfl
  | cons entry rest ih =>
    have ⟨hentry, hrest⟩ := List.pairwise_cons.1 h
    rw [List.foldl_cons, ih hrest, get?_insert, findEntry]
    by_cases hkey : key = entry.1
    · -- The keys behind it are greater, so this entry is not overwritten.
      have hnone : findEntry key rest = none :=
        findEntry_eq_none fun e he heq => String.lt_irrefl key (by
          have := hentry e he
          rwa [heq, ← hkey] at this)
      rw [hnone, if_pos hkey, if_pos hkey]
      rfl
    · rw [if_neg hkey, if_neg hkey]

/-- The entries of a ledger make up the ledger. -/
@[simp] theorem ofList_entries (ledger : Ledger α) : ofList ledger.entries = ledger := by
  refine ext_get? fun key => ?_
  rw [ofList, get?_foldl_insert ledger.ascending, get?_empty, Option.or_none]
  rfl

end DeviceScope.Ledger
