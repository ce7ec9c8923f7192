/-!
# Ledgers

A ledger keeps one value for each of finitely many keys. Its entries stand in ascending order of
their keys, without repetition, so that a ledger has exactly one form: two ledgers with the same
look-ups are equal (`Ledger.ext_get?`), and `entries` is at once the order in which a ledger is
listed, printed and walked.

Keys are texts, compared by code point, which is also the order of their UTF-8 bytes.
-/

namespace DeviceScope

variable {α β : Type}

/-- Sets the value at `key` in a list of entries in ascending order. -/
def Ledger.insertEntry (key : String) (value : α) : List (String × α) → List (String × α)
  | [] => [(key, value)]
  | entry :: rest =>
    if key < entry.1 then (key, value) :: entry :: rest
    else if key = entry.1 then (key, value) :: rest
    else entry :: insertEntry key value rest

/-- The value at `key` in a list of entries. -/
def Ledger.findEntry (key : String) : List (String × α) → Option α
  | [] => none
  | entry :: rest => if key = entry.1 then some entry.2 else findEntry key rest

namespace Ledger

theorem mem_insertEntry {key : String} {value : α} {e : String × α} {l : List (String × α)}
    (h : e ∈ insertEntry key value l) : e = (key, value) ∨ e ∈ l := by
  induction l with
  | nil => simpa [insertEntry] using h
  | cons a rest ih =>
    rw [insertEntry] at h
    split at h
    · simpa using h
    · split at h
      · rcases List.mem_cons.1 h with h | h
        · exact .inl h
        · exact .inr (List.mem_cons_of_mem _ h)
      · rcases List.mem_cons.1 h with h | h
        · exact .inr (h ▸ List.mem_cons_self)
        · exact (ih h).imp_right (List.mem_cons_of_mem _)

theorem lt_of_not_lt_of_ne {a b : String} (h : ¬ a < b) (hne : a ≠ b) : b < a := by
  rcases Decidable.em (b < a) with hba | hba
  · exact hba
  · exact absurd (String.le_antisymm (String.not_lt.1 hba) (String.not_lt.1 h)) hne

theorem pairwise_insertEntry {key : String} {value : α} {l : List (String × α)}
    (h : l.Pairwise (·.1 < ·.1)) : (insertEntry key value l).Pairwise (·.1 < ·.1) := by
  induction l with
  | nil => simp [insertEntry]
  | cons a rest ih =>
    rw [insertEntry]
    have ⟨ha, hrest⟩ := List.pairwise_cons.1 h
    split
    · next hlt =>
      refine List.pairwise_cons.2 ⟨fun e he => ?_, h⟩
      rcases List.mem_cons.1 he with rfl | he
      · exact hlt
      · exact String.lt_trans hlt (ha e he)
    · next hlt =>
      split
      · next heq => exact List.pairwise_cons.2 ⟨fun e he => heq ▸ ha e he, hrest⟩
      · next hne =>
        refine List.pairwise_cons.2 ⟨fun e he => ?_, ih hrest⟩
        rcases mem_insertEntry he with rfl | he
        · exact lt_of_not_lt_of_ne hlt hne
        · exact ha e he

end Ledger

/-- A finite map from texts to values, its entries in ascending order of their keys. -/
structure Ledger (α : Type) where
  /-- Keys and values in ascending order of the keys. -/
  entries : List (String × α)
  /-- The keys ascend strictly. -/
  ascending : entries.Pairwise (·.1 < ·.1)

namespace Ledger

instance [DecidableEq α] : DecidableEq (Ledger α) := fun a b =>
  decidable_of_iff (a.entries = b.entries) (by cases a; cases b; simp)

/-- The ledger without entries. -/
def empty : Ledger α := ⟨[], .nil⟩

instance : EmptyCollection (Ledger α) := ⟨empty⟩
instance : Inhabited (Ledger α) := ⟨empty⟩

/-- The value kept at `key`. -/
def get? (ledger : Ledger α) (key : String) : Option α := findEntry key ledger.entries

/-- Whether a value is kept at `key`. -/
def contains (ledger : Ledger α) (key : String) : Bool := (ledger.get? key).isSome

/-- Sets the value at `key`, in place of an earlier one. -/
def insert (ledger : Ledger α) (key : String) (value : α) : Ledger α :=
  ⟨insertEntry key value ledger.entries, pairwise_insertEntry ledger.ascending⟩

/-- Forgets the value at `key`. -/
def erase (ledger : Ledger α) (key : String) : Ledger α :=
  ⟨ledger.entries.filter (·.1 ≠ key), ledger.ascending.filter _⟩

/-- The number of keys. -/
def size (ledger : Ledger α) : Nat := ledger.entries.length

/-- Whether there is no entry. -/
def isEmpty (ledger : Ledger α) : Bool := ledger.entries.isEmpty

/-- The keys in ascending order. -/
def keys (ledger : Ledger α) : List String := ledger.entries.map (·.1)

/-- The values in ascending order of their keys. -/
def values (ledger : Ledger α) : List α := ledger.entries.map (·.2)

/-- Takes the pairs in one after another: of a repeated key the last value stays. -/
def ofList (pairs : List (String × α)) : Ledger α :=
  pairs.foldl (fun ledger pair => ledger.insert pair.1 pair.2) ∅

/-! ### Look-ups -/

theorem findEntry_eq_none {key : String} {l : List (String × α)} (h : ∀ e ∈ l, e.1 ≠ key) :
    findEntry key l = none := by
  induction l with
  | nil => rfl
  | cons a rest ih =>
    rw [findEntry, if_neg fun heq => h a List.mem_cons_self heq.symm]
    exact ih fun e he => h e (List.mem_cons_of_mem _ he)

theorem findEntry_insertEntry {key k : String} {value : α} {l : List (String × α)} :
    findEntry k (insertEntry key value l) = if k = key then some value else findEntry k l := by
  induction l with
  | nil => rfl
  | cons a rest ih =>
    rw [insertEntry]
    split
    · rfl
    · split
      · next heq => simp only [findEntry, heq]; split <;> rfl
      · next hne =>
        simp only [findEntry, ih]
        split
        · next hk => rw [if_neg fun h => hne (h.symm.trans hk)]
        · rfl

theorem findEntry_eq_some_iff {key : String} {value : α} {l : List (String × α)}
    (h : l.Pairwise (·.1 < ·.1)) : findEntry key l = some value ↔ (key, value) ∈ l := by
  induction l with
  | nil => simp [findEntry]
  | cons a rest ih =>
    have ⟨ha, hrest⟩ := List.pairwise_cons.1 h
    rw [findEntry]
    split
    · next heq =>
      subst heq
      constructor
      · rintro ⟨⟩; exact List.mem_cons_self
      · intro hm
        rcases List.mem_cons.1 hm with hm | hm
        · rw [← hm]
        · exact absurd (ha _ hm) (String.lt_irrefl _)
    · next hne =>
      rw [ih hrest]
      refine ⟨List.mem_cons_of_mem _, fun hm => ?_⟩
      rcases List.mem_cons.1 hm with hm | hm
      · exact absurd (congrArg Prod.fst hm) hne
      · exact hm

theorem mem_entries_iff {ledger : Ledger α} {key : String} {value : α} :
    (key, value) ∈ ledger.entries ↔ ledger.get? key = some value :=
  (findEntry_eq_some_iff ledger.ascending).symm

@[simp] theorem get?_empty (key : String) : (∅ : Ledger α).get? key = none := rfl

theorem get?_insert (ledger : Ledger α) (key k : String) (value : α) :
    (ledger.insert key value).get? k = if k = key then some value else ledger.get? k :=
  findEntry_insertEntry

@[simp] theorem get?_insert_self (ledger : Ledger α) (key : String) (value : α) :
    (ledger.insert key value).get? key = some value := by simp [get?_insert]

theorem get?_insert_of_ne (ledger : Ledger α) {key k : String} (value : α) (h : k ≠ key) :
    (ledger.insert key value).get? k = ledger.get? k := by simp [get?_insert, h]

theorem findEntry_filter_ne {key k : String} {l : List (String × α)} :
    findEntry k (l.filter (·.1 ≠ key)) = if k = key then none else findEntry k l := by
  induction l with
  | nil => simp [findEntry]
  | cons a rest ih =>
    rw [List.filter_cons]
    by_cases ha : a.1 = key
    · simp only [ha, ne_eq, not_true_eq_false, decide_false, Bool.false_eq_true, if_false,
        findEntry]
      simp only [ne_eq] at ih
      rw [ih]
      split <;> simp_all
    · simp only [ne_eq, ha, not_false_eq_true, decide_true, if_true, findEntry]
      simp only [ne_eq] at ih
      rw [ih]
      by_cases hk : k = a.1
      · simp [hk, ha]
      · simp [hk]

theorem get?_erase (ledger : Ledger α) (key k : String) :
    (ledger.erase key).get? k = if k = key then none else ledger.get? k :=
  findEntry_filter_ne

theorem contains_iff {ledger : Ledger α} {key : String} :
    ledger.contains key = true ↔ ∃ value, ledger.get? key = some value := by
  rw [contains, Option.isSome_iff_exists]

theorem mem_keys_iff {ledger : Ledger α} {key : String} :
    key ∈ ledger.keys ↔ ledger.contains key = true := by
  rw [contains_iff, keys, List.mem_map]
  constructor
  · rintro ⟨⟨k, v⟩, hm, rfl⟩; exact ⟨v, mem_entries_iff.1 hm⟩
  · rintro ⟨v, hv⟩; exact ⟨(key, v), mem_entries_iff.2 hv, rfl⟩

/-! ### One form per map -/

theorem entries_eq_of_mem_iff : ∀ {l m : List (String × α)}, l.Pairwise (·.1 < ·.1) →
    m.Pairwise (·.1 < ·.1) → (∀ e, e ∈ l ↔ e ∈ m) → l = m
  | [], [], _, _, _ => rfl
  | [], b :: _, _, _, h => absurd ((h b).2 List.mem_cons_self) List.not_mem_nil
  | a :: _, [], _, _, h => absurd ((h a).1 List.mem_cons_self) List.not_mem_nil
  | a :: l, b :: m, hl, hm, h => by
    have ⟨ha, hl'⟩ := List.pairwise_cons.1 hl
    have ⟨hb, hm'⟩ := List.pairwise_cons.1 hm
    have hab : a = b := by
      rcases List.mem_cons.1 ((h a).1 List.mem_cons_self) with hab | hab
      · exact hab
      · rcases List.mem_cons.1 ((h b).2 List.mem_cons_self) with hba | hba
        · exact hba.symm
        · exact absurd (hb a hab) (String.lt_asymm (ha b hba))
    subst hab
    congr 1
    refine entries_eq_of_mem_iff hl' hm' fun e => ⟨fun he => ?_, fun he => ?_⟩
    · rcases List.mem_cons.1 ((h e).1 (List.mem_cons_of_mem _ he)) with rfl | h'
      · exact absurd (ha e he) (String.lt_irrefl _)
      · exact h'
    · rcases List.mem_cons.1 ((h e).2 (List.mem_cons_of_mem _ he)) with rfl | h'
      · exact absurd (hb e he) (String.lt_irrefl _)
      · exact h'

/-- Two ledgers with the same look-ups are the same ledger. -/
theorem ext_get? {a b : Ledger α} (h : ∀ key, a.get? key = b.get? key) : a = b := by
  have : a.entries = b.entries :=
    entries_eq_of_mem_iff a.ascending b.ascending fun ⟨k, v⟩ => by
      rw [mem_entries_iff, mem_entries_iff, h]
  cases a; cases b; simp_all

end Ledger

end DeviceScope
