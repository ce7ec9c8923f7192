import DeviceScope.Proofs.Cache.Writing
import DeviceScope.Proofs.Ledger
import DeviceScope.Proofs.Record.Form

/-!
# Records as the mirror of a store

`Cache.Mirrors` — the records of a cache are the entries of its store that can be read as records,
no more and no less. It holds when the cache is made (`Cache.mirrors_bootstrap`), and every write
keeps it, whether it succeeds or not (`Cache.Mirrors.write`). For a write that succeeds this is
because reading a record undoes writing it (`Record.decode_encode`).

The records are determined by what the store keeps (`Cache.Mirrors.unique`). So a cache that is made
afresh over the same store has the same ones (`Cache.Mirrors.isRestoredFrom`).
-/

namespace DeviceScope.Cache

variable {σ : Type}

/-- **The records are what can be read of the contents of a store.** -/
def Mirrors (records : Ledger Record) (contents : Ledger String) : Prop :=
  ∀ key record, records.get? key = some record ↔
    ∃ text, contents.get? key = some text ∧ Record.decode key text = .ok record

/-- Contents have one mirror. -/
theorem Mirrors.unique {a b : Ledger Record} {contents : Ledger String} (ha : Mirrors a contents)
    (hb : Mirrors b contents) : a = b := by
  refine Ledger.ext_get? ?_
  intro key
  refine Option.ext ?_
  intro record
  rw [ha key record, hb key record]

/-- A record that is put under its id, as the text that it is stored as, is mirrored. -/
theorem Mirrors.insert {records : Ledger Record} {contents : Ledger String} {record : Record}
    {text : String} (h : Mirrors records contents) (hencode : record.encode = .ok text) :
    Mirrors (records.insert record.id record) (contents.insert record.id text) := by
  intro key found
  rw [Ledger.get?_insert, Ledger.get?_insert]
  by_cases hkey : key = record.id
  -- Under this id the text is found, and it is read back as the record.
  · rw [if_pos hkey, if_pos hkey, hkey]
    constructor
    · intro hfound
      obtain rfl := Option.some.inj hfound
      exact ⟨text, rfl, Record.decode_encode hencode⟩
    · rintro ⟨_, htext, hdecode⟩
      obtain rfl := Option.some.inj htext
      rw [Record.decode_encode hencode] at hdecode
      rw [Except.ok.inj hdecode]
  -- Under any other id nothing has changed, neither here nor there.
  · rw [if_neg hkey, if_neg hkey]
    exact h key found

/-- **A write keeps the mirror**, whether it succeeds or not. -/
theorem Mirrors.write [KeyValueStore σ] {cache : Cache σ} (record : Record)
    (h : Mirrors cache.records (KeyValueStore.contents cache.store)) :
    Mirrors (cache.write record).2.records
      (KeyValueStore.contents (cache.write record).2.store) := by
  rcases write_cases cache record with
    ⟨text, store, hencode, hcontents, hwrite⟩ | ⟨error, store, hcontents, hwrite⟩
  -- Store and memory have both taken the record.
  · rw [hwrite]
    dsimp only
    rw [hcontents]
    exact h.insert hencode
  · rw [hwrite]
    dsimp only
    rw [hcontents]
    exact h

/-! ### Reading the entries of a store -/

/-- Where keys ascend, the first one does not come again. -/
theorem key_ne_of_ascending {entry : String × String} {rest : List (String × String)}
    (h : ∀ e ∈ rest, entry.1 < e.1) : ∀ e ∈ rest, e.1 ≠ entry.1 := by
  intro e he heq
  have hlt := h e he
  rw [heq] at hlt
  exact String.lt_irrefl _ hlt

/-- Taking in entries whose keys ascend: a key has the record that its entry can be read as. -/
theorem get?_foldl_takeEntry {entries : List (String × String)}
    (hascending : entries.Pairwise (·.1 < ·.1)) (found : Ledger Record × Nat)
    (hfresh : ∀ entry ∈ entries, found.1.get? entry.1 = none) (key : String) :
    (entries.foldl takeEntry found).1.get? key =
      match Ledger.findEntry key entries with
      | some text => (Record.decode key text).toOption
      | none => found.1.get? key := by
  induction entries generalizing found with
  | nil => rfl
  | cons entry rest ih =>
    obtain ⟨hentry, hrest⟩ := List.pairwise_cons.1 hascending
    have hne := key_ne_of_ascending hentry
    -- The first entry touches no other key.
    have hother : ∀ k, k ≠ entry.1 → (takeEntry found entry).1.get? k = found.1.get? k := by
      intro k hk
      rw [takeEntry]
      split
      · exact Ledger.get?_insert_of_ne _ _ hk
      · rfl
    rw [List.foldl_cons, ih hrest, Ledger.findEntry]
    · by_cases hkey : key = entry.1
      · -- No later entry has the key again, so the record is the one of this entry.
        subst hkey
        rw [if_pos rfl, Ledger.findEntry_eq_none hne, takeEntry]
        dsimp only
        split
        · next record hdecode => rw [hdecode, Ledger.get?_insert_self]; rfl
        · next error hdecode =>
          rw [hdecode]
          exact hfresh entry List.mem_cons_self
      · rw [if_neg hkey, hother key hkey]
    · intro e he
      rw [hother _ (hne e he)]
      exact hfresh e (List.mem_cons_of_mem _ he)

/-- Every entry that is taken in is a record or is counted as none. -/
theorem size_foldl_takeEntry {entries : List (String × String)}
    (hascending : entries.Pairwise (·.1 < ·.1)) (found : Ledger Record × Nat)
    (hfresh : ∀ entry ∈ entries, found.1.get? entry.1 = none) :
    (entries.foldl takeEntry found).1.size + (entries.foldl takeEntry found).2 =
      found.1.size + found.2 + entries.length := by
  induction entries generalizing found with
  | nil => rfl
  | cons entry rest ih =>
    obtain ⟨hentry, hrest⟩ := List.pairwise_cons.1 hascending
    have hnew : found.1.get? entry.1 = none := hfresh entry List.mem_cons_self
    -- Its key is new, so a record makes one more, and what is no record is counted.
    have hcount : (takeEntry found entry).1.size + (takeEntry found entry).2 =
        found.1.size + found.2 + 1 := by
      rw [takeEntry]
      split
      · dsimp only
        rw [Ledger.size_insert_of_get?_eq_none _ hnew]
        omega
      · dsimp only
        omega
    rw [List.foldl_cons, ih hrest, hcount, List.length_cons]
    · omega
    · intro e he
      have hne := key_ne_of_ascending hentry e he
      rw [takeEntry]
      split
      · dsimp only
        rw [Ledger.get?_insert_of_ne _ _ hne]
        exact hfresh e (List.mem_cons_of_mem _ he)
      · exact hfresh e (List.mem_cons_of_mem _ he)

/-- **What is read of a store mirrors it.** -/
theorem mirrors_bootstrap (contents : Ledger String) :
    Mirrors (bootstrap contents.entries).1 contents := by
  intro key record
  have hget : (bootstrap contents.entries).1.get? key =
      match contents.get? key with
      | some text => (Record.decode key text).toOption
      | none => none :=
    get?_foldl_takeEntry contents.ascending _ (fun _ _ => rfl) key
  rw [hget]
  cases contents.get? key with
  | none => simp
  | some text =>
    cases hdecode : Record.decode key text with
    | error error => simp [Except.toOption, hdecode]
    | ok found => simp [Except.toOption, hdecode]

theorem size_bootstrap (contents : Ledger String) :
    (bootstrap contents.entries).1.size + (bootstrap contents.entries).2 = contents.size := by
  rw [bootstrap, size_foldl_takeEntry contents.ascending _ (fun _ _ => rfl)]
  exact Nat.zero_add _

/-! ### Making a cache -/

/-- A cache that was made holds what could be read of its store. -/
theorem eq_of_create [KeyValueStore σ] {store : σ} {config : Config} {cache : Cache σ}
    (h : create store config = .ok cache) :
    cache.store = store ∧
      cache.records = (bootstrap (KeyValueStore.contents store).entries).1 := by
  rw [create] at h
  split at h
  · exact absurd h (by simp)
  · split at h
    · exact absurd h (by simp)
    · next entries hentries =>
      obtain rfl := KeyValueStore.eq_of_entries_ok store entries hentries
      rw [← Except.ok.inj h]
      exact ⟨rfl, rfl⟩

theorem mirrors_of_create [KeyValueStore σ] {store : σ} {config : Config} {cache : Cache σ}
    (h : create store config = .ok cache) :
    Mirrors cache.records (KeyValueStore.contents cache.store) := by
  obtain ⟨hstore, hrecords⟩ := eq_of_create h
  rw [hstore, hrecords]
  exact mirrors_bootstrap _

/-- **A cache is restored from a store** if every cache that is made over it has the same records,
and counts each entry of the store, the records apart from the others. One can be made if the
settings hold and the store can be walked. -/
def IsRestoredFrom [KeyValueStore σ] (old : Cache σ) (store : σ) : Prop :=
  ∀ config entries, config.validate = .ok () → KeyValueStore.entries store = .ok entries →
    ∃ fresh, create store config = .ok fresh ∧ fresh.records = old.records ∧
      fresh.bootstrapped = old.records.size ∧
      fresh.bootstrapped + fresh.skipped = entries.length

/-- A cache whose records mirror its store is restored from it. -/
theorem Mirrors.isRestoredFrom [KeyValueStore σ] {cache : Cache σ} {store : σ}
    (h : Mirrors cache.records (KeyValueStore.contents store)) : cache.IsRestoredFrom store := by
  intro config entries hconfig hentries
  obtain rfl := KeyValueStore.eq_of_entries_ok store entries hentries
  have hrecords : (bootstrap (KeyValueStore.contents store).entries).1 = cache.records :=
    (mirrors_bootstrap _).unique h
  rw [create, hconfig]
  dsimp only
  rw [hentries]
  refine ⟨_, rfl, hrecords, ?_, size_bootstrap _⟩
  dsimp only
  rw [hrecords]

end DeviceScope.Cache
