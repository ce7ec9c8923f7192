import DeviceScope.Cache.Refresh

/-!
# Writes one after another

Everything that happens to the records of a cache happens through `Cache.write`. This file tells
what writes do, without saying where they come from:

* `Attempt` — a write that was attempted, and whether the store took it;
* `Cache.writeIf`, `Cache.attempts` — a record written, if there is one, and the log of it;
* `Attempt.replay` — what a log makes of the records, the store left out of account.

The two agree: after a write the records are the replay of its log (`Cache.records_writeIf`), and
logs are put together. What a replay does to one id is then read off the log: the last successful
attempt for the id decides (`Attempt.get?_replay`).

A refresh writes at most one record, and which one is told by the answer of the directory
(`Record.ofAnswer?`, `Cache.settle_snd`).
-/

namespace DeviceScope

variable {σ : Type}

/-! ### Logs of attempted writes -/

/-- A write that was attempted. -/
structure Attempt where
  /-- The record that was to be written. -/
  record : Record
  /-- Whether the store took it. -/
  succeeded : Bool
  deriving DecidableEq, Repr

/-- What a record states, apart from the time at which it does. -/
def Record.statement (record : Record) : String × Entry := (record.id, record.entry)

namespace Attempt

/-- What was to be stated. -/
def statement (attempt : Attempt) : String × Entry := attempt.record.statement

/-- The part of a log that is about some of the ids. -/
def about (p : String → Bool) (log : List Attempt) : List Attempt :=
  log.filter fun attempt => p attempt.record.id

theorem about_cons (p : String → Bool) (attempt : Attempt) (log : List Attempt) :
    about p (attempt :: log) =
      if p attempt.record.id then attempt :: about p log else about p log :=
  List.filter_cons

theorem about_append (p : String → Bool) (log more : List Attempt) :
    about p (log ++ more) = about p log ++ about p more :=
  List.filter_append log more

def lastWritten? (log : List Attempt) : Option Record :=
  (log.filter fun attempt => attempt.succeeded).getLast?.map Attempt.record

/-- What one attempt makes of the records: the record is there if the write succeeded. -/
def enter (records : Ledger Record) (attempt : Attempt) : Ledger Record :=
  if attempt.succeeded then records.insert attempt.record.id attempt.record else records

/-- **What a log makes of the records.** The attempts take effect one after another. -/
def replay (records : Ledger Record) (log : List Attempt) : Ledger Record :=
  log.foldl enter records

@[simp] theorem replay_nil (records : Ledger Record) : replay records [] = records := rfl

@[simp] theorem replay_cons (records : Ledger Record) (attempt : Attempt) (log : List Attempt) :
    replay records (attempt :: log) = replay (attempt.enter records) log := rfl

theorem replay_append (records : Ledger Record) (log more : List Attempt) :
    replay records (log ++ more) = replay (replay records log) more :=
  List.foldl_append

/-- An attempt reaches no other id, and without success not even its own. -/
theorem get?_enter_of_not {records : Ledger Record} {attempt : Attempt} {id : String}
    (h : ¬ (attempt.succeeded = true ∧ attempt.record.id = id)) :
    (attempt.enter records).get? id = records.get? id := by
  rw [enter]
  split
  · next hs => exact Ledger.get?_insert_of_ne _ _ fun heq => h ⟨hs, heq.symm⟩
  · rfl

theorem get?_enter_self {records : Ledger Record} {attempt : Attempt}
    (h : attempt.succeeded = true) :
    (attempt.enter records).get? attempt.record.id = some attempt.record := by
  rw [enter, if_pos h, Ledger.get?_insert_self]

/-- An id that no successful attempt names keeps its record. -/
theorem get?_replay_of_forall_not {records : Ledger Record} {log : List Attempt} {id : String}
    (h : ∀ attempt ∈ log, ¬ (attempt.succeeded = true ∧ attempt.record.id = id)) :
    (replay records log).get? id = records.get? id := by
  induction log generalizing records with
  | nil => rfl
  | cons attempt log ih =>
    rw [replay_cons, ih fun a ha => h a (List.mem_cons_of_mem _ ha)]
    exact get?_enter_of_not (h attempt List.mem_cons_self)

/-- **Where a record comes from.** A replay leaves the record of an id, or a successful attempt has
written the one that is there. -/
theorem get?_replay_cases (records : Ledger Record) (log : List Attempt) (id : String) :
    (replay records log).get? id = records.get? id ∨
      ∃ attempt ∈ log, attempt.succeeded = true ∧ attempt.record.id = id ∧
        (replay records log).get? id = some attempt.record := by
  induction log generalizing records with
  | nil => exact .inl rfl
  | cons attempt log ih =>
    rw [replay_cons]
    rcases ih (attempt.enter records) with hsame | ⟨a, ha, hs, hid, hget⟩
    · by_cases h : attempt.succeeded = true ∧ attempt.record.id = id
      · obtain ⟨hs, rfl⟩ := h
        rw [get?_enter_self hs] at hsame
        exact .inr ⟨attempt, List.mem_cons_self, hs, rfl, hsame⟩
      · rw [get?_enter_of_not h] at hsame
        exact .inl hsame
    · exact .inr ⟨a, List.mem_cons_of_mem _ ha, hs, hid, hget⟩

theorem lastWritten?_cons (attempt : Attempt) (log : List Attempt) :
    lastWritten? (attempt :: log) =
      (lastWritten? log).or (if attempt.succeeded then some attempt.record else none) := by
  rw [lastWritten?, lastWritten?, List.filter_cons]
  split
  · rw [List.getLast?_cons]
    cases (log.filter fun attempt => attempt.succeeded).getLast? <;> rfl
  · rw [Option.or_none]

theorem lastWritten?_append (log more : List Attempt) :
    lastWritten? (log ++ more) = (lastWritten? more).or (lastWritten? log) := by
  rw [lastWritten?, lastWritten?, lastWritten?, List.filter_append, List.getLast?_append]
  cases (more.filter fun attempt => attempt.succeeded).getLast? <;> rfl

/-- **The record of an id after a replay** is the one that was written last for it. -/
theorem get?_replay (records : Ledger Record) (log : List Attempt) (id : String) :
    (replay records log).get? id =
      (lastWritten? (about (· = id) log)).or (records.get? id) := by
  -- An attempt counts only if none behind it is for the same id and has succeeded.
  induction log generalizing records with
  | nil => rfl
  | cons attempt log ih =>
    rw [replay_cons, ih, about_cons]
    by_cases hid : attempt.record.id = id
    · rw [if_pos (decide_eq_true hid), lastWritten?_cons, Option.or_assoc]
      congr 1
      split
      · next hs =>
        rw [← hid, get?_enter_self hs]
        rfl
      · next hs => exact get?_enter_of_not fun h => hs h.1
    · rw [if_neg (by simpa using hid), get?_enter_of_not fun h => hid h.2]

/-- Where a log names each id once, the attempt that names an id decides its record. -/
theorem get?_replay_of_mem {records : Ledger Record} {log : List Attempt} {attempt : Attempt}
    (hnodup : (log.map fun a => a.record.id).Nodup) (hmem : attempt ∈ log) :
    (replay records log).get? attempt.record.id =
      if attempt.succeeded then some attempt.record else records.get? attempt.record.id := by
  induction log generalizing records with
  | nil => exact absurd hmem List.not_mem_nil
  | cons first log ih =>
    rw [List.map_cons, List.nodup_cons] at hnodup
    obtain ⟨hfirst, hrest⟩ := hnodup
    rw [replay_cons]
    rcases List.mem_cons.1 hmem with rfl | hmem
    · -- No later attempt names the id again.
      rw [get?_replay_of_forall_not fun a ha h => hfirst (List.mem_map.2 ⟨a, ha, h.2⟩)]
      split
      · next hs => exact get?_enter_self hs
      · next hs => exact get?_enter_of_not fun h => hs h.1
    · rw [ih hrest hmem]
      split
      · rfl
      · refine get?_enter_of_not fun h => hfirst ?_
        exact List.mem_map.2 ⟨attempt, hmem, h.2.symm⟩

/-- No record is lost in a replay. -/
theorem contains_replay {records : Ledger Record} {id : String} (log : List Attempt)
    (h : records.contains id = true) : (replay records log).contains id = true := by
  rcases get?_replay_cases records log id with hsame | ⟨a, -, -, -, hget⟩
  · rwa [Ledger.contains, hsame]
  · rw [Ledger.contains, hget]
    rfl

end Attempt

namespace Cache

/-! ### One write -/

/-- The cache without its counters of look-ups and of refreshes that failed, on which no write
depends. -/
def uncounted (cache : Cache σ) : Cache σ := { cache with lookups := 0, retained := 0 }

variable [KeyValueStore σ]

def attempt (cache : Cache σ) (record : Record) : Attempt :=
  ⟨record, (cache.write record).1.isOk⟩

@[simp] theorem attempt_record (cache : Cache σ) (record : Record) :
    (cache.attempt record).record = record := rfl

/-- **What a write can do.** Either the record has a text, the store has it now, and so has the
memory; or only the store can have changed, and not in what it keeps. -/
theorem write_cases (cache : Cache σ) (record : Record) :
    (∃ text store, record.encode = .ok text ∧
      KeyValueStore.contents store =
        (KeyValueStore.contents cache.store).insert record.id text ∧
      cache.write record = (.ok (), { cache with
        store
        records := cache.records.insert record.id record
        notifier :=
          announce cache.notifier (announcement? (cache.record? record.id) record) })) ∨
    (∃ error store, KeyValueStore.contents store = KeyValueStore.contents cache.store ∧
      cache.write record = (.error error, { cache with store })) := by
  rw [write]
  cases hencode : record.encode with
  -- Without a text the store is not asked.
  | error error => exact .inr ⟨error, cache.store, rfl, rfl⟩
  | ok text =>
    rcases hput : KeyValueStore.put cache.store record.id text with ⟨result, store⟩
    cases result with
    | error error =>
      -- The store has refused, and keeps what it kept.
      refine .inr ⟨.store error, store, ?_, by simp only [hput]⟩
      have := KeyValueStore.contents_of_put_error cache.store record.id text error (by rw [hput])
      rwa [hput] at this
    | ok =>
      -- The store has the text, so the memory takes the record.
      refine .inl ⟨text, store, rfl, ?_, by simp only [hput]⟩
      have := KeyValueStore.contents_of_put_ok cache.store record.id text (by rw [hput])
      rwa [hput] at this

theorem records_write (cache : Cache σ) (record : Record) :
    (cache.write record).2.records = (cache.attempt record).enter cache.records := by
  rw [attempt, Attempt.enter]
  rcases write_cases cache record with ⟨text, store, -, -, h⟩ | ⟨error, store, -, h⟩ <;>
    rw [h] <;> rfl

/-- A write that got as far as the store put one text there. -/
theorem store_write_cases (cache : Cache σ) (record : Record) :
    (cache.write record).2.store = cache.store ∨
      ∃ text, (cache.write record).2.store =
        (KeyValueStore.put cache.store record.id text).2 := by
  rw [write]
  cases record.encode with
  | error error => exact .inl rfl
  | ok text =>
    refine .inr ⟨text, ?_⟩
    dsimp only
    rcases KeyValueStore.put cache.store record.id text with ⟨_ | _, store⟩ <;> rfl

/-! ### A write, if there is one -/

def writeIf (cache : Cache σ) : Option Record → Cache σ
  | none => cache
  | some record => (cache.write record).2

/-- The log of writing a record, if there is one. -/
def attempts (cache : Cache σ) (record? : Option Record) : List Attempt :=
  (record?.map cache.attempt).toList

theorem attempts_none (cache : Cache σ) : cache.attempts none = [] := rfl

theorem attempts_some (cache : Cache σ) (record : Record) :
    cache.attempts (some record) = [cache.attempt record] := rfl

/-- What is in the log was to be written. -/
theorem eq_of_mem_attempts {cache : Cache σ} {record? : Option Record} {attempt : Attempt}
    (h : attempt ∈ cache.attempts record?) : record? = some attempt.record := by
  obtain ⟨record, rfl, rfl⟩ := Option.map_eq_some_iff.1 (Option.mem_toList.1 h)
  rfl

theorem map_statement_attempts (cache : Cache σ) (record? : Option Record) :
    (cache.attempts record?).map Attempt.statement = (record?.map Record.statement).toList := by
  cases record? <;> rfl

/-- What the log states about some of the ids is told by the record that was to be written. -/
theorem map_statement_about_attempts (p : String → Bool) (cache : Cache σ)
    (record? : Option Record) :
    (Attempt.about p (cache.attempts record?)).map Attempt.statement =
      (record?.toList.filter fun record => p record.id).map Record.statement := by
  cases record? with
  | none => rfl
  | some record =>
    rw [attempts_some, Attempt.about_cons, attempt_record, Option.toList_some, List.filter_cons]
    split <;> rfl

/-- **The records afterwards** are the replay of the log. -/
theorem records_writeIf (cache : Cache σ) (record? : Option Record) :
    (cache.writeIf record?).records =
      Attempt.replay cache.records (cache.attempts record?) := by
  cases record? with
  | none => rfl
  | some record => exact records_write cache record

/-! ### What is counted -/

/-- A write counts neither a look-up nor a refresh that failed, and changes no setting. -/
theorem settings_write (cache : Cache σ) (record : Record) :
    (cache.write record).2.lookups = cache.lookups ∧
      (cache.write record).2.retained = cache.retained ∧
      (cache.write record).2.refreshDelay = cache.refreshDelay := by
  rcases write_cases cache record with ⟨text, store, -, -, h⟩ | ⟨error, store, -, h⟩ <;>
    rw [h] <;> exact ⟨rfl, rfl, rfl⟩

theorem settings_writeIf (cache : Cache σ) (record? : Option Record) :
    (cache.writeIf record?).lookups = cache.lookups ∧
      (cache.writeIf record?).retained = cache.retained ∧
      (cache.writeIf record?).refreshDelay = cache.refreshDelay := by
  cases record? with
  | none => exact ⟨rfl, rfl, rfl⟩
  | some record => exact settings_write cache record

end Cache

/-! ### The record that an answer asks for -/

/-- The record that an answer of the directory asks for: none if it says nothing about the id. -/
def Record.ofAnswer? (id : String) (answer : Except DirectoryError (Option Identity))
    (now : Timestamp) : Option Record :=
  match answer with
  | .ok (some identity) => some (.present identity now)
  | .ok none | .error (.invalidState _ _) => some (.absent id now)
  | .error _ => none

namespace Cache

variable [KeyValueStore σ]

/-- Settling an answer writes the record that it asks for, and nothing else. -/
theorem settle_snd (cache : Cache σ) (id : String)
    (answer : Except DirectoryError (Option Identity)) (now : Timestamp) :
    (cache.settle id answer now).2 = cache.writeIf (Record.ofAnswer? id answer now) := by
  rcases answer with error | identity
  · cases error <;> rfl
  · cases identity <;> rfl

/-- A refresh that ends writes the record that the answer asks for, and counts. -/
theorem conclude_snd_uncounted (cache : Cache σ) (id : String)
    (answer : Except DirectoryError (Option Identity)) (now : Timestamp) :
    (cache.conclude id answer now).2.uncounted =
      (cache.writeIf (Record.ofAnswer? id answer now)).uncounted := by
  rw [← settle_snd, conclude]
  split
  · next h => rw [h]
  · next h => rw [h]; rfl

/-- The end of a refresh counts no look-up: that was done when it began. -/
theorem lookups_conclude (cache : Cache σ) (id : String)
    (answer : Except DirectoryError (Option Identity)) (now : Timestamp) :
    (cache.conclude id answer now).2.lookups = cache.lookups := by
  have hsettle : (cache.settle id answer now).2.lookups = cache.lookups := by
    rw [settle_snd]
    exact (settings_writeIf cache _).1
  rw [← hsettle, conclude]
  split <;> next h => rw [h]

/-- An answer that was settled has changed the record. -/
theorem ne_retained_of_settle {cache : Cache σ} {id : String}
    {answer : Except DirectoryError (Option Identity)} {now : Timestamp} {outcome : RefreshOutcome}
    (h : (cache.settle id answer now).1 = .ok outcome) : outcome ≠ .retained := by
  -- Each kind of answer is settled with an outcome of its own.
  have hmap : ∀ (result : Except ScopeError Unit) (settled : RefreshOutcome),
      (result.map fun _ => settled) = .ok outcome → settled = outcome := by
    intro result settled hresult
    cases result with
    | error error => exact absurd hresult (by simp [Except.map])
    | ok => exact Except.ok.inj hresult
  rw [settle.eq_def] at h
  split at h
  · rw [← hmap _ _ h]
    decide
  · rw [← hmap _ _ h]
    decide
  · rw [← hmap _ _ h]
    decide
  · exact absurd h (by simp)

/-- **A refresh that failed is counted**, and no other. -/
theorem retained_conclude (cache : Cache σ) (id : String)
    (answer : Except DirectoryError (Option Identity)) (now : Timestamp) :
    (cache.conclude id answer now).2.retained =
      cache.retained + if (cache.conclude id answer now).1 = .retained then 1 else 0 := by
  have hsettle : (cache.settle id answer now).2.retained = cache.retained := by
    rw [settle_snd]
    exact (settings_writeIf cache _).2.1
  rw [conclude]
  split
  · next outcome settled h =>
    have hkept : outcome ≠ .retained :=
      ne_retained_of_settle (congrArg Prod.fst h)
    rw [h] at hsettle
    rw [if_neg hkept]
    exact hsettle
  · next error settled h =>
    rw [h] at hsettle
    rw [if_pos rfl]
    exact congrArg (· + 1) hsettle

/-- **What comes of a refresh**: what the record says that was written, or that the old one was
retained. -/
theorem conclude_fst (cache : Cache σ) (id : String)
    (answer : Except DirectoryError (Option Identity)) (now : Timestamp) :
    (cache.conclude id answer now).1 =
      match Record.ofAnswer? id answer now with
      | none => .retained
      | some record =>
        if (cache.attempt record).succeeded then
          if record.entry.isPresent then .inScope else .outOfScope
        else .retained := by
  have hwrite : ∀ (record : Record) (outcome : RefreshOutcome),
      cache.settle id answer now =
        ((cache.write record).1.map fun _ => outcome, (cache.write record).2) →
      (cache.conclude id answer now).1 =
        if (cache.attempt record).succeeded then outcome else .retained := by
    intro record outcome hsettle
    rw [conclude, hsettle, attempt]
    cases (cache.write record).1 <;> rfl
  rcases answer with error | identity
  · cases error with
    | invalidState _ _ => exact hwrite (.absent id now) .outOfScope rfl
    | _ => rfl
  · cases identity with
    | none => exact hwrite (.absent id now) .outOfScope rfl
    | some identity => exact hwrite (.present identity now) .inScope rfl

end Cache

end DeviceScope
