import DeviceScope.Proofs.Cache.Presence
import DeviceScope.Proofs.Directory.Memory
import DeviceScope.Proofs.Service.Answering

/-!
# Whose identity is handed out

A call may ask for the identity of an id, or whether the id may connect (`Call.AsksFor`). What is
written of an identity is always written under its own id (`Record.HoldsOwn`,
`World.holdsOwn_of_write?`), so an id that has been written is answered with its own identity.

What was found in the store is another matter. `Record.decode` compares the id of a record with the
key under which it lies, but not with the identity that it holds. If these differ, the id is
answered with the identity of another one until it is written for the first time
(`World.handed_out_own_or_found`).
-/

namespace DeviceScope

variable {σ : Type}

/-- The identity that is kept in the record, if any, is the one of its id. -/
def Record.HoldsOwn (record : Record) : Prop :=
  ∀ identity, record.identity? = some identity → identity.id = record.id

theorem Record.holdsOwn_present (identity : Identity) (now : Timestamp) :
    (Record.present identity now).HoldsOwn := by
  intro held hheld
  obtain rfl : identity = held := Option.some.inj hheld
  rfl

theorem Record.holdsOwn_absent (id : String) (now : Timestamp) : (Record.absent id now).HoldsOwn :=
  fun _ hheld => absurd hheld (by simp [Record.identity?, Record.absent, Entry.identity?])

theorem Record.holdsOwn_of_ofAnswer? {id : String}
    {answer : Except DirectoryError (Option Identity)} {now : Timestamp} {record : Record}
    (h : Record.ofAnswer? id answer now = some record) : record.HoldsOwn := by
  -- The directory may name any identity: it is written under the id that this one has.
  rw [Record.ofAnswer?.eq_def] at h
  split at h
  · rw [← Option.some.inj h]
    exact holdsOwn_present _ _
  · rw [← Option.some.inj h]
    exact holdsOwn_absent _ _
  · rw [← Option.some.inj h]
    exact holdsOwn_absent _ _
  · exact absurd h (by simp)

/-- **The store keeps the identity of another one** under an id, in a text that is read as a record
of this id. -/
def Cache.KeepsForeign [KeyValueStore σ] (store : σ) (id : String) (identity : Identity) : Prop :=
  identity.id ≠ id ∧ ∃ text record, (KeyValueStore.contents store).get? id = some text ∧
    Record.decode id text = .ok record ∧ record.identity? = some identity

/-- What the store keeps is known to a cache that is made over it. -/
theorem Cache.KeepsForeign.identity?_of_create [KeyValueStore σ] {store : σ} {config : Config}
    {cache : Cache σ} {id : String} {identity : Identity} (h : KeepsForeign store id identity)
    (hcreate : Cache.create store config = .ok cache) : cache.identity? id = some identity := by
  obtain ⟨-, text, record, htext, hdecode, hidentity⟩ := h
  have hmirrors := mirrors_of_create hcreate
  rw [(eq_of_create hcreate).1] at hmirrors
  have hrecord : cache.record? id = some record := (hmirrors id record).2 ⟨text, htext, hdecode⟩
  exact Option.bind_eq_some_iff.2 ⟨record, hrecord, hidentity⟩

/-- The call asks for the identity of an id, or whether the id may connect. -/
inductive Call.AsksFor (id : String) : Call → Prop where
  | get (refreshIfAbsent : Bool) : AsksFor id (.get id refreshIfAbsent)
  | verify (refreshIfStale : Bool) : AsksFor id (.verify id refreshIfStale)

/-- The identity that a reply hands out. -/
def Reply.identity? : Reply → Option Identity
  | .got identity => identity
  | .verified (.ok identity) => some identity
  | _ => none

theorem Reply.eq_ok_of_identity? {decision : Except ScopeError Identity} {identity : Identity}
    (h : (Reply.verified decision).identity? = some identity) : decision = .ok identity := by
  cases decision with
  | ok found => rw [Option.some.inj h]
  | error error => exact absurd h (by simp [Reply.identity?])

/-- How far a call can have come that asks for an id and hands out nothing but what has a
property. -/
def CallStage.Serves (id : String) (P : Identity → Prop) : CallStage → Prop
  | .begun call => call.AsksFor id
  | .asking asked purpose _ | .heard asked purpose _ | .concluded asked purpose _ =>
    asked = id ∧ (purpose = .get ∨ purpose = .verify)
  | .cycling _ => False
  | .done reply => ∀ identity, reply.identity? = some identity → P identity

namespace World

variable [FallibleStore σ]

/-- **The call may be answered with an identity.** After some events it comes in, and then anything
happens until it has its reply. -/
def Hands (start : World σ) (log : List Attempt) (call : Call) (identity : Identity) : Prop :=
  ∃ before more later reply, Course anything start log before ∧
    Course anything (before.begin call) more later ∧
    later.reply? before.tasks.length = some reply ∧ reply.identity? = some identity

/-! ### What is written -/

omit [FallibleStore σ] in
theorem holdsOwn_of_cycleWrite? {world : World σ} {stage : CycleStage} {record : Record}
    (h : world.cycleWrite? stage = some record) : record.HoldsOwn := by
  cases stage with
  | queued => exact absurd h (by simp [cycleWrite?])
  | walking cycle =>
    obtain ⟨identity, -, rfl⟩ := Option.map_eq_some_iff.1 h
    exact Record.holdsOwn_present _ _
  | marking report gone =>
    obtain ⟨id, -, rfl⟩ := Option.map_eq_some_iff.1 h
    exact Record.holdsOwn_absent _ _

omit [FallibleStore σ] in
theorem holdsOwn_of_callWrite? {world : World σ} {stage : CallStage} {record : Record}
    (h : world.callWrite? stage = some record) : record.HoldsOwn := by
  rw [callWrite?.eq_def] at h
  split at h
  · rw [← Option.some.inj h]
    exact Record.holdsOwn_present _ _
  · rw [← Option.some.inj h]
    exact Record.holdsOwn_absent _ _
  · exact Record.holdsOwn_of_ofAnswer? h
  · exact holdsOwn_of_cycleWrite? h
  all_goals exact absurd h (by simp)

omit [FallibleStore σ] in
/-- **An identity is written under its own id**, whoever writes it. -/
theorem holdsOwn_of_write? {world : World σ} {event : Event σ} {record : Record}
    (h : world.write? event = some record) : record.HoldsOwn := by
  -- Only calls and the cycles of the loop write.
  cases event with
  | goOn who =>
    obtain ⟨task, -, htask⟩ := Option.bind_eq_some_iff.1 h
    cases task with
    | call stage => exact holdsOwn_of_callWrite? htask
    | loop stage =>
      cases stage with
      | cycling stage => exact holdsOwn_of_cycleWrite? htask
      | _ => exact absurd htask (by simp [taskWrite?])
    | supervisor stage => exact absurd htask (by simp [taskWrite?])
  | _ => exact absurd h (by simp [write?])

section Along

variable {allowed : World σ → Event σ → Prop} {start world : World σ} {log : List Attempt}
  {id : String} {identity : Identity}

theorem Course.holdsOwn (h : Course allowed start log world) {attempt : Attempt}
    (hmem : attempt ∈ log) : attempt.record.HoldsOwn := by
  induction h with
  | here => exact absurd hmem List.not_mem_nil
  | next _ _ _ ih =>
    rcases List.mem_append.1 hmem with hbefore | hnow
    · exact ih hbefore
    · exact holdsOwn_of_write? (Cache.eq_of_mem_attempts hnow)

/-- **What is held under an id** that is not its own was held under it from the beginning, and no
write for the id has succeeded. -/
theorem Course.foreign (h : Course allowed start log world)
    (hidentity : world.cache.identity? id = some identity) (hforeign : identity.id ≠ id) :
    start.cache.identity? id = some identity ∧
      ∀ attempt ∈ log, attempt.record.id = id → attempt.succeeded = false := by
  obtain ⟨record, hrecord, hheld⟩ := Option.bind_eq_some_iff.1 hidentity
  rw [Cache.record?, h.records_eq, Attempt.get?_replay] at hrecord
  -- The record that was written last for the id would hold the identity of the id.
  cases hlast : Attempt.lastWritten? (Attempt.about (· = id) log) with
  | some written =>
    exfalso
    rw [hlast, Option.some_or] at hrecord
    obtain rfl := Option.some.inj hrecord
    obtain ⟨attempt, hattempt, rfl⟩ := Option.map_eq_some_iff.1 hlast
    have habout := (List.mem_filter.1 (List.mem_of_getLast? hattempt)).1
    obtain ⟨hmem, hid⟩ := List.mem_filter.1 habout
    have hown := h.holdsOwn hmem identity hheld
    rw [of_decide_eq_true hid] at hown
    exact hforeign hown
  | none =>
    rw [hlast, Option.none_or] at hrecord
    refine ⟨Option.bind_eq_some_iff.2 ⟨record, hrecord, hheld⟩, ?_⟩
    intro attempt hmem hid
    have habout : attempt ∈ Attempt.about (· = id) log :=
      List.mem_filter.2 ⟨hmem, decide_eq_true hid⟩
    have hnone := Option.map_eq_none_iff.1 hlast
    rw [List.getLast?_eq_none_iff, List.filter_eq_nil_iff] at hnone
    exact Bool.eq_false_iff.2 (hnone attempt habout)

end Along

/-! ### What is handed out -/

/-- A call that asks for an id hands out what is held under it when it replies. -/
theorem serves_callStep {world : World σ} {who : Nat} {stage : CallStage} {id : String}
    {P : Identity → Prop} (h : stage.Serves id P)
    (hheld : ∀ identity, world.cache.identity? id = some identity → P identity) :
    (world.callStep who stage).1.Serves id P := by
  have hdecided : ∀ identity,
      (Reply.verified (world.cache.decide id)).identity? = some identity → P identity := by
    intro identity hidentity
    have hdecide := Reply.eq_ok_of_identity? hidentity
    exact hheld identity (Cache.decide_eq_ok_iff.1 hdecide).1
  -- A call replies when it has begun, or when it has concluded a look-up.
  cases stage with
  | begun call =>
    rw [callStep]
    cases h with
    | get refreshIfAbsent =>
      rw [beginCall]
      split
      · exact ⟨rfl, .inl rfl⟩
      · exact hheld
    | verify refreshIfStale =>
      rw [beginCall]
      split
      · exact ⟨rfl, .inr rfl⟩
      · exact hdecided
  | asking asked purpose due => exact h
  | heard asked purpose answer => exact h
  | concluded asked purpose outcome =>
    obtain ⟨rfl, rfl | rfl⟩ := h
    · exact hheld
    · exact hdecided
  | cycling stage => exact absurd h fun h => h
  | done reply => exact h

/-- A call that asks for an id hands out what is held under it at some moment from then on. -/
theorem Course.serves {allowed : World σ → Event σ → Prop} {before world : World σ} {call : Call}
    {log : List Attempt} {id : String} {P : Identity → Prop}
    (h : Course allowed (before.begin call) log world) (hcall : call.AsksFor id)
    (hheld : ∀ more later, Course allowed (before.begin call) more later →
      ∀ identity, later.cache.identity? id = some identity → P identity) :
    ∃ stage, world.tasks[before.tasks.length]? = some (.call stage) ∧ stage.Serves id P := by
  refine h.stage_induction (P := fun _ _ stage => stage.Serves id P) (task_begin before call) hcall
    ?_ ?_
  · intro log world stage hcourse _ _ hserves
    exact serves_callStep hserves (hheld _ _ hcourse)
  · intro _ _ _ _ _ _ _ _ hserves
    exact hserves

/-- What is held under an id is handed out to a call that asks for nothing else. -/
theorem hands_of_identity? {start : World σ} {id : String} {identity : Identity}
    (h : start.cache.identity? id = some identity) :
    start.Hands [] (.get id false) identity ∧
      (identity.isEnabled = true → start.Hands [] (.verify id false) identity) := by
  have hserved : ∀ call, Course anything (start.begin call) _ (start.serve call) :=
    fun call => Course.here.goOn _ trivial (isReady_begin start call)
  constructor
  · refine ⟨start, _, _, .got (some identity), .here, hserved _, ?_, rfl⟩
    rw [reply?_eq_some_iff, task_serve, beginCall, Bool.false_and, if_neg (by decide), ← h]
    rfl
  · intro henabled
    refine ⟨start, _, _, .verified (.ok identity), .here, hserved _, ?_, rfl⟩
    exact verdict?_eq_ok_iff.2 ⟨h, henabled⟩

/-- **An id is answered with its own identity, or with one that was found in the store.** Let a
cache be made over any store, and let anything happen. An identity that is handed out for an id and
is not its own was kept under this id by the store when the cache was made, and no write for the id
has succeeded since. What the store keeps is handed out until then. -/
theorem handed_out_own_or_found {store : σ} {config : Config} {cache : Cache σ} (clock : Int)
    (directory : Directory) (hcreate : Cache.create store config = .ok cache) :
    (∀ log call id identity, Call.AsksFor id call →
      (World.start clock directory cache config).Hands log call identity → identity.id ≠ id →
      Cache.KeepsForeign store id identity ∧
        ∀ attempt ∈ log, attempt.record.id = id → attempt.succeeded = false) ∧
    (∀ id identity, Cache.KeepsForeign store id identity →
      (World.start clock directory cache config).Hands [] (.get id false) identity ∧
        (identity.isEnabled = true →
          (World.start clock directory cache config).Hands [] (.verify id false) identity)) := by
  constructor
  · rintro log call id identity hcall ⟨before, more, later, reply, hbefore, hlater, hreply, hhanded⟩
      hforeign
    -- Whatever is held under the id from now on and is not its own was held there before.
    obtain ⟨stage, htask, hserves⟩ := hlater.serves hcall
      (P := fun identity => identity.id ≠ id → before.cache.identity? id = some identity)
      fun _ _ hcourse _ hheld hne => (hcourse.foreign hheld hne).1
    obtain rfl := stage_eq_of_reply? hreply htask
    have hheld := hserves identity hhanded hforeign
    -- And it was held there from the beginning, so it was read from the store.
    obtain ⟨hfound, hunwritten⟩ := hbefore.foreign hheld hforeign
    refine ⟨⟨hforeign, ?_⟩, hunwritten⟩
    obtain ⟨record, hrecord, hidentity⟩ := Option.bind_eq_some_iff.1 hfound
    have hmirrors := Cache.mirrors_of_create hcreate
    rw [(Cache.eq_of_create hcreate).1] at hmirrors
    obtain ⟨text, htext, hdecode⟩ := (hmirrors id record).1 hrecord
    exact ⟨text, record, htext, hdecode, hidentity⟩
  · intro id identity hkeeps
    exact hands_of_identity? (hkeeps.identity?_of_create hcreate)

/-! ### A record that holds the identity of another id -/

namespace Misfiled

/-- The record of one device with the identity of another. -/
def record : Record := ⟨"a", .present (.ofDevice "b" "1" .none .enabled), .utc 0⟩

/-- A store that keeps a text under the id of the one device. -/
def store (text : String) : MemoryStore := .ofEntries ((∅ : Ledger String).insert "a" text)

theorem exists_text : ∃ text, record.encode = .ok text := Record.encode_of_isWritable (by decide)

theorem keepsForeign {text : String} (h : record.encode = .ok text) :
    Cache.KeepsForeign (store text) "a" (.ofDevice "b" "1" .none .enabled) :=
  ⟨by decide, text, record, Ledger.get?_insert_self _ _ _, Record.decode_encode h, rfl⟩

end Misfiled

/-- The device is allowed to connect as the other one, and the store keeps the reason. -/
theorem handed_out_own_or_found_misfiled :
    ∃ (text : String) (cache : Cache MemoryStore),
      Cache.create (Misfiled.store text) .standard = .ok cache ∧
      (World.start 0 .empty cache .standard).Hands [] (.verify "a" false)
        (.ofDevice "b" "1" .none .enabled) ∧
      Cache.KeepsForeign (Misfiled.store text) "a" (.ofDevice "b" "1" .none .enabled) := by
  obtain ⟨text, hencode⟩ := Misfiled.exists_text
  have hcreate : ∃ cache, Cache.create (Misfiled.store text) .standard = .ok cache := ⟨_, rfl⟩
  obtain ⟨cache, hcreate⟩ := hcreate
  obtain ⟨hown, hfound⟩ := handed_out_own_or_found 0 .empty hcreate
  have hhands := (hfound "a" _ (Misfiled.keepsForeign hencode)).2 rfl
  exact ⟨text, cache, hcreate, hhands, (hown [] _ "a" _ (.verify false) hhands (by decide)).1⟩

/-- **An id may be answered with the identity of another one**, over a directory in memory. -/
theorem not_always_answered_with_own :
    ¬ ∀ (store : MemoryStore) (config : Config) (cache : Cache MemoryStore) (clock : Int)
      (directory : Directory) (log : List Attempt) (call : Call) (id : String)
      (identity : Identity), Cache.create store config = .ok cache → directory.InMemory →
      Call.AsksFor id call → (World.start clock directory cache config).Hands log call identity →
      identity.id = id := by
  intro h
  obtain ⟨text, hencode⟩ := Misfiled.exists_text
  have hcreate : ∃ cache, Cache.create (Misfiled.store text) .standard = .ok cache := ⟨_, rfl⟩
  obtain ⟨cache, hcreate⟩ := hcreate
  let start : World MemoryStore := .start 0 .empty cache .standard
  have hheld : start.cache.identity? "a" = some (.ofDevice "b" "1" .none .enabled) :=
    (Misfiled.keepsForeign hencode).identity?_of_create hcreate
  have hhands := (hands_of_identity? hheld).1
  have hid := h _ _ _ _ _ _ _ "a" _ hcreate .empty (.get false) hhands
  exact absurd hid (by decide)

end World

end DeviceScope
