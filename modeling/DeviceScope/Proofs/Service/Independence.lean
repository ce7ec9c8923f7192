import DeviceScope.Proofs.Service.Agreement
import DeviceScope.Proofs.Service.Supervision

/-!
# Independent writes

Writes are asked of a gateway (`WriteRequest`): that an identity is in scope, that an id is out of
it, or that an id is looked up and the answer written. A `World.Executes` is a course on which some
of them come in, in a given order, and go on until all have their replies. They may come one after
another or all at once, and then the steps of one may lie between those of another.

If they concern different ids, each writes one record, under its own id, that says what was
requested or what the directory holds (`World.Executing`), whatever the others do. So the order is
no matter: any two executions of the same requests agree (`World.independent_writes_commute`).
-/

namespace DeviceScope

variable {σ : Type}

/-- A write that the gateway is asked for. -/
inductive WriteRequest where
  | update (identity : Identity)
  | removal (id : String)
  | refresh (id : String)
  deriving DecidableEq

namespace WriteRequest

def call : WriteRequest → Call
  | .update identity => .update identity
  | .removal id => .removal id
  | .refresh id => .refresh id

/-- The id that is to be written. -/
def id : WriteRequest → String
  | .update identity => identity.id
  | .removal id | .refresh id => id

/-- What is to be written of it. -/
def entry (directory : Directory) : WriteRequest → Entry
  | .update identity => .present identity
  | .removal _ => .absent
  | .refresh id => directory.entry id

/-- What is replied if nothing fails. -/
def reply (directory : Directory) : WriteRequest → Reply
  | .update _ | .removal _ => .written (.ok ())
  | .refresh id =>
    .refreshed (if (directory.entry id).isPresent then .inScope else .outOfScope)

def statement (directory : Directory) (request : WriteRequest) : String × Entry :=
  (request.id, request.entry directory)

end WriteRequest

/-- Whether a call for a write has come past it. -/
def CallStage.hasWritten : CallStage → Bool
  | .concluded _ _ _ | .done _ => true
  | .begun _ | .asking _ _ _ | .heard _ _ _ | .cycling _ => false

/-- **The call is for this write**, in any of its stages, and all has gone well so far. -/
def WriteRequest.Follows (directory : Directory) (request : WriteRequest) : CallStage → Prop
  | .begun call => call = request.call
  | .asking id purpose _ => request = .refresh id ∧ purpose = .refresh
  | .heard id purpose answer =>
    request = .refresh id ∧ purpose = .refresh ∧ answer = directory.answer id
  | .concluded id purpose outcome =>
    request = .refresh id ∧ purpose = .refresh ∧ request.reply directory = .refreshed outcome
  | .cycling _ => False
  | .done reply => reply = request.reply directory

namespace Cache

variable [KeyValueStore σ]

/-- A record is written if the store takes everything and the time of the record has a written
form. -/
theorem write_fst_eq_ok {cache : Cache σ} {record : Record}
    (hreliable : KeyValueStore.Reliable cache.store) (hstamp : record.stamp.isWritable = true) :
    (cache.write record).1 = .ok () := by
  obtain ⟨text, hencode⟩ := Record.encode_of_isWritable hstamp
  have hput := hreliable.put_eq_ok record.id text
  rw [write, hencode]
  dsimp only
  cases hresult : KeyValueStore.put cache.store record.id text with
  | mk result store =>
    rw [hresult] at hput
    obtain rfl : result = .ok () := hput
    rfl

theorem succeeded_attempt {cache : Cache σ} {record : Record}
    (hreliable : KeyValueStore.Reliable cache.store) (hstamp : record.stamp.isWritable = true) :
    (cache.attempt record).succeeded = true := by
  rw [attempt, write_fst_eq_ok hreliable hstamp]
  rfl

/-- A reliable store is reliable after a write. -/
theorem reliable_writeIf {cache : Cache σ} (h : KeyValueStore.Reliable cache.store)
    (record? : Option Record) : KeyValueStore.Reliable (cache.writeIf record?).store := by
  cases record? with
  | none => exact h
  | some record =>
    show KeyValueStore.Reliable (cache.write record).2.store
    rcases store_write_cases cache record with hsame | ⟨text, hput⟩
    · rw [hsame]
      exact h
    · rw [hput]
      exact h.put record.id text

end Cache

namespace World

variable [FallibleStore σ]

/-! ### One call -/

section Step

variable {directory : Directory} {request : WriteRequest} {stage : CallStage} {world : World σ}
  {who count : Nat}

omit [FallibleStore σ] in
theorem eq_ok_of_isOk {result : Except ScopeError Unit} (h : result.isOk = true) :
    result = .ok () := by
  cases result with
  | ok => rfl
  | error error => exact absurd h (by simp [Except.isOk, Except.toBool])

/-- **A call for a write, one step later.** It is still for this write, and it writes what it is for
when it comes past it, if that succeeds. -/
theorem follows_callStep (hmemory : directory.InMemory) (hlookups : directory.lookupFailure = none)
    (h : request.Follows directory stage) (hdirectory : world.directory = directory.asked count)
    (hready : world.isTaskReady who (.call stage) = true)
    (hsucceeds : ∀ record, world.callWrite? stage = some record →
      (world.cache.attempt record).succeeded = true) :
    request.Follows directory (world.callStep who stage).1 ∧
      (∃ count, (world.callStep who stage).2.directory = directory.asked count) ∧
      ((world.callWrite? stage).map Record.statement =
        if (world.callStep who stage).1.hasWritten && !stage.hasWritten then
          some (request.statement directory) else none) ∧
      (stage.hasWritten = true → (world.callStep who stage).1.hasWritten = true) := by
  cases stage with
  | begun call =>
    obtain rfl : call = request.call := h
    cases request with
    | update identity =>
      have hdone := eq_ok_of_isOk (hsucceeds _ rfl)
      exact ⟨congrArg Reply.written hdone, ⟨count, hdirectory⟩, rfl, fun _ => rfl⟩
    | removal id =>
      have hdone := eq_ok_of_isOk (hsucceeds _ rfl)
      exact ⟨congrArg Reply.written hdone, ⟨count, hdirectory⟩, rfl, fun _ => rfl⟩
    | refresh id => exact ⟨⟨rfl, rfl⟩, ⟨count, hdirectory⟩, rfl, fun hwritten => hwritten⟩
  | asking id purpose due =>
    obtain ⟨rfl, rfl⟩ := h
    -- The directory answers as it always does, and only counts.
    have hlookup := Directory.lookup_asked hmemory.reachable count id
    refine ⟨⟨rfl, rfl, ?_⟩, ⟨count + 1, ?_⟩, rfl, fun hwritten => hwritten⟩
    · show (world.directory.lookup (.parse id)).1 = _
      rw [hdirectory, hlookup]
    · show (world.directory.lookup (.parse id)).2 = _
      rw [hdirectory, hlookup]
  | heard id purpose answer =>
    obtain ⟨rfl, rfl, rfl⟩ := h
    have hstatement : (Record.ofAnswer? id (directory.answer id) world.now).map Record.statement =
        some (id, directory.entry id) :=
      (Directory.map_statement_ofAnswer? directory id world.now).trans
        (Directory.statement?_eq hmemory hlookups id)
    refine ⟨⟨rfl, rfl, ?_⟩, ⟨count, hdirectory⟩, hstatement, fun _ => rfl⟩
    -- The answer asks for a record, and this is taken.
    obtain ⟨record, hrecord, heq⟩ := Option.map_eq_some_iff.1 hstatement
    have hentry : record.entry = directory.entry id := congrArg Prod.snd heq
    show _ = Reply.refreshed (world.cache.conclude id _ world.now).1
    rw [Cache.conclude_fst, hrecord]
    dsimp only
    rw [if_pos (hsucceeds record hrecord), hentry]
    rfl
  | concluded id purpose outcome =>
    obtain ⟨rfl, rfl, hreply⟩ := h
    exact ⟨hreply.symm, ⟨count, hdirectory⟩, rfl, fun _ => rfl⟩
  | cycling cycle => exact absurd h id
  | done reply => exact absurd hready (by simp [isTaskReady])

end Step

/-! ### All calls -/

/-- **What may happen while writes are asked for**: the next of them comes in, one that came in goes
on, the clock moves, or a subscriber does something. -/
def writing (start : World σ) (requests : List WriteRequest) : World σ → Event σ → Prop :=
  fun world event =>
    match event with
    | .goOn who => start.tasks.length ≤ who
    | .call call =>
      ∃ request, requests[world.tasks.length - start.tasks.length]? = some request ∧
        call = request.call
    | .clock _ | .subscriber _ => True
    | .startService | .requestRefresh | .shutdown | .directory _ | .trouble _ => False

/-- **Writes are asked for in this order, and all have their replies**: this is what was attempted
to be written, and what was told meanwhile. The call for a request has a number by its place. -/
structure Executes (start : World σ) (requests : List WriteRequest) (log : List Attempt)
    (told : List Change) (later : World σ) : Prop where
  chronicle : Chronicle (writing start requests) start log told later
  replied : ∀ index < requests.length,
    ∃ reply, later.reply? (start.tasks.length + index) = some reply

/-- **On the way**: each call is for its own request, and has written under its own id what it is
for, if it has come past this, and nothing else. -/
structure Executing (start : World σ) (requests : List WriteRequest) (log : List Attempt)
    (world : World σ) : Prop where
  directory : ∃ count, world.directory = start.directory.asked count
  reliable : KeyValueStore.Reliable world.cache.store
  length_le : start.tasks.length ≤ world.tasks.length
  requested : ∀ who, start.tasks.length ≤ who → who < world.tasks.length →
    who - start.tasks.length < requests.length
  calls : ∀ index request, requests[index]? = some request →
    world.tasks[start.tasks.length + index]? = none ∧
        Attempt.about (· = request.id) log = [] ∨
      ∃ stage, world.tasks[start.tasks.length + index]? = some (.call stage) ∧
        request.Follows start.directory stage ∧
        (Attempt.about (· = request.id) log).map Attempt.statement =
          if stage.hasWritten then [request.statement start.directory] else []
  logged : ∀ attempt ∈ log, attempt.succeeded = true ∧
    attempt.record.id ∈ requests.map WriteRequest.id

section Executing

variable {start world : World σ} {requests : List WriteRequest} {log : List Attempt}

theorem executing_start (hreliable : KeyValueStore.Reliable start.cache.store)
    (requests : List WriteRequest) : Executing start requests [] start := by
  refine ⟨⟨0, rfl⟩, hreliable, Nat.le_refl _, ?_, ?_, ?_⟩
  · intro who hle hlt
    omega
  · intro index request _
    exact .inl ⟨List.getElem?_eq_none (by omega), rfl⟩
  · intro attempt hmem
    exact absurd hmem List.not_mem_nil

/-- A call comes in. -/
theorem Executing.call (h : Executing start requests log world) {request : WriteRequest}
    (hrequest : requests[world.tasks.length - start.tasks.length]? = some request) :
    Executing start requests log (world.begin request.call) := by
  have hle := h.length_le
  obtain ⟨hlt, -⟩ := List.getElem?_eq_some_iff.1 hrequest
  have hlength : (world.begin request.call).tasks.length = world.tasks.length + 1 :=
    List.length_append
  refine ⟨h.directory, h.reliable, by omega, ?_, ?_, h.logged⟩
  · intro who hwho hless
    rw [hlength] at hless
    by_cases hnew : who = world.tasks.length
    · rwa [hnew]
    · exact h.requested who hwho (by omega)
  · intro index other hother
    by_cases hnew : start.tasks.length + index = world.tasks.length
    · -- It is the call that has come in, and it has not written anything.
      have hindex : index = world.tasks.length - start.tasks.length := by omega
      obtain rfl : request = other := by
        rw [hindex, hrequest] at hother
        exact Option.some.inj hother
      refine .inr ⟨.begun request.call, ?_, rfl, ?_⟩
      · rw [hnew]
        exact task_begin world request.call
      · rcases h.calls index request hother with ⟨-, habout⟩ | ⟨stage, htask, -⟩
        · rw [habout]
          rfl
        · rw [hnew, List.getElem?_eq_none (Nat.le_refl _)] at htask
          exact absurd htask (by simp)
    · have hsame : (world.begin request.call).tasks[start.tasks.length + index]? =
          world.tasks[start.tasks.length + index]? := by
        by_cases hless : start.tasks.length + index < world.tasks.length
        · exact List.getElem?_append_left hless
        · rw [List.getElem?_eq_none (by omega), List.getElem?_eq_none (by omega)]
      rw [hsame]
      exact h.calls index other hother

/-- Where the tasks stay as they are and nothing is written, nothing changes. -/
theorem Executing.congr {later : World σ} (h : Executing start requests log world)
    (hdirectory : later.directory = world.directory)
    (hstore : later.cache.store = world.cache.store) (htasks : later.tasks = world.tasks) :
    Executing start requests log later := by
  refine ⟨?_, ?_, ?_, ?_, ?_, h.logged⟩
  · rw [hdirectory]
    exact h.directory
  · rw [hstore]
    exact h.reliable
  · rw [htasks]
    exact h.length_le
  · rw [htasks]
    exact h.requested
  · rw [htasks]
    exact h.calls

/-- A task that came in is the call for one of the requests. -/
theorem Executing.exists_call (h : Executing start requests log world) {who : Nat}
    (hwho : start.tasks.length ≤ who) {task : Task} (htask : world.tasks[who]? = some task) :
    ∃ request stage, requests[who - start.tasks.length]? = some request ∧
      world.tasks[who]? = some (.call stage) ∧ request.Follows start.directory stage ∧
      (Attempt.about (· = request.id) log).map Attempt.statement =
        if stage.hasWritten then [request.statement start.directory] else [] := by
  obtain ⟨hlt, -⟩ := List.getElem?_eq_some_iff.1 htask
  obtain ⟨request, hrequest⟩ : ∃ request, requests[who - start.tasks.length]? = some request :=
    ⟨_, List.getElem?_eq_getElem (h.requested who hwho hlt)⟩
  have hplace : start.tasks.length + (who - start.tasks.length) = who := by omega
  have hcall := h.calls _ request hrequest
  rw [hplace] at hcall
  rcases hcall with ⟨hnone, -⟩ | ⟨stage, hstage, hfollows, habout⟩
  · rw [hnone] at htask
    exact absurd htask (by simp)
  · exact ⟨request, stage, hrequest, hstage, hfollows, habout⟩

omit [FallibleStore σ] in
/-- Requests at different places are for different ids. -/
theorem eq_of_id_eq (hdistinct : (requests.map WriteRequest.id).Nodup) {i j : Nat}
    {request other : WriteRequest} (hrequest : requests[i]? = some request)
    (hother : requests[j]? = some other) (hid : request.id = other.id) : i = j := by
  have hless := (List.getElem?_eq_some_iff.1 hrequest).1
  refine (List.getElem?_inj (by rwa [List.length_map]) hdistinct).1 ?_
  rw [List.getElem?_map, List.getElem?_map, hrequest, hother]
  exact congrArg some hid

/-- **A call goes on.** -/
theorem Executing.goOn (hmemory : start.directory.InMemory)
    (hlookups : start.directory.lookupFailure = none)
    (hdistinct : (requests.map WriteRequest.id).Nodup) (h : Executing start requests log world)
    {who : Nat} (hwho : start.tasks.length ≤ who) (hready : world.isReady who = true)
    (hstamps : ∀ attempt ∈ world.attempts (.goOn who), attempt.record.stamp.isWritable = true) :
    Executing start requests (log ++ world.attempts (.goOn who)) (world.step who) := by
  obtain ⟨task, htask, -⟩ := (Option.any_eq_true _ _).1 hready
  obtain ⟨request, stage, hrequest, hstage, hfollows, habout⟩ := h.exists_call hwho htask
  obtain ⟨count, hcount⟩ := h.directory
  rw [isReady_of_task hstage] at hready
  -- It writes what it is for, or nothing.
  have hattempts := attempts_goOn_of_call hstage
  have hsucceeds : ∀ record, world.callWrite? stage = some record →
      (world.cache.attempt record).succeeded = true := by
    intro record hrecord
    refine Cache.succeeded_attempt h.reliable (hstamps (world.cache.attempt record) ?_)
    rw [hattempts, hrecord]
    exact List.mem_singleton_self _
  obtain ⟨hnext, hasked, hstatement, hwritten⟩ :=
    follows_callStep hmemory hlookups hfollows hcount hready hsucceeds
  have hlog : (world.attempts (.goOn who)).map Attempt.statement = (if
      (world.callStep who stage).1.hasWritten && !stage.hasWritten then
        some (request.statement start.directory) else none).toList := by
    rw [hattempts, Cache.map_statement_attempts, hstatement]
  have hown : ∀ attempt ∈ world.attempts (.goOn who), attempt.record.id = request.id := by
    intro attempt hmem
    have hstated : attempt.statement ∈ (world.attempts (.goOn who)).map Attempt.statement :=
      List.mem_map_of_mem hmem
    rw [hlog, Option.mem_toList] at hstated
    split at hstated
    · exact congrArg Prod.fst (Option.some.inj hstated).symm
    · exact absurd hstated (by simp)
  have htasks : (world.step who).tasks =
      world.tasks.set who (.call (world.callStep who stage).1) := by
    rw [step_of_call hstage, setTask, tasks_callStep]
  refine ⟨?_, ?_, ?_, ?_, ?_, ?_⟩
  · rw [directory_step_of_call hstage]
    exact hasked
  · rw [store_step]
    exact Cache.reliable_writeIf h.reliable _
  · rw [htasks, List.length_set]
    exact h.length_le
  · rw [htasks, List.length_set]
    exact h.requested
  · intro index other hother
    rw [htasks, Attempt.about_append]
    by_cases hsame : start.tasks.length + index = who
    · -- The call itself.
      have hindex : index = who - start.tasks.length := by omega
      obtain rfl : request = other := by
        rw [hindex, hrequest] at hother
        exact Option.some.inj hother
      have hall : Attempt.about (· = request.id) (world.attempts (.goOn who)) =
          world.attempts (.goOn who) :=
        List.filter_eq_self.2 fun attempt hmem => decide_eq_true (hown attempt hmem)
      refine .inr ⟨(world.callStep who stage).1, ?_, hnext, ?_⟩
      · rw [hsame]
        exact List.getElem?_set_self (List.getElem?_eq_some_iff.1 hstage).1
      · rw [List.map_append, habout, hall, hlog]
        cases hbefore : stage.hasWritten with
        | true =>
          rw [hwritten hbefore]
          rfl
        | false => cases (world.callStep who stage).1.hasWritten <;> rfl
    · -- Another call is for another id.
      have hnothing : Attempt.about (· = other.id) (world.attempts (.goOn who)) = [] := by
        refine List.filter_eq_nil_iff.2 fun attempt hmem hid => hsame ?_
        have heq : request.id = other.id :=
          (hown attempt hmem).symm.trans (of_decide_eq_true hid)
        have hindex := eq_of_id_eq hdistinct hrequest hother heq
        omega
      rw [hnothing, List.append_nil, List.getElem?_set_ne fun heq => hsame heq.symm]
      exact h.calls index other hother
  · intro attempt hmem
    rcases List.mem_append.1 hmem with hmem | hmem
    · exact h.logged attempt hmem
    · refine ⟨?_, ?_⟩
      · rw [hattempts] at hmem
        have hrecord := Cache.eq_of_mem_attempts hmem
        rw [hrecord] at hmem
        rw [List.mem_singleton.1 hmem]
        exact hsucceeds _ hrecord
      · rw [hown attempt hmem]
        exact List.mem_map_of_mem (List.mem_of_getElem? hrequest)

/-- **All the way.** -/
theorem Course.executing (hmemory : start.directory.InMemory)
    (hlookups : start.directory.lookupFailure = none)
    (hdistinct : (requests.map WriteRequest.id).Nodup)
    (hreliable : KeyValueStore.Reliable start.cache.store)
    (h : Course (writing start requests) start log world)
    (hstamps : ∀ attempt ∈ log, attempt.record.stamp.isWritable = true) :
    Executing start requests log world := by
  induction h with
  | here => exact executing_start hreliable requests
  | @next log world event hcourse hallowed hadmits ih =>
    have hbefore := ih fun attempt hmem => hstamps attempt (List.mem_append_left _ hmem)
    cases event with
    | goOn who =>
      exact hbefore.goOn hmemory hlookups hdistinct hallowed hadmits
        fun attempt hmem => hstamps attempt (List.mem_append_right _ hmem)
    | call call =>
      obtain ⟨request, hrequest, rfl⟩ := hallowed
      rw [show world.attempts (.call request.call) = [] from rfl, List.append_nil]
      exact hbefore.call hrequest
    | clock clock | subscriber act =>
      rw [show world.attempts _ = [] from rfl, List.append_nil]
      exact hbefore.congr rfl rfl rfl
    | startService | requestRefresh | shutdown | directory _ | trouble _ => exact absurd hallowed id

end Executing

/-! ### What is stored -/

/-- **What an event does to the store**: a record that is written is stored as its text, and
otherwise all stays as it is. -/
theorem contents_after_cases {world : World σ} {event : Event σ} (hadmits : world.Admits event) :
    (∃ attempt text, world.attempts event = [attempt] ∧ attempt.succeeded = true ∧
      attempt.record.encode = .ok text ∧
      KeyValueStore.contents (world.after event).cache.store =
        (KeyValueStore.contents world.cache.store).insert attempt.record.id text) ∨
    (∀ attempt ∈ world.attempts event, attempt.succeeded = false) ∧
      KeyValueStore.contents (world.after event).cache.store =
        KeyValueStore.contents world.cache.store := by
  cases event with
  | goOn who =>
    show (∃ attempt text, world.cache.attempts (world.write? (.goOn who)) = [attempt] ∧ _) ∨
      (∀ attempt ∈ world.cache.attempts (world.write? (.goOn who)), _) ∧
        KeyValueStore.contents (world.step who).cache.store = _
    rw [show (world.after (.goOn who)).cache.store = _ from store_step world who, store_step]
    cases world.write? (.goOn who) with
    | none => exact .inr ⟨fun _ hmem => absurd hmem List.not_mem_nil, rfl⟩
    | some record =>
      have hattempt : world.cache.attempts (some record) =
          [⟨record, (world.cache.write record).1.isOk⟩] := rfl
      rw [hattempt, Cache.writeIf]
      -- The store has taken the record, or it is as it was.
      rcases Cache.write_cases world.cache record with
        ⟨text, store, hencode, hcontents, hwrite⟩ | ⟨error, store, hcontents, hwrite⟩
      · rw [hwrite]
        exact .inl ⟨_, text, rfl, rfl, hencode, hcontents⟩
      · rw [hwrite]
        refine .inr ⟨fun attempt hmem => ?_, hcontents⟩
        obtain rfl := List.mem_singleton.1 hmem
        rfl
  | trouble store =>
    exact .inr ⟨fun _ hmem => absurd hmem List.not_mem_nil,
      FallibleStore.contents_of_befalls hadmits⟩
  | _ => exact .inr ⟨fun _ hmem => absurd hmem List.not_mem_nil, rfl⟩

section Effect

variable {allowed : World σ → Event σ → Prop} {start world : World σ} {log : List Attempt}
  {told : List Change} {id : String}

/-- **What the store holds of an id** along a course: the text of the record that was written last
for it, or what it held before if there is none. -/
theorem Course.contents_get? (h : Course allowed start log world) (id : String) :
    match Attempt.lastWritten? (Attempt.about (· = id) log) with
    | none => (KeyValueStore.contents world.cache.store).get? id =
        (KeyValueStore.contents start.cache.store).get? id
    | some record => ∃ text, record.encode = .ok text ∧
        (KeyValueStore.contents world.cache.store).get? id = some text := by
  induction h with
  | here => rfl
  | @next log world event _ _ hadmits ih =>
    rw [Attempt.about_append, Attempt.lastWritten?_append]
    rcases contents_after_cases hadmits with
      ⟨attempt, text, hattempts, hsucceeded, hencode, hcontents⟩ | ⟨hfailed, hcontents⟩
    · rw [hattempts, hcontents, Attempt.about_cons]
      by_cases hid : attempt.record.id = id
      · -- It was this id that was written.
        rw [if_pos (decide_eq_true hid), Attempt.lastWritten?_cons, if_pos hsucceeded, hid]
        exact ⟨text, hencode, Ledger.get?_insert_self _ _ _⟩
      · rw [if_neg (by simpa using hid), Ledger.get?_insert_of_ne _ _ fun heq => hid heq.symm]
        exact ih
    · have hnone : Attempt.lastWritten? (Attempt.about (· = id) (world.attempts event)) = none := by
        refine Option.map_eq_none_iff.2 (List.getLast?_eq_none_iff.2 ?_)
        refine List.filter_eq_nil_iff.2 fun attempt hmem hsucceeded => ?_
        rw [hfailed attempt (List.mem_of_mem_filter hmem)] at hsucceeded
        exact absurd hsucceeded (by decide)
      rw [hnone, hcontents]
      exact ih

omit [FallibleStore σ] in
theorem mem_about_of_eq_singleton {attempt : Attempt}
    (h : Attempt.about (· = id) log = [attempt]) : attempt ∈ Attempt.about (· = id) log := by
  rw [h]
  exact List.mem_singleton_self _

/-- **An id that is not written** keeps its record, time and all, and its text in the store, and
nothing is told of it. -/
theorem Chronicle.of_unwritten (h : Chronicle allowed start log told world)
    (hnone : Attempt.about (· = id) log = []) :
    world.cache.record? id = start.cache.record? id ∧
      (KeyValueStore.contents world.cache.store).get? id =
        (KeyValueStore.contents start.cache.store).get? id ∧
      (told.filter fun change => change.id = id) = [] := by
  have hhistory := h.history id
  have hcontents := h.course.contents_get? id
  rw [hnone] at hhistory hcontents
  obtain ⟨hrecord, htold⟩ := hhistory.eq_of_nil
  exact ⟨hrecord, hcontents, htold⟩

/-- **An id that is written once** has this record, in memory and in the store, and what is told of
it is what is to be told of the record. -/
theorem Chronicle.of_written (h : Chronicle allowed start log told world) {attempt : Attempt}
    (hone : Attempt.about (· = id) log = [attempt]) (hsucceeded : attempt.succeeded = true) :
    world.cache.record? id = some attempt.record ∧
      world.cache.stored? id = some (.ok attempt.record.entry) ∧
      Succession (start.cache.record? id) attempt.record
        (told.filter fun change => change.id = id) := by
  have hid : attempt.record.id = id :=
    of_decide_eq_true (List.mem_filter.1 (mem_about_of_eq_singleton hone)).2
  have hhistory := h.history id
  have hcontents := h.course.contents_get? id
  rw [hone, Attempt.written, List.filter_cons_of_pos hsucceeded] at hhistory
  rw [hone, Attempt.lastWritten?_cons, if_pos hsucceeded] at hcontents
  obtain ⟨hrecord, htold⟩ := hhistory.eq_of_singleton
  obtain ⟨text, hencode, htext⟩ := hcontents
  refine ⟨hrecord, ?_, htold⟩
  -- What is stored is read back as what was written.
  unfold Cache.stored?
  rw [htext, Option.map_some, ← hid, Record.decode_encode hencode]
  rfl

end Effect

/-- **Two chronicles agree** if they have written the same ids, each at most once, and have stated
the same of each. -/
theorem agree_of_statements {allowed permitted : World σ → Event σ → Prop}
    {start later other : World σ} {log more : List Attempt} {told others : List Change}
    (h : Chronicle allowed start log told later)
    (h' : Chronicle permitted start more others other)
    (hsucceeded : ∀ attempt ∈ log, attempt.succeeded = true)
    (hsucceeded' : ∀ attempt ∈ more, attempt.succeeded = true)
    (hsame : ∀ id, Attempt.about (· = id) log = [] ∧ Attempt.about (· = id) more = [] ∨
      ∃ attempt another, Attempt.about (· = id) log = [attempt] ∧
        Attempt.about (· = id) more = [another] ∧ attempt.statement = another.statement) :
    Agree later other told others := by
  have hagree : ∀ id,
      (later.cache.record? id).map Record.entry = (other.cache.record? id).map Record.entry ∧
        later.cache.stored? id = other.cache.stored? id ∧
        (told.filter fun change => change.id = id) =
          others.filter fun change => change.id = id := by
    intro id
    rcases hsame id with ⟨hnone, hnone'⟩ | ⟨attempt, another, hone, hone', hstatement⟩
    · -- Neither has written the id, so both have what there was at the start.
      obtain ⟨hrecord, hcontents, htold⟩ := h.of_unwritten hnone
      obtain ⟨hrecord', hcontents', htold'⟩ := h'.of_unwritten hnone'
      refine ⟨by rw [hrecord, hrecord'], ?_, by rw [htold, htold']⟩
      unfold Cache.stored?
      rw [hcontents, hcontents']
    · have hmem := (List.mem_filter.1 (mem_about_of_eq_singleton hone)).1
      have hmem' := (List.mem_filter.1 (mem_about_of_eq_singleton hone')).1
      obtain ⟨hrecord, hstored, htold⟩ := h.of_written hone (hsucceeded attempt hmem)
      obtain ⟨hrecord', hstored', htold'⟩ := h'.of_written hone' (hsucceeded' another hmem')
      have hentry : attempt.record.entry = another.record.entry := congrArg Prod.snd hstatement
      refine ⟨?_, ?_, ?_⟩
      · rw [hrecord, hrecord', Option.map_some, Option.map_some, hentry]
      · rw [hstored, hstored', hentry]
      · exact htold.unique (htold'.congr hstatement)
  exact ⟨fun id => (hagree id).1, fun id => (hagree id).2.1,
    perm_of_filter_eq fun id => (hagree id).2.2⟩

/-! ### Coming to an end -/

/-- A task goes on, and time passes. -/
def awaiting (who : Nat) : World σ → Event σ → Prop :=
  fun _ event => event = .goOn who ∨ ∃ clock, event = .clock clock

/-- While a call is awaited the other tasks stay as they are. -/
theorem Course.tasks_of_awaiting {start world : World σ} {who : Nat} {first : CallStage}
    {log : List Attempt} (h : Course (awaiting who) start log world)
    (hfirst : start.tasks[who]? = some (.call first)) :
    world.tasks.length = start.tasks.length ∧
      ∀ other ≠ who, world.tasks[other]? = start.tasks[other]? := by
  have hinvariant : (∃ stage, world.tasks[who]? = some (.call stage)) ∧
      world.tasks.length = start.tasks.length ∧
      ∀ other ≠ who, world.tasks[other]? = start.tasks[other]? := by
    refine h.invariant (P := fun world => (∃ stage, world.tasks[who]? = some (.call stage)) ∧
      world.tasks.length = start.tasks.length ∧
      ∀ other ≠ who, world.tasks[other]? = start.tasks[other]?)
      ⟨⟨first, hfirst⟩, rfl, fun _ _ => rfl⟩ ?_
    intro world event hallowed _ ⟨⟨stage, hstage⟩, hlength, hothers⟩
    rcases hallowed with rfl | ⟨clock, rfl⟩
    · have htasks : (world.step who).tasks =
          world.tasks.set who (.call (world.callStep who stage).1) := by
        rw [step_of_call hstage, setTask, tasks_callStep]
      refine ⟨⟨_, task_step_of_call hstage⟩, ?_, ?_⟩
      · show (world.step who).tasks.length = _
        rw [htasks, List.length_set, hlength]
      · intro other hne
        show (world.step who).tasks[other]? = _
        rw [htasks, List.getElem?_set_ne fun heq => hne heq.symm, hothers other hne]
    · exact ⟨⟨stage, hstage⟩, hlength, hothers⟩
  exact hinvariant.2

/-- **A call for a write comes to its end.** -/
theorem exists_reply_of_request {world : World σ} {who : Nat} {request : WriteRequest}
    (htask : world.tasks[who]? = some (.call (.begun request.call))) :
    ∃ log later reply, Course (awaiting who) world log later ∧ later.reply? who = some reply := by
  have hgoOn : ∀ world : World σ, awaiting who world (.goOn who) := fun _ => .inl rfl
  have hclock : ∀ (world : World σ) clock, awaiting who world (.clock clock) :=
    fun _ clock => .inr ⟨clock, rfl⟩
  obtain ⟨hbegun, hnext⟩ := Course.here.proceed (hgoOn world) htask rfl
  cases request with
  | update identity | removal id =>
    exact ⟨_, _, _, hbegun, reply?_eq_some_iff.2 hnext⟩
  | refresh id =>
    obtain ⟨log, later, reply, hlater, hreply⟩ := exists_reply_of_asking hgoOn hclock hnext
    exact ⟨_, later, reply, hbegun.trans hlater, hreply⟩

/-- **Writes can be asked for in any order**, one after another. -/
theorem exists_executes (start : World σ) (requests : List WriteRequest) :
    ∃ log told later, start.Executes requests log told later := by
  -- The induction is on the number of requests that have been replied to.
  have hprefix : ∀ count ≤ requests.length, ∃ log world,
      Course (writing start requests) start log world ∧
        world.tasks.length = start.tasks.length + count ∧
        ∀ index < count, ∃ reply, world.reply? (start.tasks.length + index) = some reply := by
    intro count
    induction count with
    | zero => exact fun _ => ⟨[], start, .here, rfl, fun index hlt => absurd hlt (by omega)⟩
    | succ count ih =>
      intro hle
      obtain ⟨log, world, hcourse, hlength, hreplied⟩ := ih (by omega)
      obtain ⟨request, hrequest⟩ : ∃ request, requests[count]? = some request :=
        ⟨_, List.getElem?_eq_getElem (by omega)⟩
      have hplace : world.tasks.length - start.tasks.length = count := by omega
      have hbegun := hcourse.call request.call ⟨request, by rw [hplace, hrequest], rfl⟩
      have htask := task_begin world request.call
      obtain ⟨more, later, reply, hlater, hreply⟩ := exists_reply_of_request htask
      obtain ⟨hsame, hothers⟩ := hlater.tasks_of_awaiting htask
      have hlonger : (world.begin request.call).tasks.length = world.tasks.length + 1 :=
        List.length_append
      refine ⟨_, later, hbegun.trans (hlater.mono ?_), by omega, ?_⟩
      · intro _ event hevent
        rcases hevent with rfl | ⟨clock, rfl⟩
        · show start.tasks.length ≤ world.tasks.length
          omega
        · trivial
      · intro index hlt
        by_cases hlast : index = count
        · rw [hlast, ← hlength]
          exact ⟨reply, hreply⟩
        · obtain ⟨earlier, hearlier⟩ := hreplied index (by omega)
          refine ⟨earlier, ?_⟩
          rw [reply?_eq_some_iff] at hearlier ⊢
          rw [hothers _ (by omega)]
          exact (List.getElem?_append_left (by omega)).trans hearlier
  obtain ⟨log, later, hcourse, -, hreplied⟩ := hprefix requests.length (Nat.le_refl _)
  obtain ⟨told, hchronicle⟩ := hcourse.exists_chronicle
  exact ⟨log, told, later, hchronicle, hreplied⟩

/-! ### Any order -/

section Executes

variable {start later : World σ} {requests : List WriteRequest} {log : List Attempt}
  {told : List Change}

/-- **What comes of each request**, if nothing fails: it has its reply, and one record was written
under its id. Nothing else was written. -/
structure Fulfils (start : World σ) (requests : List WriteRequest) (log : List Attempt)
    (later : World σ) : Prop where
  replied : ∀ index request, requests[index]? = some request →
    later.reply? (start.tasks.length + index) = some (request.reply start.directory)
  written : ∀ request ∈ requests, ∃ attempt, Attempt.about (· = request.id) log = [attempt] ∧
    attempt.statement = request.statement start.directory
  succeeded : ∀ attempt ∈ log, attempt.succeeded = true
  unwritten : ∀ id ∉ requests.map WriteRequest.id, Attempt.about (· = id) log = []

/-- **Every execution fulfils its requests**, if these are for different ids, no look-up and no put
fails, and the clock shows times that can be written. -/
theorem Executes.fulfils (h : start.Executes requests log told later)
    (hmemory : start.directory.InMemory) (hlookups : start.directory.lookupFailure = none)
    (hreliable : KeyValueStore.Reliable start.cache.store)
    (hdistinct : (requests.map WriteRequest.id).Nodup)
    (hstamps : ∀ attempt ∈ log, attempt.record.stamp.isWritable = true) :
    Fulfils start requests log later := by
  have hexecuting :=
    h.chronicle.course.executing hmemory hlookups hdistinct hreliable hstamps
  -- All calls have come to their end, and so past their writes.
  have hdone : ∀ index request, requests[index]? = some request →
      later.reply? (start.tasks.length + index) = some (request.reply start.directory) ∧
        (Attempt.about (· = request.id) log).map Attempt.statement =
          [request.statement start.directory] := by
    intro index request hrequest
    obtain ⟨reply, hreply⟩ := h.replied index (List.getElem?_eq_some_iff.1 hrequest).1
    have htask := reply?_eq_some_iff.1 hreply
    rcases hexecuting.calls index request hrequest with
      ⟨hnone, -⟩ | ⟨stage, hstage, hfollows, habout⟩
    · rw [hnone] at htask
      exact absurd htask (by simp)
    · obtain rfl := stage_eq_of_reply? hreply hstage
      obtain rfl : reply = request.reply start.directory := hfollows
      exact ⟨hreply, habout⟩
  refine ⟨fun index request hrequest => (hdone index request hrequest).1, ?_,
    fun attempt hmem => (hexecuting.logged attempt hmem).1, ?_⟩
  · intro request hmem
    obtain ⟨index, hindex⟩ := List.mem_iff_getElem?.1 hmem
    obtain ⟨attempt, hone, hstatement⟩ := List.map_eq_singleton_iff.1 (hdone index request hindex).2
    exact ⟨attempt, hone, hstatement⟩
  · intro id hother
    refine List.filter_eq_nil_iff.2 fun attempt hmem hid => hother ?_
    rw [← of_decide_eq_true hid]
    exact (hexecuting.logged attempt hmem).2

end Executes

/-- **Independent writes commute.** Let a gateway be in any state, over a directory in memory of
which no look-up fails and a store of which no put fails, and let writes be requested for different
ids.

They can be executed in their order. Whenever they are, at times that have a written form, each
request has the reply that is due to it, an id that is not among theirs keeps its record, time and
all, and its text in the store; and every execution of the same requests in another order agrees
with this one in what is known and stored of every id, apart from the times, in what is told, apart
from its order, and in the reply to each request. -/
theorem independent_writes_commute {start : World σ} (hmemory : start.directory.InMemory)
    (hlookups : start.directory.lookupFailure = none)
    (hreliable : KeyValueStore.Reliable start.cache.store) {requests : List WriteRequest}
    (hdistinct : (requests.map WriteRequest.id).Nodup) :
    (∃ log told later, start.Executes requests log told later) ∧
    ∀ log told later, start.Executes requests log told later →
      (∀ attempt ∈ log, attempt.record.stamp.isWritable = true) →
      (∀ index request, requests[index]? = some request →
        later.reply? (start.tasks.length + index) = some (request.reply start.directory)) ∧
      (∀ id ∉ requests.map WriteRequest.id,
        later.cache.record? id = start.cache.record? id ∧
          (KeyValueStore.contents later.cache.store).get? id =
            (KeyValueStore.contents start.cache.store).get? id) ∧
      ∀ others more heard other, others.Perm requests → start.Executes others more heard other →
        (∀ attempt ∈ more, attempt.record.stamp.isWritable = true) →
        Agree later other told heard ∧
          ∀ i j request, requests[i]? = some request → others[j]? = some request →
            later.reply? (start.tasks.length + i) = other.reply? (start.tasks.length + j) := by
  refine ⟨exists_executes start requests, ?_⟩
  intro log told later h hstamps
  have hfulfils := h.fulfils hmemory hlookups hreliable hdistinct hstamps
  refine ⟨hfulfils.replied, ?_, ?_⟩
  · intro id hother
    obtain ⟨hrecord, hcontents, -⟩ := h.chronicle.of_unwritten (hfulfils.unwritten id hother)
    exact ⟨hrecord, hcontents⟩
  · intro others more heard other hperm h' hstamps'
    have hids := hperm.map WriteRequest.id
    have hfulfils' :=
      h'.fulfils hmemory hlookups hreliable (hids.nodup_iff.2 hdistinct) hstamps'
    refine ⟨?_, ?_⟩
    · -- For each id there is at most one request, and both have written what it asks for.
      refine agree_of_statements h.chronicle h'.chronicle hfulfils.succeeded hfulfils'.succeeded
        fun id => ?_
      by_cases hmem : id ∈ requests.map WriteRequest.id
      · obtain ⟨request, hrequest, rfl⟩ := List.mem_map.1 hmem
        obtain ⟨attempt, hone, hstatement⟩ := hfulfils.written request hrequest
        obtain ⟨another, hone', hstatement'⟩ :=
          hfulfils'.written request (hperm.mem_iff.2 hrequest)
        exact .inr ⟨attempt, another, hone, hone', hstatement.trans hstatement'.symm⟩
      · exact .inl ⟨hfulfils.unwritten id hmem,
          hfulfils'.unwritten id fun h => hmem (hids.mem_iff.1 h)⟩
    · intro i j request hrequest hrequest'
      rw [hfulfils.replied i request hrequest, hfulfils'.replied j request hrequest']

/-- A device comes in with another key, another one leaves, and a third is looked up: one after
another, and all at once with the look-up beginning first and ending last. -/
theorem independent_writes_commute_interleaved :
    ∃ (start later other : World MemoryStore) (requests others : List WriteRequest)
      (log more : List Attempt) (told heard : List Change),
      start.directory.InMemory ∧ start.directory.lookupFailure = none ∧
      KeyValueStore.Reliable start.cache.store ∧ (requests.map WriteRequest.id).Nodup ∧
      others.Perm requests ∧
      start.Executes requests log told later ∧ start.Executes others more heard other ∧
      told = [.updated (.ofDevice "a" "2" .none .enabled), .removed "c"] ∧
      heard = [.removed "c", .updated (.ofDevice "a" "2" .none .enabled)] ∧
      Agree later other told heard := by
  let directory : Directory := Directory.empty.upsert (.ofDevice "b" "1" .none .enabled)
  let start : World MemoryStore :=
    ((World.start 0 directory .blank .standard).serve
      (.update (.ofDevice "a" "1" .none .enabled))).serve
        (.update (.ofDevice "c" "1" .none .enabled))
  let update : WriteRequest := .update (.ofDevice "a" "2" .none .enabled)
  let requests : List WriteRequest := [update, .removal "c", .refresh "b"]
  let others : List WriteRequest := [.refresh "b", .removal "c", update]
  have hmemory : start.directory.InMemory := Directory.InMemory.empty.upsert _
  have hreliable : KeyValueStore.Reliable start.cache.store :=
    MemoryStore.reliable (by decide +kernel)
  have hdistinct : (requests.map WriteRequest.id).Nodup := by decide
  have hperm : others.Perm requests := List.reverse_perm requests
  have hlength : start.tasks.length = 2 := by decide +kernel
  have hcame : ∀ requests (world : World MemoryStore) who, 2 ≤ who →
      writing start requests world (.goOn who) := by
    intro requests world who hle
    show start.tasks.length ≤ who
    rwa [hlength]
  -- One after another: each call comes in, and goes on until it has its reply.
  have hbegun : Chronicle (writing start requests) start [] [] start := .here
  have hcalled := hbegun.call update.call ⟨update, by decide +kernel, rfl⟩
  have hupdated := hcalled.goOn 2 (hcame _ _ 2 (by decide)) (by decide +kernel)
  have hcalled := hupdated.call (.removal "c") ⟨.removal "c", by decide +kernel, rfl⟩
  have hremoved := hcalled.goOn 3 (hcame _ _ 3 (by decide)) (by decide +kernel)
  have hcalled := hremoved.call (.refresh "b") ⟨.refresh "b", by decide +kernel, rfl⟩
  have hasked := hcalled.goOn 4 (hcame _ _ 4 (by decide)) (by decide +kernel)
  have hheard := hasked.goOn 4 (hcame _ _ 4 (by decide)) (by decide +kernel)
  have hconcluded := hheard.goOn 4 (hcame _ _ 4 (by decide)) (by decide +kernel)
  have hended := hconcluded.goOn 4 (hcame _ _ 4 (by decide)) (by decide +kernel)
  let later : World MemoryStore :=
    ((((((((((start.begin update.call).step 2).begin (.removal "c")).step 3).begin
      (.refresh "b")).step 4).step 4).step 4).step 4))
  -- All at once: the look-up asks, hears and writes while the others come in and are done.
  have hbegun : Chronicle (writing start others) start [] [] start := .here
  have hcalled := hbegun.call (.refresh "b") ⟨.refresh "b", by decide +kernel, rfl⟩
  have hasked := hcalled.goOn 2 (hcame _ _ 2 (by decide)) (by decide +kernel)
  have hcalled := hasked.call (.removal "c") ⟨.removal "c", by decide +kernel, rfl⟩
  have hheard := hcalled.goOn 2 (hcame _ _ 2 (by decide)) (by decide +kernel)
  have hcalled := hheard.call update.call ⟨update, by decide +kernel, rfl⟩
  have hremoved := hcalled.goOn 3 (hcame _ _ 3 (by decide)) (by decide +kernel)
  have hconcluded := hremoved.goOn 2 (hcame _ _ 2 (by decide)) (by decide +kernel)
  have hupdated := hconcluded.goOn 4 (hcame _ _ 4 (by decide)) (by decide +kernel)
  have hended' := hupdated.goOn 2 (hcame _ _ 2 (by decide)) (by decide +kernel)
  let other : World MemoryStore :=
    (((((((((start.begin (.refresh "b")).step 2).begin (.removal "c")).step 2).begin
      update.call).step 3).step 2).step 4).step 2)
  have hreplied : ∀ index < 3, (later.reply? (start.tasks.length + index)).isSome = true := by
    decide +kernel
  have hreplied' : ∀ index < 3, (other.reply? (start.tasks.length + index)).isSome = true := by
    decide +kernel
  have hexecutes : start.Executes requests _ _ later :=
    ⟨hended, fun index hlt => Option.isSome_iff_exists.1 (hreplied index hlt)⟩
  have hexecutes' : start.Executes others _ _ other :=
    ⟨hended', fun index hlt => Option.isSome_iff_exists.1 (hreplied' index hlt)⟩
  obtain ⟨-, -, hagree⟩ := (independent_writes_commute hmemory rfl hreliable hdistinct).2 _ _ _
    hexecutes (by decide +kernel)
  exact ⟨start, later, other, requests, others, _, _, _, _, hmemory, rfl, hreliable, hdistinct,
    hperm, hexecutes, hexecutes', by decide +kernel, by decide +kernel,
    (hagree others _ _ other hperm hexecutes' (by decide +kernel)).1⟩

end World

end DeviceScope
