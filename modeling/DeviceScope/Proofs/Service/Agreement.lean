import DeviceScope.Proofs.Service.Completion
import DeviceScope.Proofs.Service.Notification
import DeviceScope.Proofs.Service.Restart

/-!
# Cycles and look-ups agree

A cycle walks through the listing of the directory and compares; a call for several ids asks for one
after another. Both bring the records up to date (`World.UpToDate`): an id is written at most once,
what is written is what the directory holds, and no id is left out of which there is something to
say. This settles for every id what is known of it in the end and what was told
(`UpToDate.settled`), so the two agree (`World.cycle_agrees_with_lookups`).

They do not write the same: a cycle leaves alone what is absent already, while a call that asks for
such an id writes once more that it is absent. Nor would they agree on an id that is neither known
nor held: a call that asks for it writes that it is absent, and a cycle never hears of it.
-/

namespace DeviceScope

variable {σ : Type}

/-- What a store holds under an id: nothing, the entry of a record, or a text that is no record. -/
def Cache.stored? [KeyValueStore σ] (cache : Cache σ) (id : String) :
    Option (Except ScopeError Entry) :=
  ((KeyValueStore.contents cache.store).get? id).map fun text =>
    (Record.decode id text).map Record.entry

theorem Cache.Mirrors.stored?_eq [KeyValueStore σ] {cache : Cache σ} {id : String} {record : Record}
    (h : Mirrors cache.records (KeyValueStore.contents cache.store))
    (hrecord : cache.record? id = some record) : cache.stored? id = some (.ok record.entry) := by
  obtain ⟨text, htext, hdecode⟩ := (h id record).1 hrecord
  unfold stored?
  rw [htext, Option.map_some, hdecode]
  rfl

/-- Where a log names each id once, it has one attempt for an id that it names. -/
theorem Attempt.about_eq_singleton {log : List Attempt} {attempt : Attempt}
    (honce : (log.map fun attempt => attempt.record.id).Nodup) (hmem : attempt ∈ log) :
    about (· = attempt.record.id) log = [attempt] := by
  induction log with
  | nil => exact absurd hmem List.not_mem_nil
  | cons first log ih =>
    rw [List.map_cons, List.nodup_cons] at honce
    obtain ⟨hfirst, hrest⟩ := honce
    rw [about_cons]
    rcases List.mem_cons.1 hmem with rfl | hmem
    · -- Nothing behind it names the id again.
      rw [if_pos (decide_eq_true rfl)]
      congr 1
      refine List.filter_eq_nil_iff.2 fun other hother hid => hfirst ?_
      exact List.mem_map.2 ⟨other, hother, of_decide_eq_true hid⟩
    · have hne : first.record.id ≠ attempt.record.id := by
        intro heq
        exact hfirst (List.mem_map.2 ⟨attempt, hmem, heq.symm⟩)
      rw [if_neg (by simpa using hne)]
      exact ih hrest hmem

namespace World

/-! ### Up to date -/

/-- **A log brings the records up to date with a directory.** -/
structure UpToDate (before : Cache σ) (directory : Directory) (log : List Attempt) : Prop where
  /-- No id is written twice. -/
  once : (log.map fun attempt => attempt.record.id).Nodup
  succeeded : ∀ attempt ∈ log, attempt.succeeded = true
  /-- What is written is what the directory holds. -/
  entry_eq : ∀ attempt ∈ log, attempt.record.entry = directory.entry attempt.record.id
  /-- Nothing is written of an id that is neither known nor held. -/
  needed : ∀ attempt ∈ log, before.records.contains attempt.record.id = true ∨
    directory.identities.contains attempt.record.id = true
  /-- An id is written if an identity is held under it, here or there. -/
  complete : ∀ id identity,
    before.identity? id = some identity ∨ directory.identities.get? id = some identity →
    ∃ attempt ∈ log, attempt.record.id = id

section Logs

variable {before after : Cache σ} {directory : Directory} {log shown marked : List Attempt}
  {ids : List String} {report : Report}

/-- A log that states of some ids what the directory holds brings the records up to date, if these
are all ids that are known or held. -/
theorem upToDate_of_map_statement (honce : ids.Nodup)
    (hids : ∀ id, id ∈ ids ↔ before.records.contains id = true ∨
      directory.identities.contains id = true)
    (hlog : log.map Attempt.statement = ids.map fun id => (id, directory.entry id))
    (hsucceeded : ∀ attempt ∈ log, attempt.succeeded = true) : UpToDate before directory log := by
  -- The ids that were written are the given ones, in their order.
  have hlogged : log.map (fun attempt => attempt.record.id) = ids := by
    have hfst := congrArg (List.map Prod.fst) hlog
    rw [List.map_map, List.map_map] at hfst
    exact hfst.trans (List.map_id ids)
  have hmem_iff : ∀ id, id ∈ ids ↔ ∃ attempt ∈ log, attempt.record.id = id := by
    intro id
    rw [← hlogged, List.mem_map]
  refine ⟨?_, hsucceeded, ?_, ?_, ?_⟩
  · rw [hlogged]
    exact honce
  · intro attempt hmem
    have hstatement : attempt.statement ∈ log.map Attempt.statement := List.mem_map_of_mem hmem
    rw [hlog] at hstatement
    obtain ⟨id, -, heq⟩ := List.mem_map.1 hstatement
    obtain ⟨rfl, hentry⟩ := Prod.mk.inj heq
    exact hentry.symm
  · intro attempt hmem
    exact (hids _).1 ((hmem_iff _).2 ⟨attempt, hmem, rfl⟩)
  · intro id identity hidentity
    apply (hmem_iff id).1
    apply (hids id).2
    rcases hidentity with hknown | hheld
    · obtain ⟨known, hrecord, -⟩ := Option.bind_eq_some_iff.1 hknown
      exact .inl (Ledger.contains_iff.2 ⟨known, hrecord⟩)
    · exact .inr (Ledger.contains_iff.2 ⟨identity, hheld⟩)

/-- What a cycle has written that is completed brings the records up to date. -/
theorem Accounted.upToDate
    (h : Accounted directory.listing before.records shown marked [] report)
    (hmemory : directory.InMemory)
    (hafter : after.records = Attempt.replay before.records (shown ++ marked))
    (hsucceeded : ∀ attempt ∈ shown ++ marked, attempt.succeeded = true) :
    UpToDate before directory (shown ++ marked) := by
  refine ⟨h.nodup_ids hmemory, hsucceeded, ?_, ?_, ?_⟩
  · intro attempt hmem
    unfold Directory.entry
    rcases List.mem_append.1 hmem with hshown | hmarked
    · -- It was shown, so the directory holds it.
      have hstatement : attempt.statement ∈ shown.map Attempt.statement :=
        List.mem_map_of_mem hshown
      rw [h.shown_eq] at hstatement
      obtain ⟨identity, hlisted, heq⟩ := List.mem_map.1 hstatement
      have hid : identity.id = attempt.record.id := congrArg Prod.fst heq
      have hentry : Entry.present identity = attempt.record.entry := congrArg Prod.snd heq
      rw [hmemory.mem_listing_iff, hid] at hlisted
      rw [← hentry, hlisted]
    · -- It was marked absent, so it was not shown.
      have hunlisted := ((h.mem_marked_iff _).1 ⟨attempt, hmarked, rfl⟩).2
      rw [h.entry_eq attempt hmarked, (Accounted.not_mem_listing_iff hmemory).1 hunlisted]
  · intro attempt hmem
    rcases h.written hmemory hmem with hheld | ⟨-, known, hknown, -⟩
    · exact .inr hheld
    · exact .inl (Ledger.contains_iff.2 ⟨known, hknown⟩)
  · intro id identity hidentity
    cases hget : directory.identities.get? id with
    | some held =>
      obtain ⟨attempt, hmem, hstatement, -⟩ := h.listed hmemory hafter hget
      exact ⟨attempt, hmem, congrArg Prod.fst hstatement⟩
    | none =>
      -- The identity was known, so the id was marked absent.
      rw [hget] at hidentity
      have hknown := hidentity.resolve_right (by simp)
      obtain ⟨known, hrecord, hpresent⟩ := Option.bind_eq_some_iff.1 hknown
      have hwas : known.entry.isPresent = true := by
        rw [Record.identity?_eq_some_iff.1 hpresent]
        rfl
      obtain ⟨attempt, hmem, hstatement, -⟩ := h.unlisted hmemory hafter hrecord hwas hget
      exact ⟨attempt, List.mem_append_right _ hmem, congrArg Prod.fst hstatement⟩

end Logs

/-! ### Settled -/

/-- **An id is settled**: what the directory holds under it is known, if there is anything to know,
and what is to be told of this was told. -/
structure Settled (before after : Cache σ) (directory : Directory) (id : String)
    (told : List Change) : Prop where
  known : before.records.contains id = true ∨ directory.identities.contains id = true →
    (after.record? id).map Record.entry = some (directory.entry id)
  unknown : before.records.contains id = false → directory.identities.contains id = false →
    after.record? id = none
  succession : ∀ new, new.statement = (id, directory.entry id) →
    Succession (before.record? id) new told

section UpToDate

variable {before after : Cache σ} {directory : Directory} {log : List Attempt} {id : String}
  {told : List Change}

/-- An id that is written is settled: what is told is what is to be told of its one record. -/
theorem UpToDate.settled_of_mem {attempt : Attempt} (h : UpToDate before directory log)
    (hmem : attempt ∈ log)
    (hhistory : History (before.record? attempt.record.id) (after.record? attempt.record.id)
      (Attempt.written (Attempt.about (· = attempt.record.id) log)) told) :
    Settled before after directory attempt.record.id told := by
  rw [Attempt.about_eq_singleton h.once hmem, Attempt.written,
    List.filter_cons_of_pos (h.succeeded attempt hmem)] at hhistory
  obtain ⟨hafter, hsuccession⟩ := hhistory.eq_of_singleton
  refine ⟨?_, ?_, ?_⟩
  · intro _
    rw [hafter, Option.map_some, h.entry_eq attempt hmem]
  · intro hunknown hunheld
    rcases h.needed attempt hmem with hknown | hheld
    · exact absurd (hknown.symm.trans hunknown) (by decide)
    · exact absurd (hheld.symm.trans hunheld) (by decide)
  · intro new hnew
    refine hsuccession.congr (hnew.trans ?_)
    rw [Record.statement, h.entry_eq attempt hmem]

/-- An id that is not written is settled: no identity was known and none is held. -/
theorem UpToDate.settled_of_forall_ne (h : UpToDate before directory log)
    (hunwritten : ∀ attempt ∈ log, attempt.record.id ≠ id)
    (hhistory : History (before.record? id) (after.record? id)
      (Attempt.written (Attempt.about (· = id) log)) told) :
    Settled before after directory id told := by
  have hnone : Attempt.about (· = id) log = [] :=
    List.filter_eq_nil_iff.2 fun attempt hmem hid => hunwritten attempt hmem (of_decide_eq_true hid)
  rw [hnone] at hhistory
  obtain ⟨hafter, rfl⟩ := hhistory.eq_of_nil
  -- Otherwise the id would have been written.
  have hmissed : ∀ identity, ¬ (before.identity? id = some identity ∨
      directory.identities.get? id = some identity) := by
    intro identity hidentity
    obtain ⟨attempt, hmem, hid⟩ := h.complete id identity hidentity
    exact hunwritten attempt hmem hid
  have hunheld : directory.identities.get? id = none :=
    Option.eq_none_iff_forall_ne_some.2 fun identity hget => hmissed identity (.inr hget)
  have hentry : directory.entry id = .absent := by
    rw [Directory.entry, hunheld]
  have habsent : ∀ old, before.record? id = some old → old.entry = .absent := by
    intro old hold
    cases hpresent : old.entry with
    | absent => rfl
    | present identity =>
      refine absurd (.inl ?_) (hmissed identity)
      rw [Cache.identity?, hold]
      exact Record.identity?_eq_some_iff.2 hpresent
  refine ⟨?_, ?_, ?_⟩
  · -- The record stays, and it states already that the id is absent.
    intro hknown
    rw [Ledger.contains, Ledger.contains, hunheld, Option.isSome_none] at hknown
    obtain ⟨old, hold⟩ := Option.isSome_iff_exists.1 (hknown.resolve_right (by decide))
    rw [hafter, hentry, ← habsent old hold]
    exact congrArg (Option.map Record.entry) hold
  · intro hunknown _
    rw [hafter]
    exact Option.isNone_iff_eq_none.1 (Option.isSome_eq_false_iff.1 hunknown)
  · intro new _
    refine .silent ?_ ?_
    · intro old identity _ hold hpresent
      rw [habsent old hold] at hpresent
      exact absurd hpresent (by simp)
    · intro old identity hold hpresent
      rw [habsent old hold] at hpresent
      exact absurd hpresent (by simp)

/-- **What is up to date is settled.** -/
theorem UpToDate.settled (h : UpToDate before directory log)
    (hhistory : History (before.record? id) (after.record? id)
      (Attempt.written (Attempt.about (· = id) log)) told) :
    Settled before after directory id told := by
  by_cases hwritten : ∃ attempt ∈ log, attempt.record.id = id
  · obtain ⟨attempt, hmem, rfl⟩ := hwritten
    exact h.settled_of_mem hmem hhistory
  · exact h.settled_of_forall_ne (fun attempt hmem hid => hwritten ⟨attempt, hmem, hid⟩) hhistory

/-- An id that is settled twice is settled in one way. -/
theorem Settled.agree {other : Cache σ} {others : List Change}
    (h : Settled before after directory id told) (h' : Settled before other directory id others) :
    (after.record? id).map Record.entry = (other.record? id).map Record.entry ∧ told = others := by
  constructor
  · by_cases hknown : before.records.contains id = true ∨ directory.identities.contains id = true
    · rw [h.known hknown, h'.known hknown]
    · rw [not_or, Bool.not_eq_true, Bool.not_eq_true] at hknown
      rw [h.unknown hknown.1 hknown.2, h'.unknown hknown.1 hknown.2]
  · -- What is to be told does not depend on the time of the record, so any will do.
    let new : Record := ⟨id, directory.entry id, .utc 0⟩
    exact (h.succession new rfl).unique (h'.succession new rfl)

end UpToDate

variable [FallibleStore σ]

/-! ### Two ways -/

/-- **A call is run alone to its reply**: this is what it attempts to write, and what is told
meanwhile. -/
structure RunsTo (world : World σ) (call : Call) (log : List Attempt) (told : List Change)
    (later : World σ) (reply : Reply) : Prop where
  chronicle : Chronicle (lone world.tasks.length) (world.begin call) log told later
  reply_eq : later.reply? world.tasks.length = some reply

theorem RunsTo.of_chronicle {world later : World σ} {call : Call} {log : List Attempt}
    {told : List Change} {reply : Reply} {who : Nat} (hwho : world.tasks.length = who)
    (h : Chronicle (lone who) (world.begin call) log told later)
    (hreply : later.reply? who = some reply) : world.RunsTo call log told later reply := by
  subst hwho
  exact ⟨h, hreply⟩

omit [FallibleStore σ] in
theorem reply?_of_outcome? {world : World σ} {who : Nat} {outcome : CycleOutcome}
    (h : world.outcome? who = some outcome) : world.reply? who = some (.ranCycle outcome) := by
  rw [reply?_eq_some_iff]
  unfold outcome? at h
  split at h
  · next found htask =>
    rw [htask, Option.some.inj h]
  · exact absurd h (by simp)

section RunsTo

variable {world later other : World σ} {log more : List Attempt} {told others : List Change}
  {ids : List String} {report : Report} {reply : Reply}

/-- **A completed cycle** brings the records up to date, if no write fails. -/
theorem RunsTo.upToDate_of_runCycle
    (h : world.RunsTo .runCycle log told later (.ranCycle (.completed report)))
    (hmemory : world.directory.InMemory) (hkeyed : world.cache.records.KeyedBy Record.id)
    (hsucceeded : ∀ attempt ∈ log, attempt.succeeded = true) :
    UpToDate world.cache world.directory log := by
  obtain ⟨stage, htask, hstanding⟩ := h.chronicle.course.standing hkeyed
  obtain rfl := stage_eq_of_reply? h.reply_eq htask
  obtain ⟨shown, marked, rfl, haccounted⟩ := hstanding
  exact haccounted.upToDate hmemory h.chronicle.course.records_eq hsucceeded

/-- **Asking for all ids** that are known or held brings the records up to date, if no look-up and
no write fails. -/
theorem RunsTo.upToDate_of_refreshMany (h : world.RunsTo (.refreshMany ids) log told later reply)
    (hmemory : world.directory.InMemory) (hfailure : world.directory.lookupFailure = none)
    (honce : ids.Nodup)
    (hids : ∀ id, id ∈ ids ↔ world.cache.records.contains id = true ∨
      world.directory.identities.contains id = true)
    (hsucceeded : ∀ attempt ∈ log, attempt.succeeded = true) :
    UpToDate world.cache world.directory log := by
  have hbegun : Seeks world.directory ids [] (world.begin (.refreshMany ids))
      (.begun (.refreshMany ids)) := ⟨rfl, rfl, rfl⟩
  obtain ⟨stage, htask, hseeks⟩ :=
    h.chronicle.course.seeks hmemory.reachable (task_begin world _) hbegun
  obtain rfl := stage_eq_of_reply? h.reply_eq htask
  refine upToDate_of_map_statement honce hids ?_ hsucceeded
  -- No look-up fails, so each id is stated as the directory has it.
  have hstatement : world.directory.statement? =
      some ∘ fun id => (id, world.directory.entry id) :=
    funext fun id => Directory.statement?_eq hmemory hfailure id
  rw [hseeks.log_eq, hstatement, List.filterMap_eq_map]

/-- What a run that was brought up to date has told, id by id. -/
theorem RunsTo.settled {call : Call} (h : world.RunsTo call log told later reply)
    (hupToDate : UpToDate world.cache world.directory log) (id : String) :
    Settled world.cache later.cache world.directory id
      (told.filter fun change => change.id = id) :=
  hupToDate.settled (h.chronicle.history id)

end RunsTo

omit [FallibleStore σ] in
theorem eq_none_of_entry_eq {a b : Option Record} (h : a.map Record.entry = b.map Record.entry)
    (hnone : a = none) : b = none := by
  rw [hnone, Option.map_none] at h
  exact Option.map_eq_none_iff.1 h.symm

/-- **What is not known was not stored**: of an id without a record the store holds what it held at
the beginning of the course. -/
theorem Course.stored?_eq {allowed : World σ → Event σ → Prop} {start world : World σ}
    {log : List Attempt} (h : Course allowed start log world) {id : String}
    (hunknown : world.cache.record? id = none) :
    world.cache.stored? id = start.cache.stored? id := by
  have hcontents : (KeyValueStore.contents world.cache.store).get? id =
      (KeyValueStore.contents start.cache.store).get? id := by
    -- Read backwards: an id that is unknown now was so all the time, as no record is ever lost.
    refine h.cache_induction (P := fun store records => records.get? id = none →
      (KeyValueStore.contents store).get? id =
        (KeyValueStore.contents start.cache.store).get? id) (fun _ => rfl) ?_ ?_ hunknown
    · intro cache record hbefore hafter
      rcases Cache.write_cases cache record with
        ⟨text, store, -, hcontents, hwrite⟩ | ⟨error, store, hcontents, hwrite⟩
      · -- What was written is known.
        rw [hwrite] at hafter ⊢
        have hne : id ≠ record.id := by
          rintro rfl
          rw [Ledger.get?_insert_self] at hafter
          exact absurd hafter (by simp)
        rw [Ledger.get?_insert_of_ne _ _ hne] at hafter
        rw [hcontents, Ledger.get?_insert_of_ne _ _ hne]
        exact hbefore hafter
      · rw [hwrite] at hafter ⊢
        rw [hcontents]
        exact hbefore hafter
    · intro world later _ hbefalls hbefore hafter
      rw [FallibleStore.contents_of_befalls hbefalls]
      exact hbefore hafter
  unfold Cache.stored?
  rw [hcontents]

/-- **Two runs agree** in what is known and stored of every id in the end, apart from the times at
which it was written, and in what they have told, apart from its order. -/
structure Agree (world other : World σ) (told others : List Change) : Prop where
  known : ∀ id,
    (world.cache.record? id).map Record.entry = (other.cache.record? id).map Record.entry
  stored : ∀ id, world.cache.stored? id = other.cache.stored? id
  told : told.Perm others

omit [FallibleStore σ] in
/-- Changes that are the same of every id are the same but for their order. -/
theorem perm_of_filter_eq {told others : List Change}
    (h : ∀ id, (told.filter fun change => change.id = id) =
      others.filter fun change => change.id = id) : told.Perm others := by
  refine List.perm_iff_count.2 fun change => ?_
  -- Each change is told of one id.
  have hcount : ∀ changes : List Change,
      (changes.filter fun other => other.id = change.id).count change =
        changes.count change := by
    intro changes
    rw [List.count_filter]
    exact decide_eq_true rfl
  rw [← hcount told, ← hcount others, h change.id]

/-- Runs that settle every id agree. -/
theorem agree_of_settled {world later other : World σ} {call another : Call}
    {log more : List Attempt} {told others : List Change} {reply answer : Reply}
    (h : world.RunsTo call log told later reply)
    (h' : world.RunsTo another more others other answer)
    (hmirrors : Cache.Mirrors world.cache.records (KeyValueStore.contents world.cache.store))
    (hsettled : ∀ id, Settled world.cache later.cache world.directory id
      (told.filter fun change => change.id = id))
    (hsettled' : ∀ id, Settled world.cache other.cache world.directory id
      (others.filter fun change => change.id = id)) : Agree later other told others := by
  have hagree := fun id => (hsettled id).agree (hsettled' id)
  have hlater := h.chronicle.course.mirrors hmirrors
  have hother := h'.chronicle.course.mirrors hmirrors
  refine ⟨fun id => (hagree id).1, ?_, ?_⟩
  · intro id
    cases hrecord : later.cache.record? id with
    | none =>
      -- Neither run knows the id, so neither has written it.
      have hnone := eq_none_of_entry_eq (hagree id).1 hrecord
      rw [h.chronicle.course.stored?_eq hrecord, h'.chronicle.course.stored?_eq hnone]
      rfl
    | some record =>
      -- Both know it, and what they have stored is read as what they know.
      have hentry := (hagree id).1
      rw [hrecord, Option.map_some] at hentry
      obtain ⟨known, hknown, hsame⟩ := Option.map_eq_some_iff.1 hentry.symm
      rw [hlater.stored?_eq hrecord, hother.stored?_eq hknown, hsame]
  · exact perm_of_filter_eq fun id => (hagree id).2

/-- A call for several ids comes to its end, if time passes and nobody else goes on. -/
theorem exists_refreshed (world : World σ) (ids : List String) :
    ∃ log later reply, Course (lone world.tasks.length) (world.begin (.refreshMany ids)) log later ∧
      later.reply? world.tasks.length = some reply := by
  obtain ⟨hbegun, htask⟩ := Course.here.advance (task_begin world (.refreshMany ids)) rfl
  cases ids with
  | nil => exact ⟨_, _, _, hbegun, reply?_eq_some_iff.2 htask⟩
  | cons id rest =>
    obtain ⟨log, later, reply, hlater, hreply⟩ := exists_reply htask
    exact ⟨_, later, reply, hbegun.trans hlater, hreply⟩

/-- **A cycle and look-ups for all ids agree.** Let a gateway be in any state that can be reached,
with any directory in memory of which no look-up fails. Let `ids` be all ids that have a record or
that the directory holds, each once and in any order.

A cycle that is run alone is completed, if nothing stands in its way, and a call that asks for all
the ids has its reply. If the one is completed, the other has its reply, and none of the writes has
failed, then it is the same for what is known, for what is stored, and for what was told, whichever
of the two was run. -/
theorem cycle_agrees_with_lookups {store : σ} {config : Config} {cache : Cache σ} (clock : Int)
    (directory : Directory) (hcreate : Cache.create store config = .ok cache)
    {earlier : List Attempt} {world : World σ}
    (hreached : Course anything (World.start clock directory cache config) earlier world)
    (hmemory : world.directory.InMemory) (hlookups : world.directory.lookupFailure = none)
    {ids : List String} (honce : ids.Nodup)
    (hids : ∀ id, id ∈ ids ↔ world.cache.records.contains id = true ∨
      world.directory.identities.contains id = true) :
    (world.Unhindered → ∃ log told later report,
      world.RunsTo .runCycle log told later (.ranCycle (.completed report))) ∧
    (∃ log told later reply, world.RunsTo (.refreshMany ids) log told later reply) ∧
    ∀ log told later report more others other reply,
      world.RunsTo .runCycle log told later (.ranCycle (.completed report)) →
      world.RunsTo (.refreshMany ids) more others other reply →
      (∀ attempt ∈ log ++ more, attempt.succeeded = true) → Agree later other told others := by
  refine ⟨?_, ?_, ?_⟩
  · intro hunhindered
    obtain ⟨log, later, report, hcourse, hreply⟩ := exists_completed hunhindered
    obtain ⟨told, hchronicle⟩ := hcourse.exists_chronicle
    exact ⟨log, told, later, report, hchronicle, hreply⟩
  · obtain ⟨log, later, reply, hcourse, hreply⟩ := world.exists_refreshed ids
    obtain ⟨told, hchronicle⟩ := hcourse.exists_chronicle
    exact ⟨log, told, later, reply, hchronicle, hreply⟩
  · intro log told later report more others other reply hcycle hcall hsucceeded
    have hkeyed : world.cache.records.KeyedBy Record.id := by
      rw [hreached.records_eq]
      exact Attempt.keyedBy_replay (Cache.keyedBy_of_create hcreate) earlier
    have hmirrors := hreached.mirrors (Cache.mirrors_of_create hcreate)
    -- Both logs bring the records up to date, and this settles what is known, stored and told.
    have hlog := hcycle.upToDate_of_runCycle hmemory hkeyed fun attempt hmem =>
      hsucceeded attempt (List.mem_append_left _ hmem)
    have hmore := hcall.upToDate_of_refreshMany hmemory hlookups honce hids
      fun attempt hmem => hsucceeded attempt (List.mem_append_right _ hmem)
    exact agree_of_settled hcycle hcall hmirrors (hcycle.settled hlog) (hcall.settled hmore)

/-- A device has another key now and another device has left. -/
theorem cycle_agrees_with_lookups_replaced_and_left :
    ∃ (world later other : World MemoryStore) (log more : List Attempt)
      (told others : List Change) (report : Report) (reply : Reply),
      world.Unhindered ∧
      world.RunsTo .runCycle log told later (.ranCycle (.completed report)) ∧
      world.RunsTo (.refreshMany ["c", "a"]) more others other reply ∧
      told = [.updated (.ofDevice "a" "2" .none .enabled), .removed "c"] ∧
      others = [.removed "c", .updated (.ofDevice "a" "2" .none .enabled)] ∧
      Agree later other told others := by
  let directory : Directory := Directory.empty.upsert (.ofDevice "a" "2" .none .enabled)
  let start : World MemoryStore := .start 0 directory .blank .standard
  let first : Call := .update (.ofDevice "a" "1" .none .enabled)
  let second : Call := .update (.ofDevice "c" "1" .none .enabled)
  let world : World MemoryStore := (start.serve first).serve second
  have hreached : Course anything start _ world :=
    (((Course.here.call first trivial).goOn 0 trivial (by decide +kernel)).call second
      trivial).goOn 1 trivial (by decide +kernel)
  have hmemory : world.directory.InMemory := Directory.InMemory.empty.upsert _
  have hunhindered : world.Unhindered :=
    ⟨rfl, rfl, rfl, rfl, by decide +kernel, by decide +kernel⟩
  have hids : ∀ id, id ∈ ["c", "a"] ↔ world.cache.records.contains id = true ∨
      world.directory.identities.contains id = true := by
    intro id
    rw [← Ledger.mem_keys_iff, ← Ledger.mem_keys_iff,
      show world.cache.records.keys = ["a", "c"] by decide +kernel,
      show world.directory.identities.keys = ["a"] by decide +kernel]
    simp only [List.mem_cons, List.not_mem_nil, or_false]
    constructor
    · rintro (rfl | rfl) <;> simp
    · rintro ((rfl | rfl) | rfl) <;> simp
  have hlength : world.tasks.length = 2 := by decide +kernel
  have halone : ∀ world : World MemoryStore, lone 2 world (.goOn 2) := lone_goOn 2
  -- The cycle has its turn, opens the listing, and fetches the page. It takes in one identity, the
  -- listing is over, and one id is marked absent.
  let cycling : World MemoryStore := world.begin .runCycle
  have hbegun : Chronicle (lone 2) cycling [] [] cycling := .here
  have hqueued := hbegun.goOn 2 (halone _) (by decide +kernel)
  have hopened := hqueued.goOn 2 (halone _) (by decide +kernel)
  have hfetched := hopened.goOn 2 (halone _) (by decide +kernel)
  have htaken := hfetched.goOn 2 (halone _) (by decide +kernel)
  have hclosed := htaken.goOn 2 (halone _) (by decide +kernel)
  have hmarked := hclosed.goOn 2 (halone _) (by decide +kernel)
  have hended := hmarked.goOn 2 (halone _) (by decide +kernel)
  let later : World MemoryStore :=
    ((((((cycling.step 2).step 2).step 2).step 2).step 2).step 2).step 2
  have hcompleted : later.outcome? 2 = some (.completed ⟨1, 1, 0⟩) := by decide +kernel
  have hcycle := RunsTo.of_chronicle hlength hended (reply?_of_outcome? hcompleted)
  -- The call asks for either id, hears, and writes.
  let asking : World MemoryStore := world.begin (.refreshMany ["c", "a"])
  have hbegun : Chronicle (lone 2) asking [] [] asking := .here
  have hasked := hbegun.goOn 2 (halone _) (by decide +kernel)
  have hheard := hasked.goOn 2 (halone _) (by decide +kernel)
  have hconcluded := hheard.goOn 2 (halone _) (by decide +kernel)
  have hasked := hconcluded.goOn 2 (halone _) (by decide +kernel)
  have hheard := hasked.goOn 2 (halone _) (by decide +kernel)
  have hconcluded := hheard.goOn 2 (halone _) (by decide +kernel)
  have hended := hconcluded.goOn 2 (halone _) (by decide +kernel)
  let other : World MemoryStore :=
    ((((((asking.step 2).step 2).step 2).step 2).step 2).step 2).step 2
  have hreplied : (other.reply? 2).isSome = true := by decide +kernel
  obtain ⟨reply, hreply⟩ := Option.isSome_iff_exists.1 hreplied
  have hcall := RunsTo.of_chronicle hlength hended hreply
  have hagree := (cycle_agrees_with_lookups 0 directory Cache.create_blank hreached hmemory rfl
    (by decide) hids).2.2 _ _ _ _ _ _ _ _ hcycle hcall (by decide +kernel)
  exact ⟨world, later, other, _, _, _, _, _, reply, hunhindered, hcycle, hcall, by decide +kernel,
    by decide +kernel, hagree⟩

end World

end DeviceScope
