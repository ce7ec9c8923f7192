import DeviceScope.Proofs.Cache.Presence
import DeviceScope.Proofs.Directory.Memory
import DeviceScope.Proofs.Service.Walking

/-!
# What a completed cycle leaves behind

A cycle that is run alone and is completed reconciles the records with the directory
(`World.Reconciled`): each id that is listed and each id that is present and not listed is written
once, what the store takes is what the record is then, and nothing else changes.

The proof follows the task of the cycle through its stages. `World.Standing` says what has been
written at each of them; it holds along every course on which nobody else goes on
(`Course.standing`). When the cycle is completed, its log is told by the listing and by what was
present before (`World.Accounted`), and the records are the replay of this log.
-/

namespace DeviceScope.World

variable {σ : Type}

/-- **What a cycle has written** that has come to the end of its listing: first all that the listing
shows, and then that some ids are absent. With those that are still to be marked so, these are the
ids that were present in `records` and are not shown. -/
structure Accounted (opened : Listing) (records : Ledger Record) (shown marked : List Attempt)
    (gone : List String) (report : Report) : Prop where
  shown_eq : shown.map Attempt.statement = opened.pages.flatten.map Identity.statement
  entry_eq : ∀ attempt ∈ marked, attempt.record.entry = .absent
  /-- No id is marked absent twice. -/
  once : ((marked.map fun attempt => attempt.record.id) ++ gone).Nodup
  mem_iff : ∀ id, id ∈ (marked.map fun attempt => attempt.record.id) ++ gone ↔
    (∃ known, records.get? id = some known ∧ known.entry.isPresent = true) ∧
      ∀ identity ∈ opened.pages.flatten, identity.id ≠ id
  report_eq : report = ⟨opened.pages.flatten.length, Attempt.successes marked,
    Attempt.failures (shown ++ marked)⟩

/-! ### The records afterwards -/

/-- **The records are reconciled with a directory**, by writes some of which may have failed. -/
structure Reconciled (before after : Cache σ) (directory : Directory) (log : List Attempt)
    (report : Report) : Prop where
  /-- No id was written twice. -/
  once : (log.map fun attempt => attempt.record.id).Nodup
  /-- An identity that the directory holds was written. If the write failed, the record is what it
  was. -/
  listed : ∀ id identity, directory.identities.get? id = some identity →
    ∃ attempt ∈ log, attempt.statement = (id, .present identity) ∧
      after.record? id = if attempt.succeeded then some attempt.record else before.record? id
  /-- An id that was present and that the directory does not hold was marked absent. If the write
  failed, the record is what it was. -/
  unlisted : ∀ id known, before.record? id = some known → known.entry.isPresent = true →
    directory.identities.get? id = none →
    ∃ attempt ∈ log, attempt.statement = (id, .absent) ∧
      after.record? id = if attempt.succeeded then some attempt.record else some known
  /-- The record of any other id is what it was. -/
  untouched : ∀ id, directory.identities.get? id = none →
    (∀ known, before.record? id = some known → known.entry.isPresent = false) →
    after.record? id = before.record? id
  /-- Nothing else was written. -/
  written : ∀ attempt ∈ log,
    directory.identities.contains attempt.record.id = true ∨
      attempt.record.id ∈ before.presentIds
  listed_eq : report.listed = directory.identities.size
  /-- What is counted as removed are the ids that were present and are absent now. -/
  removed_eq : report.removed = (before.presentIds.filter fun id =>
    (after.record? id).map Record.entry = some .absent).length
  failures_eq : report.failures = Attempt.failures log
  /-- If no write failed, exactly the ids that the directory holds are present. -/
  exact_of_failures : report.failures = 0 →
    ∀ id, id ∈ after.presentIds ↔ directory.identities.contains id = true

namespace Accounted

variable {directory : Directory} {before after : Cache σ} {shown marked : List Attempt}
  {report : Report}

/-- The ids of the pages are the ids of the identities that the directory holds. -/
theorem map_id_shown {opened : Listing} {records : Ledger Record} {gone : List String}
    (h : Accounted opened records shown marked gone report) :
    (shown.map fun attempt => attempt.record.id) = opened.pages.flatten.map Identity.id := by
  have hfst := congrArg (List.map Prod.fst) h.shown_eq
  rw [List.map_map, List.map_map] at hfst
  exact hfst

/-- When nothing is left to be marked absent, these are the ids that were marked. -/
theorem mem_marked_iff {opened : Listing} {records : Ledger Record}
    (h : Accounted opened records shown marked [] report) (id : String) :
    (∃ attempt ∈ marked, attempt.record.id = id) ↔
      (∃ known, records.get? id = some known ∧ known.entry.isPresent = true) ∧
        ∀ identity ∈ opened.pages.flatten, identity.id ≠ id := by
  rw [← h.mem_iff, List.append_nil, List.mem_map]

theorem nodup_marked {opened : Listing} {records : Ledger Record}
    (h : Accounted opened records shown marked [] report) :
    (marked.map fun attempt => attempt.record.id).Nodup := by
  have honce := h.once
  rwa [List.append_nil] at honce

theorem not_mem_listing_iff (hmemory : directory.InMemory) {id : String} :
    (∀ identity ∈ directory.listing.pages.flatten, identity.id ≠ id) ↔
      directory.identities.get? id = none := by
  constructor
  · intro h
    cases hget : directory.identities.get? id with
    | none => rfl
    | some identity =>
      have hid := hmemory.keyedBy id identity hget
      rw [← hid] at hget
      exact absurd hid (h identity (hmemory.mem_listing_iff.2 hget))
  · intro hnone identity hmem hid
    rw [hmemory.mem_listing_iff, hid, hnone] at hmem
    exact absurd hmem (by simp)

/-- No id is written twice. -/
theorem nodup_ids (h : Accounted directory.listing before.records shown marked [] report)
    (hmemory : directory.InMemory) :
    ((shown ++ marked).map fun attempt => attempt.record.id).Nodup := by
  rw [List.map_append, List.nodup_append]
  -- The directory shows no id twice, and what is marked is not shown.
  refine ⟨?_, h.nodup_marked, ?_⟩
  · rw [h.map_id_shown]
    exact hmemory.nodup_ids
  · intro id hshown other hmarked heq
    subst heq
    rw [h.map_id_shown] at hshown
    obtain ⟨identity, hmem, hid⟩ := List.mem_map.1 hshown
    have hunlisted := ((h.mem_marked_iff id).1 (List.mem_map.1 hmarked)).2
    exact hunlisted identity hmem hid

/-- The attempt that names an id decides its record. -/
theorem record?_of_mem (h : Accounted directory.listing before.records shown marked [] report)
    (hmemory : directory.InMemory)
    (hafter : after.records = Attempt.replay before.records (shown ++ marked))
    {attempt : Attempt} (hmem : attempt ∈ shown ++ marked) :
    after.record? attempt.record.id =
      if attempt.succeeded then some attempt.record else before.record? attempt.record.id := by
  rw [Cache.record?, hafter]
  exact Attempt.get?_replay_of_mem (h.nodup_ids hmemory) hmem

theorem listed (h : Accounted directory.listing before.records shown marked [] report)
    (hmemory : directory.InMemory)
    (hafter : after.records = Attempt.replay before.records (shown ++ marked)) {id : String}
    {identity : Identity} (hget : directory.identities.get? id = some identity) :
    ∃ attempt ∈ shown ++ marked, attempt.statement = (id, .present identity) ∧
      after.record? id = if attempt.succeeded then some attempt.record else before.record? id := by
  have hid := hmemory.keyedBy id identity hget
  subst hid
  have hstatement : identity.statement ∈ shown.map Attempt.statement := by
    rw [h.shown_eq]
    exact List.mem_map_of_mem (hmemory.mem_listing_iff.2 hget)
  obtain ⟨attempt, hmem, hattempt⟩ := List.mem_map.1 hstatement
  have hmem' : attempt ∈ shown ++ marked := List.mem_append_left _ hmem
  have hid : attempt.record.id = identity.id := congrArg Prod.fst hattempt
  refine ⟨attempt, hmem', hattempt, ?_⟩
  rw [← hid]
  exact h.record?_of_mem hmemory hafter hmem'

theorem unlisted (h : Accounted directory.listing before.records shown marked [] report)
    (hmemory : directory.InMemory)
    (hafter : after.records = Attempt.replay before.records (shown ++ marked)) {id : String}
    {known : Record} (hknown : before.record? id = some known)
    (hpresent : known.entry.isPresent = true) (hget : directory.identities.get? id = none) :
    ∃ attempt ∈ marked, attempt.statement = (id, .absent) ∧
      after.record? id = if attempt.succeeded then some attempt.record else some known := by
  obtain ⟨attempt, hmem, hid⟩ := (h.mem_marked_iff id).2
    ⟨⟨known, hknown, hpresent⟩, (not_mem_listing_iff hmemory).2 hget⟩
  refine ⟨attempt, hmem, ?_, ?_⟩
  · rw [Attempt.statement, Record.statement, hid, h.entry_eq attempt hmem]
  · rw [← hknown, ← hid]
    exact h.record?_of_mem hmemory hafter (List.mem_append_right _ hmem)

/-- What is written is either held by the directory or was present. -/
theorem written (h : Accounted directory.listing before.records shown marked [] report)
    (hmemory : directory.InMemory) {attempt : Attempt} (hmem : attempt ∈ shown ++ marked) :
    directory.identities.contains attempt.record.id = true ∨
      directory.identities.get? attempt.record.id = none ∧
        ∃ known, before.record? attempt.record.id = some known ∧
          known.entry.isPresent = true := by
  rcases List.mem_append.1 hmem with hmem | hmem
  · have hid : attempt.record.id ∈ shown.map fun attempt => attempt.record.id :=
      List.mem_map_of_mem hmem
    rw [h.map_id_shown] at hid
    obtain ⟨identity, hidentity, heq⟩ := List.mem_map.1 hid
    rw [hmemory.mem_listing_iff, heq] at hidentity
    exact .inl (Ledger.contains_iff.2 ⟨identity, hidentity⟩)
  · obtain ⟨hpresent, hunlisted⟩ := (h.mem_marked_iff _).1 ⟨attempt, hmem, rfl⟩
    exact .inr ⟨(not_mem_listing_iff hmemory).1 hunlisted, hpresent⟩

theorem untouched (h : Accounted directory.listing before.records shown marked [] report)
    (hmemory : directory.InMemory)
    (hafter : after.records = Attempt.replay before.records (shown ++ marked)) {id : String}
    (hget : directory.identities.get? id = none)
    (habsent : ∀ known, before.record? id = some known → known.entry.isPresent = false) :
    after.record? id = before.record? id := by
  rw [Cache.record?, hafter]
  refine Attempt.get?_replay_of_forall_not fun attempt hmem hattempt => ?_
  rcases h.written hmemory hmem with hcontains | ⟨-, known, hknown, hpresent⟩
  · rw [hattempt.2, Ledger.contains, hget] at hcontains
    exact absurd hcontains (by decide)
  · rw [hattempt.2] at hknown
    rw [habsent known hknown] at hpresent
    exact absurd hpresent (by decide)

/-- An id that was present is absent now exactly if an attempt to mark it so has succeeded. -/
theorem removed_iff (h : Accounted directory.listing before.records shown marked [] report)
    (hmemory : directory.InMemory)
    (hafter : after.records = Attempt.replay before.records (shown ++ marked)) {id : String}
    {known : Record} (hknown : before.record? id = some known)
    (hpresent : known.entry.isPresent = true) :
    (after.record? id).map Record.entry = some .absent ↔
      ∃ attempt ∈ marked, attempt.succeeded = true ∧ attempt.record.id = id := by
  have hkept : (some known).map Record.entry ≠ some .absent := by
    intro heq
    rw [Entry.isPresent, Option.some.inj heq] at hpresent
    exact absurd hpresent (by decide)
  constructor
  · intro hgone
    -- An id that the directory holds is present afterwards, whether its write succeeded or not.
    cases hget : directory.identities.get? id with
    | some identity =>
      obtain ⟨attempt, -, hstatement, hrecord⟩ := h.listed hmemory hafter hget
      rw [hrecord, hknown] at hgone
      split at hgone
      · have hentry : attempt.record.entry = .present identity := congrArg Prod.snd hstatement
        rw [Option.map_some, hentry] at hgone
        exact absurd hgone (by simp)
      · exact absurd hgone hkept
    | none =>
      obtain ⟨attempt, hmem, hstatement, hrecord⟩ := h.unlisted hmemory hafter hknown hpresent hget
      rw [hrecord] at hgone
      split at hgone
      · next hs => exact ⟨attempt, hmem, hs, congrArg Prod.fst hstatement⟩
      · exact absurd hgone hkept
  · rintro ⟨attempt, hmem, hs, rfl⟩
    rw [h.record?_of_mem hmemory hafter (List.mem_append_right _ hmem), if_pos hs, Option.map_some,
      h.entry_eq attempt hmem]

/-- As many ids have been marked absent as were present and are absent now. -/
theorem length_removed (h : Accounted directory.listing before.records shown marked [] report)
    (hmemory : directory.InMemory) (hkeyed : before.records.KeyedBy Record.id)
    (hafter : after.records = Attempt.replay before.records (shown ++ marked)) :
    Attempt.successes marked = (before.presentIds.filter fun id =>
      (after.record? id).map Record.entry = some .absent).length := by
  -- Both lists are without repetition and have the same members.
  let succeeded := marked.filter fun attempt => attempt.succeeded
  have hcount : Attempt.successes marked =
      (succeeded.map fun attempt => attempt.record.id).length := by
    rw [List.length_map, Attempt.successes, List.countP_eq_length_filter]
  rw [hcount]
  refine List.Perm.length_eq ((List.perm_ext_iff_of_nodup ?_ ?_).2 fun id => ?_)
  · exact h.nodup_marked.sublist (List.filter_sublist.map _)
  · exact (Cache.nodup_presentIds hkeyed).sublist List.filter_sublist
  · rw [List.mem_filter, Cache.mem_presentIds_iff hkeyed, decide_eq_true_iff, List.mem_map]
    constructor
    · rintro ⟨attempt, hmem, rfl⟩
      obtain ⟨hmarked, hs⟩ := List.mem_filter.1 hmem
      obtain ⟨known, hknown, hpresent⟩ := ((h.mem_marked_iff _).1 ⟨attempt, hmarked, rfl⟩).1
      refine ⟨⟨known, hknown, hpresent⟩, ?_⟩
      exact (h.removed_iff hmemory hafter hknown hpresent).2 ⟨attempt, hmarked, hs, rfl⟩
    · rintro ⟨⟨known, hknown, hpresent⟩, hgone⟩
      obtain ⟨attempt, hmarked, hs, hid⟩ :=
        (h.removed_iff hmemory hafter hknown hpresent).1 hgone
      exact ⟨attempt, List.mem_filter.2 ⟨hmarked, hs⟩, hid⟩

/-- If no write failed, exactly the ids that the directory holds are present. -/
theorem mem_presentIds_iff (h : Accounted directory.listing before.records shown marked [] report)
    (hmemory : directory.InMemory) (hkeyed : before.records.KeyedBy Record.id)
    (hafter : after.records = Attempt.replay before.records (shown ++ marked))
    (hfailures : Attempt.failures (shown ++ marked) = 0) (id : String) :
    id ∈ after.presentIds ↔ directory.identities.contains id = true := by
  have hkeyed' : after.records.KeyedBy Record.id := by
    rw [hafter]
    exact Attempt.keyedBy_replay hkeyed _
  rw [Cache.mem_presentIds_iff hkeyed']
  constructor
  · rintro ⟨record, hrecord, hpresent⟩
    cases hget : directory.identities.get? id with
    | some identity => exact Ledger.contains_iff.2 ⟨identity, hget⟩
    | none =>
      -- An id that the directory does not hold is not present afterwards.
      exfalso
      by_cases hbefore : ∃ known, before.record? id = some known ∧ known.entry.isPresent = true
      · -- It was marked absent.
        obtain ⟨known, hknown, hwas⟩ := hbefore
        obtain ⟨attempt, hmem, hstatement, hafter'⟩ :=
          h.unlisted hmemory hafter hknown hwas hget
        have hs := Attempt.succeeded_of_failures_eq_zero hfailures (List.mem_append_right _ hmem)
        rw [hrecord, if_pos hs] at hafter'
        have hentry : attempt.record.entry = .absent := congrArg Prod.snd hstatement
        rw [Option.some.inj hafter', hentry] at hpresent
        exact absurd hpresent (by decide)
      · -- It was not present before, and nothing was written.
        have habsent : ∀ known, before.record? id = some known →
            known.entry.isPresent = false := by
          intro known hknown
          exact Bool.eq_false_iff.2 fun hwas => hbefore ⟨known, hknown, hwas⟩
        rw [h.untouched hmemory hafter hget habsent] at hrecord
        rw [habsent record hrecord] at hpresent
        exact absurd hpresent (by decide)
  · intro hcontains
    obtain ⟨identity, hget⟩ := Ledger.contains_iff.1 hcontains
    obtain ⟨attempt, hmem, hstatement, hrecord⟩ := h.listed hmemory hafter hget
    have hs := Attempt.succeeded_of_failures_eq_zero hfailures hmem
    rw [if_pos hs] at hrecord
    have hentry : attempt.record.entry = .present identity := congrArg Prod.snd hstatement
    exact ⟨attempt.record, hrecord, by rw [hentry]; rfl⟩

/-- **The account of a completed cycle** reconciles the records with the directory. -/
theorem reconciled (h : Accounted directory.listing before.records shown marked [] report)
    (hmemory : directory.InMemory) (hkeyed : before.records.KeyedBy Record.id)
    (hafter : after.records = Attempt.replay before.records (shown ++ marked)) :
    Reconciled before after directory (shown ++ marked) report where
  once := h.nodup_ids hmemory
  listed _ _ hget := h.listed hmemory hafter hget
  unlisted id known hknown hpresent hget := by
    obtain ⟨attempt, hmem, hattempt⟩ := h.unlisted hmemory hafter hknown hpresent hget
    exact ⟨attempt, List.mem_append_right _ hmem, hattempt⟩
  untouched _ hget habsent := h.untouched hmemory hafter hget habsent
  written attempt hmem := by
    rcases h.written hmemory hmem with hcontains | ⟨-, hpresent⟩
    · exact .inl hcontains
    · exact .inr ((Cache.mem_presentIds_iff hkeyed).2 hpresent)
  listed_eq := by rw [h.report_eq, hmemory.length_listing]
  removed_eq := by rw [h.report_eq, h.length_removed hmemory hkeyed hafter]
  failures_eq := by rw [h.report_eq]
  exact_of_failures hnone := by
    rw [h.report_eq] at hnone
    exact h.mem_presentIds_iff hmemory hkeyed hafter hnone

end Accounted

/-! ### Stage by stage -/

/-- What the task of a cycle has written at each of its stages, if the call came in in `start` and
the directory is this one by now. -/
def Standing (start : World σ) (log : List Attempt) (directory : Directory) : CallStage → Prop
  | .begun .runCycle | .cycling .queued => log = [] ∧ directory = start.directory
  | .cycling (.walking cycle) =>
    ∃ written, cycle.Follows start.directory.listing written ∧
      log.map Attempt.statement = written.map Identity.statement ∧
      cycle.report.failures = Attempt.failures log
  | .cycling (.marking report gone) =>
    ∃ shown marked, log = shown ++ marked ∧
      Accounted start.directory.listing start.cache.records shown marked gone report
  | .done (.ranCycle (.completed report)) =>
    ∃ shown marked, log = shown ++ marked ∧
      Accounted start.directory.listing start.cache.records shown marked [] report
  | .done _ => True
  | _ => False

/-- How the cycle has ended that a call has run. -/
def outcome? (world : World σ) (who : Nat) : Option CycleOutcome :=
  match world.tasks[who]? with
  | some (.call (.done (.ranCycle outcome))) => some outcome
  | _ => none

/-- What happens while no task goes on but one, and the directory stays as it is. -/
def lone (who : Nat) : World σ → Event σ → Prop := fun _ event =>
  (∀ other, event = .goOn other → other = who) ∧ ∀ directory, event ≠ .directory directory

variable [FallibleStore σ]

/-- Where nobody else goes on, what happens is the task going on, or it leaves the task, the
directory and the records alone. -/
theorem lone_cases {who : Nat} {world : World σ} {event : Event σ} (h : lone who world event) :
    event = .goOn who ∨
      world.attempts event = [] ∧ (world.after event).directory = world.directory ∧
        ∀ task, world.tasks[who]? = some task → (world.after event).tasks[who]? = some task := by
  have hadd : ∀ task new, world.tasks[who]? = some task →
      (world.tasks ++ [new])[who]? = some task := by
    intro task new htask
    rwa [List.getElem?_append_left (List.getElem?_eq_some_iff.1 htask).1]
  cases event with
  | goOn other =>
    rw [h.1 other rfl]
    exact .inl rfl
  | call call => exact .inr ⟨rfl, rfl, fun task htask => hadd task _ htask⟩
  | startService => exact .inr ⟨rfl, rfl, fun task htask => hadd task _ htask⟩
  | directory directory => exact absurd rfl (h.2 directory)
  | _ => exact .inr ⟨rfl, rfl, fun _ htask => htask⟩

omit [FallibleStore σ] in
/-- Identities that do not have an id leave its record alone. -/
theorem record?_of_forall_ne {records : Ledger Record} {log : List Attempt} {cache : Cache σ}
    {written : List Identity} {id : String}
    (hlog : log.map Attempt.statement = written.map Identity.statement)
    (hcache : cache.records = Attempt.replay records log)
    (h : ∀ identity ∈ written, identity.id ≠ id) : cache.record? id = records.get? id := by
  rw [Cache.record?, hcache]
  refine Attempt.get?_replay_of_forall_not fun attempt hmem hattempt => ?_
  have hstatement : attempt.statement ∈ written.map Identity.statement := by
    rw [← hlog]
    exact List.mem_map_of_mem hmem
  obtain ⟨identity, hidentity, heq⟩ := List.mem_map.1 hstatement
  have hid : identity.id = attempt.record.id := congrArg Prod.fst heq
  exact h identity hidentity (hid.trans hattempt.2)

omit [FallibleStore σ] in
/-- At the end of the listing everything that it shows was written, and nothing was marked absent
yet. -/
theorem Accounted.closed {opened : Listing} {records : Ledger Record} {log : List Attempt}
    {cycle : Cycle} {written : List Identity} {cache : Cache σ}
    (hfollows : cycle.Follows opened written) (hpage : cycle.page = [])
    (hend : cycle.listing.hasNext = false)
    (hlog : log.map Attempt.statement = written.map Identity.statement)
    (hfailures : cycle.report.failures = Attempt.failures log)
    (hcache : cache.records = Attempt.replay records log)
    (hkeyed : cache.records.KeyedBy Record.id) :
    Accounted opened records log [] (cycle.gone cache) cycle.report := by
  have hwritten := hfollows.written_eq hpage hend
  have hlisted := hfollows.listed
  rw [hwritten] at hlog hlisted
  -- So far only the listing was written, so an id that it does not show is as it was.
  refine ⟨hlog, by simp, ?_, ?_, ?_⟩
  · exact (Cache.nodup_presentIds hkeyed).sublist List.filter_sublist
  · intro id
    show id ∈ cycle.gone cache ↔ _
    rw [hfollows.mem_gone_iff hpage hend, Cache.mem_presentIds_iff hkeyed]
    refine and_congr_left fun hunlisted => ?_
    rw [record?_of_forall_ne hlog hcache hunlisted]
  · rw [List.append_nil, ← hlisted, ← hfailures]
    exact congrArg (Report.mk _ · _) hfollows.removed

/-- One more id is marked absent. -/
theorem Accounted.marked {opened : Listing} {records : Ledger Record} {shown marked : List Attempt}
    {id : String} {gone : List String} {report : Report}
    (h : Accounted opened records shown marked (id :: gone) report) (cache : Cache σ)
    (now : Timestamp) :
    Accounted opened records shown (marked ++ cache.attempts (some (.absent id now))) gone
      (Cycle.markAbsent report cache id now).1 := by
  -- The id goes over from what is left to what was marked, and the list of both stays the same.
  have hids : ((marked ++ cache.attempts (some (.absent id now))).map fun attempt =>
      attempt.record.id) ++ gone = (marked.map fun attempt => attempt.record.id) ++ id :: gone := by
    rw [List.map_append, List.append_assoc]
    rfl
  refine ⟨h.shown_eq, ?_, ?_, ?_, ?_⟩
  · intro attempt hmem
    rcases List.mem_append.1 hmem with hmem | hmem
    · exact h.entry_eq attempt hmem
    · rw [← Option.some.inj (Cache.eq_of_mem_attempts hmem)]
      rfl
  · rw [hids]
    exact h.once
  · intro other
    rw [hids]
    exact h.mem_iff other
  · rw [Cycle.markAbsent_eq, h.report_eq, Cache.attempts_some, ← List.append_assoc,
      Attempt.successes_append, Attempt.failures_append (shown ++ marked),
      Attempt.successes_singleton, Attempt.failures_singleton]

/-- **What the task of a cycle has written, one turn later.** -/
theorem Standing.turn {start world : World σ} {log : List Attempt} {stage later : CycleStage}
    (h : Standing start log world.directory (.cycling stage))
    (hrecords : world.cache.records = Attempt.replay start.cache.records log)
    (hkeyed : world.cache.records.KeyedBy Record.id) (hturns : world.Turns stage later)
    (directory : Directory) :
    Standing start (log ++ world.cache.attempts (world.cycleWrite? stage)) directory
      (.cycling later) := by
  -- Along the turns of the cycle the log grows by what each of them writes.
  cases hturns with
  | began timeout =>
    obtain ⟨rfl, hsame⟩ := h
    rw [hsame]
    exact ⟨[], .start _ _ _, rfl, rfl⟩
  | fetched due hpage hmore hnext =>
    obtain ⟨written, hfollows, hlog, hfailures⟩ := h
    rw [cycleWrite?, hpage, List.head?_nil, Option.map_none, Cache.attempts_none, List.append_nil]
    exact ⟨written, hfollows.turn due hpage hmore hnext, hlog, hfailures⟩
  | @tookIn cycle identity page due hpage =>
    obtain ⟨written, hfollows, hlog, hfailures⟩ := h
    rw [cycleWrite?, hpage, List.head?_cons, Option.map_some, Cache.attempts_some]
    refine ⟨written ++ [identity], hfollows.takeIn _ _ due hpage, ?_, ?_⟩
    · rw [List.map_append, hlog, List.map_append]
      rfl
    · rw [Cycle.takeIn_eq, Attempt.failures_append, Attempt.failures_singleton, ← hfailures]
  | closed hpage hend =>
    obtain ⟨written, hfollows, hlog, hfailures⟩ := h
    rw [cycleWrite?, hpage, List.head?_nil, Option.map_none, Cache.attempts_none, List.append_nil]
    exact ⟨log, [], (List.append_nil _).symm,
      .closed hfollows hpage hend hlog hfailures hrecords hkeyed⟩
  | marked report id gone =>
    obtain ⟨shown, marked, rfl, haccounted⟩ := h
    exact ⟨shown, _, List.append_assoc _ _ _, haccounted.marked world.cache world.now⟩

omit [FallibleStore σ] in
/-- What the task of a cycle has written when the cycle ends. -/
theorem Standing.ended {start : World σ} {log : List Attempt} {before after : Directory}
    {stage : CycleStage} {outcome : CycleOutcome}
    (h : Standing start log before (.cycling stage)) (hends : stage.Ends outcome) :
    Standing start log after (.done (.ranCycle outcome)) := by
  -- Only a cycle with nothing left to mark is completed, and then its account is whole.
  cases hends with
  | cancelled => trivial
  | brokeOff hpage houtcome =>
    cases outcome with
    | completed report => exact absurd houtcome (by simp [CycleOutcome.isCompleted])
    | _ => trivial
  | completed report => exact h

/-- **What the task of a cycle has written, one step later.** -/
theorem Standing.step {start world : World σ} {log : List Attempt} {who : Nat} {stage : CallStage}
    (h : Standing start log world.directory stage)
    (hrecords : world.cache.records = Attempt.replay start.cache.records log)
    (hkeyed : world.cache.records.KeyedBy Record.id)
    (htask : world.tasks[who]? = some (.call stage)) (hready : world.isReady who = true) :
    Standing start (log ++ world.attempts (.goOn who)) (world.step who).directory
      (world.callStep who stage).1 := by
  have hwrite : world.write? (.goOn who) = world.callWrite? stage := by
    rw [write?, htask]
    rfl
  rw [attempts, hwrite]
  cases stage with
  | begun call =>
    cases call with
    | runCycle =>
      -- The call waits for its turn now.
      obtain ⟨rfl, hsame⟩ := h
      refine ⟨rfl, ?_⟩
      rw [World.step, htask]
      exact hsame
    | _ => exact absurd h fun h => h
  | cycling stage =>
    rw [callStep]
    split
    · next later world' hstep =>
      exact h.turn hrecords hkeyed (turns_of_goesOn (congrArg Prod.fst hstep)) _
    · next outcome world' hstep =>
      -- The last step writes nothing.
      have hends := ends_of_ended (congrArg Prod.fst hstep)
      rw [callWrite?, cycleWrite?_of_ends hends, Cache.attempts_none, List.append_nil]
      exact h.ended hends
    · trivial
  | done reply =>
    -- Nothing is left to do.
    rw [isReady, htask] at hready
    exact absurd hready (by simp [isTaskReady])
  | _ => exact absurd h fun h => h

/-- The task of a cycle stands at one of its stages, along every course on which nobody else goes
on. -/
theorem Course.standing {start world : World σ} {log : List Attempt}
    (h : Course (lone start.tasks.length) (start.begin .runCycle) log world)
    (hkeyed : start.cache.records.KeyedBy Record.id) :
    ∃ stage, world.tasks[start.tasks.length]? = some (.call stage) ∧
      Standing start log world.directory stage := by
  -- The stage changes when the task goes on, and nothing else touches it.
  induction h with
  | here =>
    refine ⟨.begun .runCycle, ?_, rfl, rfl⟩
    show (start.tasks ++ [_])[start.tasks.length]? = _
    rw [List.getElem?_append_right (Nat.le_refl _), Nat.sub_self]
    rfl
  | @next log world event hcourse hallowed hadmits ih =>
    obtain ⟨stage, htask, hstanding⟩ := ih
    rcases lone_cases hallowed with rfl | ⟨hnothing, hdirectory, hsame⟩
    · have hrecords := hcourse.records_eq
      have hworld : world.cache.records.KeyedBy Record.id := by
        rw [hrecords]
        exact Attempt.keyedBy_replay hkeyed log
      have hnext : (world.step start.tasks.length).tasks[start.tasks.length]? =
          some (.call (world.callStep start.tasks.length stage).1) := by
        rw [task_step, htask]
        rfl
      exact ⟨_, hnext, hstanding.step hrecords hworld htask hadmits⟩
    · rw [hnothing, List.append_nil, hdirectory]
      exact ⟨stage, hsame _ htask, hstanding⟩

/-- **Full reconciliation.** Let a gateway be in any state that can be reached, with any directory
in memory, and let a cycle be run while nobody else goes on, whatever troubles befall the store. If
the cycle is completed, the records are reconciled with the directory. -/
theorem run_cycle_reconciles {store : σ} {config : Config} {cache : Cache σ} (clock : Int)
    (directory : Directory) (hcreate : Cache.create store config = .ok cache)
    {earlier log : List Attempt} {world later : World σ} {report : Report}
    (hreached : Course anything (World.start clock directory cache config) earlier world)
    (hmemory : world.directory.InMemory)
    (hlone : Course (lone world.tasks.length) (world.begin .runCycle) log later)
    (hcompleted : later.outcome? world.tasks.length = some (.completed report)) :
    Reconciled world.cache later.cache world.directory log report := by
  have hkeyed : world.cache.records.KeyedBy Record.id := by
    rw [hreached.records_eq]
    exact Attempt.keyedBy_replay (Cache.keyedBy_of_create hcreate) earlier
  obtain ⟨stage, htask, hstanding⟩ := hlone.standing hkeyed
  rw [outcome?, htask] at hcompleted
  split at hcompleted
  · next outcome hdone =>
    obtain rfl : stage = .done (.ranCycle outcome) := Task.call.inj (Option.some.inj hdone)
    obtain rfl : outcome = .completed report := Option.some.inj hcompleted
    obtain ⟨shown, marked, rfl, haccounted⟩ := hstanding
    exact haccounted.reconciled hmemory hkeyed hlone.records_eq
  · exact absurd hcompleted (by simp)

/-- A device has left and two have come, and the first write fails. -/
theorem run_cycle_reconciles_despite_failed_write :
    ∃ (world later : World MemoryStore) (log : List Attempt),
      later.outcome? world.tasks.length = some (.completed ⟨2, 1, 1⟩) ∧
      world.cache.presentIds = ["c"] ∧ later.cache.presentIds = ["b"] ∧
      Reconciled world.cache later.cache world.directory log ⟨2, 1, 1⟩ := by
  let device (id : String) : Identity := .ofDevice id "1" .none .enabled
  let directory : Directory := (Directory.empty.upsert (device "a")).upsert (device "b")
  have hmemory : directory.InMemory := (Directory.InMemory.empty.upsert _).upsert _
  let start : World MemoryStore := .start 0 directory .blank .standard
  -- The device that will have left becomes known.
  let world : World MemoryStore := (start.begin (.update (device "c"))).step 0
  have hreached : Course anything start _ world :=
    (Course.here.call (.update (device "c")) trivial).goOn 0 trivial (by decide +kernel)
  have halone : ∀ world : World MemoryStore, lone 1 world (.goOn 1) := by
    intro world
    refine ⟨?_, by simp⟩
    rintro other heq
    exact (Event.goOn.inj heq).symm
  -- The cycle has begun when the store runs into trouble.
  let begun : World MemoryStore := ((world.begin .runCycle).step 1).step 1
  have hbegun : Course (lone 1) (world.begin .runCycle) _ begun :=
    (Course.here.goOn 1 (halone _) (by decide +kernel)).goOn 1 (halone _) (by decide +kernel)
  let store : MemoryStore := begun.cache.store.failNext 1
  let troubled : World MemoryStore := begun.after (.trouble store)
  have htroubled : Course (lone 1) (world.begin .runCycle) _ troubled :=
    hbegun.next ⟨by simp, by simp⟩ ⟨1, rfl⟩
  -- The page arrives with two identities, the listing is over, and one id is marked absent.
  have hfetched := htroubled.goOn 1 (halone _) (by decide +kernel)
  have hfirst := hfetched.goOn 1 (halone _) (by decide +kernel)
  have hsecond := hfirst.goOn 1 (halone _) (by decide +kernel)
  have hclosed := hsecond.goOn 1 (halone _) (by decide +kernel)
  have hmarked := hclosed.goOn 1 (halone _) (by decide +kernel)
  let later : World MemoryStore := (((((troubled.step 1).step 1).step 1).step 1).step 1).step 1
  have hlater : Course (lone 1) (world.begin .runCycle) _ later :=
    hmarked.goOn 1 (halone _) (by decide +kernel)
  have hcompleted : later.outcome? world.tasks.length = some (.completed ⟨2, 1, 1⟩) := by
    decide +kernel
  have hreconciled := run_cycle_reconciles 0 directory Cache.create_blank hreached hmemory hlater
    hcompleted
  exact ⟨world, later, _, hcompleted, by decide +kernel, by decide +kernel, hreconciled⟩

end DeviceScope.World
