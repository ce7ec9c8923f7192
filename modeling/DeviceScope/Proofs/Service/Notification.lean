import DeviceScope.Proofs.Cache.Announcement
import DeviceScope.Proofs.Service.Ownership

/-!
# What subscribers are told

An event emits changes if it does to every notifier what sending them does (`World.Emits`); there is
exactly one list of changes of which this is true (`World.emits_iff`). A `World.Chronicle` is a
course of events together with all that was emitted on the way.

For each id, what a chronicle has emitted is what is to be told of the records that were written for
it one after another (`History`), and nothing else (`World.notifications_follow_records`). The step
is `World.history_after`: an event writes one record at most, an identity is written under its own
id, and so all that the event emits is about the id of the record.
-/

namespace DeviceScope

variable {σ : Type}

/-- The records of a log that the store has taken. -/
def Attempt.written (log : List Attempt) : List Record :=
  (log.filter fun attempt => attempt.succeeded).map Attempt.record

theorem Attempt.written_append (log more : List Attempt) :
    written (log ++ more) = written log ++ written more := by
  unfold written
  rw [List.filter_append, List.map_append]

theorem Attempt.written_about_singleton (attempt : Attempt) (id : String) :
    written (about (· = id) [attempt]) =
      if attempt.succeeded = true ∧ attempt.record.id = id then [attempt.record] else [] := by
  unfold written about
  by_cases hid : attempt.record.id = id <;> by_cases hsucceeded : attempt.succeeded = true <;>
    simp [hid, hsucceeded]

/-- What is announced of a record that holds its own identity is about the id of the record. -/
theorem id_of_announcement? {old? : Option Record} {new : Record} {change : Change}
    (h : announcement? old? new = some change) (hown : new.HoldsOwn) : change.id = new.id := by
  unfold announcement? at h
  split at h
  · exact absurd h (by simp)
  · next after _ hafter =>
    split at h
    · exact absurd h (by simp)
    · rw [← Option.some.inj h]
      exact hown after (Record.identity?_eq_some_iff.2 hafter)
  · split at h
    · rw [← Option.some.inj h]
      rfl
    · exact absurd h (by simp)

/-! ### Telling what was sent -/

namespace Notifier

/-- A notifier with two subscribers, of which one stays whatever the other does. -/
def attentive (capacity : Nat) : Notifier :=
  ⟨capacity, 0, [], ((∅ : Ledger Nat).insert "a" 0).insert "b" 0, false⟩

theorem isEmpty_insert {α : Type} (ledger : Ledger α) (key : String) (value : α) :
    (ledger.insert key value).isEmpty = false :=
  Ledger.isEmpty_eq_false_of_get? (Ledger.get?_insert_self _ _ _)

theorem receive_attentive (capacity : Nat) (name : String) :
    ((attentive capacity).receive name).2.cursors.isEmpty = false ∧
      ((attentive capacity).receive name).2.kept = [] ∧
      ((attentive capacity).receive name).2.capacity = capacity := by
  unfold receive
  split
  · exact ⟨isEmpty_insert _ _ _, rfl, rfl⟩
  · dsimp only
    split
    · exact ⟨isEmpty_insert _ _ _, rfl, rfl⟩
    · split
      · exact ⟨isEmpty_insert _ _ _, rfl, rfl⟩
      · exact ⟨isEmpty_insert _ _ _, rfl, rfl⟩

theorem after_attentive (capacity : Nat) (act : Act) :
    ((attentive capacity).after act).cursors.isEmpty = false ∧
      ((attentive capacity).after act).kept = [] ∧
      ((attentive capacity).after act).capacity = capacity := by
  cases act with
  | subscribe name => exact ⟨isEmpty_insert _ _ _, rfl, rfl⟩
  | unsubscribe name =>
    refine ⟨?_, rfl, rfl⟩
    -- One of the two names is another one.
    have hstays : ∃ other, other ≠ name ∧ (attentive capacity).cursors.get? other = some 0 := by
      by_cases hname : name = "a"
      · exact ⟨"b", by rw [hname]; decide, Ledger.get?_insert_self _ _ _⟩
      · refine ⟨"a", fun h => hname h.symm, ?_⟩
        exact (Ledger.get?_insert_of_ne _ _ (by decide)).trans (Ledger.get?_insert_self _ _ _)
    obtain ⟨other, hne, hother⟩ := hstays
    have hget : ((attentive capacity).after (.unsubscribe name)).cursors.get? other = some 0 := by
      show ((attentive capacity).cursors.erase name).get? other = some 0
      rw [Ledger.get?_erase, if_neg hne, hother]
    exact Ledger.isEmpty_eq_false_of_get? hget
  | receive name => exact receive_attentive capacity name

end Notifier

namespace World

/-- What an event does to a notifier if nothing is sent. -/
def Event.act : Event σ → Notifier → Notifier
  | .subscriber act, notifier => notifier.after act
  | _, notifier => notifier

/-- The world with another notifier. -/
def withNotifier (world : World σ) (notifier : Notifier) : World σ :=
  { world with cache := world.cache.withNotifier notifier }

theorem act_attentive (event : Event σ) (capacity : Nat) :
    (event.act (.attentive capacity)).cursors.isEmpty = false ∧
      (event.act (.attentive capacity)).kept = [] ∧
      (event.act (.attentive capacity)).capacity = capacity := by
  cases event with
  | subscriber act => exact Notifier.after_attentive capacity act
  | _ => exact ⟨Notifier.isEmpty_insert _ _ _, rfl, rfl⟩

theorem write?_withNotifier (world : World σ) (notifier : Notifier) (event : Event σ) :
    (world.withNotifier notifier).write? event = world.write? event := rfl

variable [FallibleStore σ]

/-- **An event emits changes**: whatever the notifier, the event does to it what sending these
changes does. -/
def Emits (world : World σ) (event : Event σ) (changes : List Change) : Prop :=
  ∀ notifier, ((world.withNotifier notifier).after event).cache.notifier =
    changes.foldl Notifier.send (event.act notifier)

/-- What the write of an event sends. -/
def emission (world : World σ) (event : Event σ) : List Change :=
  world.cache.emission (world.write? event)

theorem notifier_after (world : World σ) (event : Event σ) :
    (world.after event).cache.notifier =
      (world.emission event).foldl Notifier.send (event.act world.cache.notifier) := by
  -- Only a task that goes on writes, and apart from its write it leaves the notifier alone.
  cases event with
  | goOn who =>
    have hcache := congrArg Cache.notifier (uncounted_step world who)
    exact hcache.trans (Cache.notifier_writeIf _ _)
  | _ => rfl

/-- **What an event emits** is what its write sends. -/
theorem emits_iff {world : World σ} {event : Event σ} {changes : List Change} :
    world.Emits event changes ↔ changes = world.emission event := by
  have hemission : ∀ notifier,
      (world.withNotifier notifier).emission event = world.emission event := by
    intro notifier
    unfold emission
    rw [write?_withNotifier]
    exact Cache.emission_withNotifier _ _ _
  have hemits : world.Emits event (world.emission event) := by
    intro notifier
    rw [notifier_after, hemission]
    rfl
  constructor
  · intro h
    -- A notifier with room for both lists keeps either of them, so they are the same.
    let capacity : Nat := changes.length + (world.emission event).length
    have hsame := (h (.attentive capacity)).symm.trans (hemits (.attentive capacity))
    obtain ⟨hlistened, hkept, hcapacity⟩ := act_attentive event capacity
    have hfirst := Notifier.kept_foldl_send changes _ hlistened (by
      rw [hkept, hcapacity, List.length_nil]
      show 0 + changes.length ≤ changes.length + (world.emission event).length
      omega)
    have hsecond := Notifier.kept_foldl_send (world.emission event) _ hlistened (by
      rw [hkept, hcapacity, List.length_nil]
      show 0 + _ ≤ changes.length + (world.emission event).length
      omega)
    rw [hsame, hsecond, hkept, List.append_nil, List.append_nil] at hfirst
    exact (List.reverse_inj.1 hfirst).symm
  · rintro rfl
    exact hemits

/-- **A course of events with all that was emitted on the way.** -/
inductive Chronicle (allowed : World σ → Event σ → Prop) (start : World σ) :
    List Attempt → List Change → World σ → Prop where
  | here : Chronicle allowed start [] [] start
  | next {log : List Attempt} {told changes : List Change} {world : World σ} {event : Event σ}
    (h : Chronicle allowed start log told world) (hallowed : allowed world event)
    (hadmits : world.Admits event) (hemits : world.Emits event changes) :
    Chronicle allowed start (log ++ world.attempts event) (told ++ changes) (world.after event)

section Along

variable {allowed : World σ → Event σ → Prop} {start world : World σ} {log : List Attempt}
  {told : List Change}

theorem Chronicle.course (h : Chronicle allowed start log told world) :
    Course allowed start log world := by
  induction h with
  | here => exact .here
  | next _ hallowed hadmits _ ih => exact ih.next hallowed hadmits

/-- Along every course something is emitted, or nothing. -/
theorem Course.exists_chronicle (h : Course allowed start log world) :
    ∃ told, Chronicle allowed start log told world := by
  induction h with
  | here => exact ⟨[], .here⟩
  | next _ hallowed hadmits ih =>
    obtain ⟨told, hchronicle⟩ := ih
    exact ⟨_, hchronicle.next hallowed hadmits (emits_iff.2 rfl)⟩

theorem Chronicle.goOn (h : Chronicle allowed start log told world) (who : Nat)
    (hallowed : allowed world (.goOn who)) (hready : world.isReady who = true) :
    Chronicle allowed start (log ++ world.attempts (.goOn who))
      (told ++ world.emission (.goOn who)) (world.step who) :=
  h.next hallowed hready (emits_iff.2 rfl)

theorem Chronicle.call (h : Chronicle allowed start log told world) (call : Call)
    (hallowed : allowed world (.call call)) :
    Chronicle allowed start log told (world.begin call) := by
  have hcalled := h.next hallowed trivial (emits_iff.2 rfl)
  rwa [show world.attempts (.call call) = [] from rfl,
    show world.emission (.call call) = [] from rfl, List.append_nil, List.append_nil] at hcalled

theorem emission_eq {event : Event σ} {record : Record}
    (hwrite : world.write? event = some record) :
    world.emission event =
      if (world.cache.attempt record).succeeded then
        (announcement? (world.cache.record? record.id) record).toList
      else [] := by
  unfold emission
  rw [hwrite]
  rfl

/-- **What an event emits for an id**: something only if it has written a record of this id. -/
theorem filter_emission_eq {event : Event σ} {record : Record}
    (hwrite : world.write? event = some record) (id : String) :
    ((world.emission event).filter fun change => change.id = id) =
      if (world.cache.attempt record).succeeded = true ∧ record.id = id then
        (announcement? (world.cache.record? id) record).toList
      else [] := by
  rw [emission_eq hwrite]
  by_cases hsucceeded : (world.cache.attempt record).succeeded = true
  · -- What is announced is about the id of the record, which is the id or another one.
    have hids : ∀ change ∈ (announcement? (world.cache.record? record.id) record).toList,
        change.id = record.id := fun change hmem =>
      id_of_announcement? (Option.mem_toList.1 hmem) (holdsOwn_of_write? hwrite)
    rw [if_pos hsucceeded]
    by_cases hid : record.id = id
    · subst hid
      rw [if_pos ⟨hsucceeded, rfl⟩, List.filter_eq_self]
      intro change hmem
      exact decide_eq_true (hids change hmem)
    · rw [if_neg fun h => hid h.2, List.filter_eq_nil_iff]
      intro change hmem hdecide
      exact hid ((hids change hmem).symm.trans (of_decide_eq_true hdecide))
  · rw [if_neg hsucceeded, if_neg fun h => hsucceeded h.1, List.filter_nil]

/-- **What is to be told of an id goes on** with what an event writes and emits. -/
theorem history_after {first : Option Record} {records : List Record} {id : String}
    (h : History first (world.cache.record? id) records told) (event : Event σ) :
    History first ((world.after event).cache.record? id)
      (records ++ Attempt.written (Attempt.about (· = id) (world.attempts event)))
      (told ++ (world.emission event).filter fun change => change.id = id) := by
  have hrecord : (world.after event).cache.record? id =
      (Attempt.replay world.cache.records (world.attempts event)).get? id :=
    congrArg (fun records => records.get? id) (records_after world event)
  cases hwrite : world.write? event with
  | none =>
    -- Nothing is written, so nothing is sent and the record stays.
    have hattempts : world.attempts event = [] := congrArg world.cache.attempts hwrite
    have hemission : world.emission event = [] := congrArg world.cache.emission hwrite
    rw [hrecord, hattempts, hemission, List.filter_nil, List.append_nil]
    show History first (world.cache.record? id) (records ++ []) told
    rwa [List.append_nil]
  | some record =>
    have hattempts : world.attempts event = [world.cache.attempt record] :=
      congrArg world.cache.attempts hwrite
    rw [hrecord, hattempts, filter_emission_eq hwrite, Attempt.written_about_singleton,
      Cache.attempt_record]
    by_cases htaken : (world.cache.attempt record).succeeded = true ∧ record.id = id
    · -- The record takes its place, and what is announced is what is to be told.
      rw [if_pos htaken, if_pos htaken]
      obtain ⟨hsucceeded, rfl⟩ := htaken
      have hget : ((world.cache.attempt record).enter world.cache.records).get? record.id =
          some record := Attempt.get?_enter_self hsucceeded
      rw [Attempt.replay_cons, Attempt.replay_nil, hget]
      exact h.next (succession_announcement? _ _)
    · -- The record of another id, or one that was not taken, leaves this id as it is.
      rw [if_neg htaken, if_neg htaken, List.append_nil, List.append_nil, Attempt.replay_cons,
        Attempt.replay_nil, Attempt.get?_enter_of_not htaken]
      exact h

/-- **Along a chronicle**, what was emitted for an id is what is to be told of its records. -/
theorem Chronicle.history (h : Chronicle allowed start log told world) (id : String) :
    History (start.cache.record? id) (world.cache.record? id)
      (Attempt.written (Attempt.about (· = id) log))
      (told.filter fun change => change.id = id) := by
  -- Log and changes are those of the course so far, followed by those of the last event.
  induction h with
  | here => exact .start
  | next _ _ _ hemits ih =>
    rw [emits_iff.1 hemits, Attempt.about_append, Attempt.written_append, List.filter_append]
    exact history_after ih _

end Along

/-! ### What must be told and what need not -/

/-- **What an event tells is what matters.** -/
structure Telling (world : World σ) (event : Event σ) (changes : List Change) : Prop where
  /-- If an id could connect and can no longer do so in the same way, this is told, and nothing
  else. -/
  revoked : ∀ id identity, world.verdict? id = some (.verified (.ok identity)) →
    (world.after event).verdict? id ≠ some (.verified (.ok identity)) →
    ∃ change, changes = [change] ∧ change.id = id
  /-- An identity that is written once more is not told of. -/
  repeated : ∀ record identity, world.write? event = some record →
    record.entry = .present identity → world.cache.identity? record.id = some identity →
    changes = []
  /-- Nor is an id that is marked absent and could not connect before. -/
  unneeded : ∀ record, world.write? event = some record → record.entry = .absent →
    (∀ identity, world.cache.identity? record.id = some identity → identity.isEnabled = false) →
    changes = []
  /-- Nor is anything that the store has not taken. -/
  failed : (∀ attempt ∈ world.attempts event, attempt.succeeded = false) → changes = []

theorem Emits.eq_nil_of_announcement? {world : World σ} {event : Event σ} {changes : List Change}
    {record : Record} (h : world.Emits event changes) (hwrite : world.write? event = some record)
    (hnone : announcement? (world.cache.record? record.id) record = none) : changes = [] := by
  rw [emits_iff.1 h, emission_eq hwrite, hnone]
  split <;> rfl

theorem Emits.revoked {world : World σ} {event : Event σ} {changes : List Change} {id : String}
    {identity : Identity} (h : world.Emits event changes)
    (hbefore : world.verdict? id = some (.verified (.ok identity)))
    (hafter : (world.after event).verdict? id ≠ some (.verified (.ok identity))) :
    ∃ change, changes = [change] ∧ change.id = id := by
  obtain ⟨hheld, henabled⟩ := verdict?_eq_ok_iff.1 hbefore
  -- The record of the id has changed, so it was written just now.
  rcases record?_after_cases world event id with
    hsame | ⟨attempt, hmem, hsucceeded, rfl, hwrite, hget⟩
  · refine absurd (verdict?_eq_ok_iff.2 ⟨?_, henabled⟩) hafter
    unfold Cache.identity?
    rw [hsame]
    exact hheld
  · have hattempt : world.attempts event = [world.cache.attempt attempt.record] :=
      congrArg world.cache.attempts hwrite
    rw [hattempt, List.mem_singleton] at hmem
    rw [hmem] at hsucceeded
    have hchanges : changes =
        (announcement? (world.cache.record? attempt.record.id) attempt.record).toList := by
      rw [emits_iff.1 h, emission_eq hwrite, if_pos hsucceeded]
    have hchanged : attempt.record.entry ≠ .present identity := by
      -- The same identity would be allowed to connect as before.
      intro hentry
      refine hafter (verdict?_eq_ok_iff.2 ⟨?_, henabled⟩)
      unfold Cache.identity?
      rw [hget]
      exact Record.identity?_eq_some_iff.2 hentry
    obtain ⟨change, hchange⟩ := exists_announcement? hheld henabled hchanged
    rw [hchange] at hchanges
    exact ⟨change, hchanges, id_of_announcement? hchange (holdsOwn_of_write? hwrite)⟩

theorem Emits.telling {world : World σ} {event : Event σ} {changes : List Change}
    (h : world.Emits event changes) : world.Telling event changes where
  revoked _ _ hbefore hafter := h.revoked hbefore hafter
  repeated record identity hwrite hentry hheld := by
    refine h.eq_nil_of_announcement? hwrite ?_
    have hold : (world.cache.record? record.id).bind Record.identity? = some identity := hheld
    unfold announcement?
    rw [hold, hentry]
    exact if_pos rfl
  unneeded record hwrite hentry hdisabled := by
    refine h.eq_nil_of_announcement? hwrite ?_
    unfold announcement?
    cases hold : (world.cache.record? record.id).bind Record.identity? with
    | none => rfl
    | some identity =>
      rw [hentry]
      exact if_neg (by rw [hdisabled identity hold]; decide)
  failed hfailed := by
    rw [emits_iff.1 h]
    cases hwrite : world.write? event with
    | none => exact congrArg world.cache.emission hwrite
    | some record =>
      have hmem : world.cache.attempt record ∈ world.attempts event := by
        unfold attempts
        rw [hwrite]
        exact List.mem_singleton_self _
      rw [emission_eq hwrite, hfailed _ hmem]
      rfl

/-- **Notifications are the history of the records.** Whatever happens, each event emits a list of
changes and no other. For every id, what is emitted along the way is what is to be told of the
records that were written for it and that the store has taken, one after another. And whatever an
event emits, it tells what matters. -/
theorem notifications_follow_records (start : World σ) :
    (∀ log world, Course anything start log world →
      ∃ told, Chronicle anything start log told world) ∧
    ∀ log told world, Chronicle anything start log told world →
      (∀ id, History (start.cache.record? id) (world.cache.record? id)
        (Attempt.written (Attempt.about (· = id) log))
        (told.filter fun change => change.id = id)) ∧
      ∀ event, ∃ changes, world.Emits event changes ∧
        (∀ others, world.Emits event others → others = changes) ∧
        world.Telling event changes := by
  refine ⟨fun _ _ hcourse => hcourse.exists_chronicle, ?_⟩
  intro log told world hchronicle
  refine ⟨hchronicle.history, ?_⟩
  intro event
  have hemits : world.Emits event (world.emission event) := emits_iff.2 rfl
  exact ⟨world.emission event, hemits, fun _ hothers => emits_iff.1 hothers, hemits.telling⟩

/-- A device comes in with another key, and leaves. -/
theorem notifications_follow_records_replaced_and_removed :
    ∃ (start world : World MemoryStore) (log : List Attempt) (told : List Change),
      Chronicle anything start log told world ∧
      told = [.updated (.ofDevice "d" "2" .none .enabled), .removed "d"] ∧
      History (start.cache.record? "d") (world.cache.record? "d")
        (Attempt.written (Attempt.about (· = "d") log))
        (told.filter fun change => change.id = "d") := by
  let known : Identity := .ofDevice "d" "1" .none .enabled
  let replaced : Identity := .ofDevice "d" "2" .none .enabled
  let start : World MemoryStore :=
    (World.start 0 .empty .blank .standard).serve (.update known)
  have hupdating : Chronicle anything start [] [] (start.begin (.update replaced)) :=
    Chronicle.here.call (.update replaced) trivial
  have hupdated := hupdating.goOn 1 trivial (by decide +kernel)
  have hremoving := hupdated.call (.removal "d") trivial
  have hremoved := hremoving.goOn 2 trivial (by decide +kernel)
  exact ⟨start, _, _, _, hremoved, by decide +kernel,
    ((notifications_follow_records start).2 _ _ _ hremoved).1 "d"⟩

end World

end DeviceScope
