import DeviceScope.Proofs.Cache.Writing

/-!
# What writes announce

`Succession` — what is to be told when a record takes the place of another: that an identity was
replaced by a different one, that one which could connect has left, or nothing. `History` — what is
to be told of records that take each other's place one after another.

What a write sends (`Cache.emission`) is told by the record before, the record that is written, and
whether the store takes it; it does not depend on who listens (`Cache.emission_withNotifier`). Sent
changes are seen by those who listen: a notifier with a subscriber and with room for all of them
keeps them all (`Notifier.kept_foldl_send`).
-/

namespace DeviceScope

variable {σ : Type}

/-! ### Records one after another -/

/-- **What is to be told** when a record takes the place of another, or of none. -/
inductive Succession (old? : Option Record) (new : Record) : List Change → Prop where
  | updated {old : Record} {before after : Identity} (hold : old? = some old)
    (hbefore : old.entry = .present before) (hafter : new.entry = .present after)
    (hne : before ≠ after) : Succession old? new [.updated after]
  | removed {old : Record} {before : Identity} (hold : old? = some old)
    (hbefore : old.entry = .present before) (henabled : before.isEnabled = true)
    (hafter : new.entry = .absent) : Succession old? new [.removed new.id]
  | silent
    (hupdated : ∀ old before after, old? = some old → old.entry = .present before →
      new.entry = .present after → before = after)
    (hremoved : ∀ old before, old? = some old → old.entry = .present before →
      new.entry = .absent → before.isEnabled = false) : Succession old? new []

theorem Record.identity?_eq_some_iff {record : Record} {identity : Identity} :
    record.identity? = some identity ↔ record.entry = .present identity := by
  unfold identity? Entry.identity?
  cases record.entry <;> simp

/-- What is announced is what is to be told. -/
theorem succession_announcement? (old? : Option Record) (new : Record) :
    Succession old? new (announcement? old? new).toList := by
  unfold announcement?
  -- Either an identity was held, or nothing is announced whatever the new record states.
  cases hold : old?.bind Record.identity? with
  | none =>
    -- No identity was held, so neither has one changed nor has one left.
    have hnone : ∀ old before, old? = some old → old.entry ≠ .present before := by
      rintro old before rfl hbefore
      rw [Option.bind_some, Record.identity?_eq_some_iff.2 hbefore] at hold
      exact absurd hold (by simp)
    exact .silent (fun old before _ ho hb _ => absurd hb (hnone old before ho))
      fun old before ho hb _ => absurd hb (hnone old before ho)
  | some before =>
    obtain ⟨old, rfl, hidentity⟩ := Option.bind_eq_some_iff.1 hold
    have hbefore := Record.identity?_eq_some_iff.1 hidentity
    have hunique : ∀ found held, some old = some found → found.entry = .present held →
        held = before := by
      intro found held hfound hheld
      rw [← Option.some.inj hfound, hbefore] at hheld
      exact (Entry.present.inj hheld).symm
    cases hafter : new.entry with
    | present after =>
      by_cases hsame : before = after
      · subst hsame
        simp only [if_true, Option.toList_none]
        refine .silent ?_ fun _ _ _ _ habsent => absurd (hafter.symm.trans habsent) (by simp)
        intro found held other hfound hheld hother
        rw [hunique found held hfound hheld]
        exact Entry.present.inj (hafter.symm.trans hother)
      · simp only [if_neg hsame, Option.toList_some]
        exact .updated rfl hbefore hafter hsame
    | absent =>
      by_cases henabled : before.isEnabled = true
      · simp only [if_pos henabled, Option.toList_some]
        exact .removed rfl hbefore henabled hafter
      · simp only [if_neg henabled, Option.toList_none]
        refine .silent (fun _ _ _ _ _ hpresent => absurd (hafter.symm.trans hpresent) (by simp)) ?_
        intro found held hfound hheld _
        rw [hunique found held hfound hheld]
        exact Bool.eq_false_iff.2 henabled

/-- Something is announced if an identity that could connect is not there any longer. -/
theorem exists_announcement? {old? : Option Record} {new : Record} {identity : Identity}
    (hold : old?.bind Record.identity? = some identity) (henabled : identity.isEnabled = true)
    (hchanged : new.entry ≠ .present identity) :
    ∃ change, announcement? old? new = some change := by
  unfold announcement?
  rw [hold]
  cases hentry : new.entry with
  | absent => exact ⟨.removed new.id, if_pos henabled⟩
  | present other =>
    have hne : identity ≠ other := by
      rintro rfl
      exact hchanged hentry
    exact ⟨.updated other, if_neg hne⟩

/-- There is one thing to be told. -/
theorem Succession.unique {old? : Option Record} {new : Record} {changes others : List Change}
    (h : Succession old? new changes) (h' : Succession old? new others) : changes = others := by
  -- Two of the three cases exclude each other, and each of them fixes what is told.
  cases h with
  | updated hold hbefore hafter hne =>
    cases h' with
    | updated _ _ hafter' _ => rw [Entry.present.inj (hafter.symm.trans hafter')]
    | removed _ _ _ hafter' => exact absurd (hafter.symm.trans hafter') (by simp)
    | silent hupdated _ => exact absurd (hupdated _ _ _ hold hbefore hafter) hne
  | removed hold hbefore henabled hafter =>
    cases h' with
    | updated _ _ hafter' _ => exact absurd (hafter.symm.trans hafter') (by simp)
    | removed _ _ _ _ => rfl
    | silent _ hremoved =>
      rw [hremoved _ _ hold hbefore hafter] at henabled
      exact absurd henabled (by decide)
  | silent hupdated hremoved =>
    cases h' with
    | updated hold hbefore hafter hne => exact absurd (hupdated _ _ _ hold hbefore hafter) hne
    | removed hold hbefore henabled hafter =>
      rw [hremoved _ _ hold hbefore hafter] at henabled
      exact absurd henabled (by decide)
    | silent _ _ => rfl

/-- What is to be told depends on what the records state, and not on when they were written. -/
theorem Succession.congr {old? : Option Record} {new other : Record} {changes : List Change}
    (h : Succession old? new changes) (hsame : other.statement = new.statement) :
    Succession old? other changes := by
  have hid : other.id = new.id := congrArg Prod.fst hsame
  have hentry : other.entry = new.entry := congrArg Prod.snd hsame
  cases h with
  | updated hold hbefore hafter hne => exact .updated hold hbefore (hentry.trans hafter) hne
  | removed hold hbefore henabled hafter =>
    rw [← hid]
    exact .removed hold hbefore henabled (hentry.trans hafter)
  | silent hupdated hremoved =>
    rw [← hentry] at hupdated hremoved
    exact .silent hupdated hremoved

/-- **What is to be told of the records of an id**, from the first to the last, if these are written
one after another. -/
inductive History (first : Option Record) : Option Record → List Record → List Change → Prop where
  | start : History first first [] []
  | next {last : Option Record} {new : Record} {records : List Record}
    {told changes : List Change} (h : History first last records told)
    (hnew : Succession last new changes) :
    History first (some new) (records ++ [new]) (told ++ changes)

theorem History.eq_of_nil {first last : Option Record} {told : List Change}
    (h : History first last [] told) : last = first ∧ told = [] := by
  generalize hrecords : ([] : List Record) = records at h
  cases h with
  | start => exact ⟨rfl, rfl⟩
  | next _ _ => exact absurd hrecords (by simp)

theorem History.eq_of_singleton {first last : Option Record} {new : Record} {told : List Change}
    (h : History first last [new] told) : last = some new ∧ Succession first new told := by
  generalize hrecords : [new] = records at h
  cases h with
  | start => exact absurd hrecords (by simp)
  | @next middle found earlier before changes hbefore hnew =>
    have happend : [] ++ [new] = earlier ++ [found] := hrecords
    obtain ⟨hnil, hfound⟩ := List.append_inj' happend rfl
    rw [← hnil] at hbefore
    obtain ⟨rfl, rfl⟩ := hbefore.eq_of_nil
    obtain rfl : new = found := List.singleton_inj.1 hfound
    exact ⟨rfl, hnew⟩

/-! ### Sending and keeping -/

namespace Notifier

/-- **Sent changes are kept**, the last one first, if somebody listens and there is room. -/
theorem kept_foldl_send (changes : List Change) (notifier : Notifier)
    (hlistened : notifier.cursors.isEmpty = false)
    (hroom : notifier.kept.length + changes.length ≤ notifier.capacity) :
    (changes.foldl send notifier).kept = changes.reverse ++ notifier.kept := by
  -- Each change takes up one place, so there is room for the others.
  induction changes generalizing notifier with
  | nil => rfl
  | cons change changes ih =>
    rw [List.length_cons] at hroom
    have hsend : notifier.send change = { notifier with
        sent := notifier.sent + 1, kept := change :: notifier.kept } := by
      unfold send
      rw [hlistened, List.take_of_length_le (by rw [List.length_cons]; omega)]
      rfl
    rw [List.foldl_cons, hsend, ih, List.reverse_cons, List.append_assoc]
    · rfl
    · exact hlistened
    · show (change :: notifier.kept).length + changes.length ≤ notifier.capacity
      rw [List.length_cons]
      omega

end Notifier

/-! ### What a write sends -/

namespace Cache

/-- The cache with another notifier. -/
def withNotifier (cache : Cache σ) (notifier : Notifier) : Cache σ := { cache with notifier }

variable [KeyValueStore σ]

/-- **What a write sends**, if there is one. -/
def emission (cache : Cache σ) : Option Record → List Change
  | none => []
  | some record =>
    if (cache.attempt record).succeeded then
      (announcement? (cache.record? record.id) record).toList
    else []

theorem notifier_writeIf (cache : Cache σ) (record? : Option Record) :
    (cache.writeIf record?).notifier =
      (cache.emission record?).foldl Notifier.send cache.notifier := by
  cases record? with
  | none => rfl
  | some record =>
    show (cache.write record).2.notifier = (if (cache.write record).1.isOk then
      (announcement? (cache.record? record.id) record).toList else []).foldl Notifier.send
        cache.notifier
    -- Only a record that the store has taken is announced.
    rcases write_cases cache record with ⟨text, store, -, -, hwrite⟩ | ⟨error, store, -, hwrite⟩
    · rw [hwrite]
      show announce cache.notifier (announcement? (cache.record? record.id) record) = _
      cases announcement? (cache.record? record.id) record <;> rfl
    · rw [hwrite]
      rfl

/-- Whether a write succeeds does not depend on who listens. -/
theorem attempt_withNotifier (cache : Cache σ) (notifier : Notifier) (record : Record) :
    (cache.withNotifier notifier).attempt record = cache.attempt record := by
  have hstore : (cache.withNotifier notifier).store = cache.store := rfl
  unfold attempt write
  cases record.encode with
  | error error => rfl
  | ok text =>
    dsimp only
    rw [hstore]
    rcases KeyValueStore.put cache.store record.id text with ⟨_ | _, store⟩ <;> rfl

theorem emission_withNotifier (cache : Cache σ) (notifier : Notifier) (record? : Option Record) :
    (cache.withNotifier notifier).emission record? = cache.emission record? := by
  cases record? with
  | none => rfl
  | some record =>
    show (if ((cache.withNotifier notifier).attempt record).succeeded then
      (announcement? (cache.record? record.id) record).toList else []) = _
    rw [attempt_withNotifier]
    rfl

end Cache

end DeviceScope
