import DeviceScope.Proofs.Directory.Draining

/-!
# The history of a directory

What is done to a directory in memory is a list of acts (`Directory.Act`). Identities come and go
under their ids, and of all acts about an id the last one decides what the directory says of it
(`Directory.get?_ofActs_eq_some_iff`, `Directory.contains_ofActs`). A look-up for what an id names
and a listing say the same (`Directory.lookup_agrees_with_listing`).
-/

namespace DeviceScope.Directory

/-- What is done to a directory in memory. -/
inductive Act where
  | upsert (identity : Identity)
  | remove (id : String)
  | markInvalid (id : String)
  | setPageSize (size : Nat)
  /-- Failures and delays are injected, or taken back. -/
  | inject (lookupFailure : Option DirectoryError) (listingFailure : Option (Nat × DirectoryError))
      (pageDelay lookupDelay : Option Span)
  | lookup (key : Identity.Key)
  deriving DecidableEq

/-- The directory after something was done to it. -/
def after (directory : Directory) : Act → Directory
  | .upsert identity => directory.upsert identity
  | .remove id => directory.remove id
  | .markInvalid id => directory.markInvalid id
  | .setPageSize size => directory.setPageSize size
  | .inject lookupFailure listingFailure pageDelay lookupDelay =>
    { directory with lookupFailure, listingFailure, pageDelay, lookupDelay }
  | .lookup key => (directory.lookup key).2

/-- The directory that was empty at first, and to which this was done, one act after another. -/
def ofActs (acts : List Act) : Directory := acts.foldl after empty

namespace Act

/-- The id that an act says something about. -/
def about? : Act → Option String
  | .upsert identity => some identity.id
  | .remove id | .markInvalid id => some id
  | .setPageSize _ | .inject _ _ _ _ | .lookup _ => none

/-- The identity that an act puts under an id. -/
def identity? : Act → Option Identity
  | .upsert identity => some identity
  | _ => none

/-- The number of identities on a page that an act asks for. -/
def pageSize? : Act → Option Nat
  | .setPageSize size => some size
  | _ => none

/-- **The last act about an id**, if there is any. -/
def lastAbout? (acts : List Act) (id : String) : Option Act :=
  (acts.filter fun act => act.about? = some id).getLast?

theorem lastAbout?_cons (act : Act) (acts : List Act) (id : String) :
    lastAbout? (act :: acts) id =
      (lastAbout? acts id).or (if act.about? = some id then some act else none) := by
  rw [lastAbout?, lastAbout?, List.filter_cons]
  by_cases habout : act.about? = some id
  · rw [if_pos (decide_eq_true habout), if_pos habout, List.getLast?_cons]
    cases (acts.filter fun act => act.about? = some id).getLast? <;> rfl
  · rw [if_neg (by simpa using habout), if_neg habout, Option.or_none]

theorem about?_of_lastAbout? {acts : List Act} {id : String} {act : Act}
    (h : lastAbout? acts id = some act) : act.about? = some id := by
  have hmem := List.mem_of_getLast? h
  simpa using (List.mem_filter.1 hmem).2

end Act

open Act

/-! ### One act -/

theorem InMemory.after {directory : Directory} (h : directory.InMemory) (act : Act) :
    (directory.after act).InMemory := by
  cases act with
  | upsert identity => exact h.upsert identity
  | remove id => exact h.remove id
  | markInvalid id => exact h.markInvalid id
  | setPageSize size => exact h.setPageSize size
  | inject lookupFailure listingFailure pageDelay lookupDelay =>
    exact h.inject lookupFailure listingFailure pageDelay lookupDelay directory.crashesNext
      directory.pageCrash
  | lookup key => exact h.lookup key

/-- Being asked for something leaves alone what is held. -/
theorem sides_lookup (directory : Directory) (key : Identity.Key) :
    (directory.lookup key).2.identities = directory.identities ∧
      (directory.lookup key).2.invalid = directory.invalid := by
  rw [lookup]
  split <;> exact ⟨rfl, rfl⟩

/-- A page holds as many identities as an act asks for, but at least one. -/
theorem pageSize_after (directory : Directory) (act : Act) :
    (directory.after act).pageSize = (act.pageSize?.map (max · 1)).getD directory.pageSize := by
  cases act with
  | lookup key =>
    show (directory.lookup key).2.pageSize = directory.pageSize
    rw [lookup]
    split <;> rfl
  | _ => rfl

/-- An act about an id decides what is held under it, and leaves all other ids alone. -/
theorem get?_after (directory : Directory) (act : Act) (id : String) :
    (directory.after act).identities.get? id =
      if act.about? = some id then act.identity? else directory.identities.get? id := by
  cases act with
  | upsert identity =>
    -- The identity is put under its own id, whatever was there.
    simp only [about?, Option.some.injEq, @eq_comm _ identity.id id]
    exact Ledger.get?_insert _ _ _ _
  | remove other | markInvalid other =>
    simp only [about?, Option.some.injEq, @eq_comm _ other id]
    exact Ledger.get?_erase _ _ _
  | lookup key =>
    rw [after, (sides_lookup directory key).1]
    rfl
  | setPageSize _ | inject _ _ _ _ => rfl

/-- An act about an id decides whether it is stated to be out of scope. -/
theorem contains_after (directory : Directory) (act : Act) (id : String) :
    (directory.after act).invalid.contains id =
      if act.about? = some id then decide (act = .markInvalid id)
      else directory.invalid.contains id := by
  cases act with
  | upsert identity =>
    refine (Ledger.contains_erase _ _ _).trans ?_
    by_cases hid : id = identity.id <;> simp [about?, hid, @eq_comm _ identity.id id]
  | remove other =>
    refine (Ledger.contains_erase _ _ _).trans ?_
    by_cases hid : id = other <;> simp [about?, hid, @eq_comm _ other id]
  | markInvalid other =>
    refine (Ledger.contains_insert _ _ _ _).trans ?_
    by_cases hid : id = other <;> simp [about?, hid, @eq_comm _ other id]
  | lookup key =>
    rw [after, (sides_lookup directory key).2]
    rfl
  | setPageSize _ | inject _ _ _ _ => rfl

/-! ### One act after another -/

theorem InMemory.foldl_after {directory : Directory} (h : directory.InMemory) (acts : List Act) :
    (acts.foldl Directory.after directory).InMemory := by
  induction acts generalizing directory with
  | nil => exact h
  | cons act acts ih => exact ih (h.after act)

theorem inMemory_ofActs (acts : List Act) : (ofActs acts).InMemory :=
  InMemory.empty.foldl_after acts

theorem get?_foldl_after (directory : Directory) (acts : List Act) (id : String) :
    (acts.foldl after directory).identities.get? id =
      match lastAbout? acts id with
      | some act => act.identity?
      | none => directory.identities.get? id := by
  induction acts generalizing directory with
  | nil => rfl
  | cons act acts ih =>
    rw [List.foldl_cons, ih, get?_after, lastAbout?_cons]
    -- A later act about the id decides; without one this act does, or what was there before.
    cases lastAbout? acts id with
    | some last => rfl
    | none => by_cases habout : act.about? = some id <;> simp [habout]

theorem contains_foldl_after (directory : Directory) (acts : List Act) (id : String) :
    (acts.foldl after directory).invalid.contains id =
      match lastAbout? acts id with
      | some act => decide (act = .markInvalid id)
      | none => directory.invalid.contains id := by
  induction acts generalizing directory with
  | nil => rfl
  | cons act acts ih =>
    rw [List.foldl_cons, ih, contains_after, lastAbout?_cons]
    cases lastAbout? acts id with
    | some last => rfl
    | none => by_cases habout : act.about? = some id <;> simp [habout]

/-- **What is held under an id** was put there by the last act about it. -/
theorem get?_ofActs_eq_some_iff {acts : List Act} {id : String} {identity : Identity} :
    (ofActs acts).identities.get? id = some identity ↔
      lastAbout? acts id = some (.upsert identity) := by
  rw [ofActs, get?_foldl_after]
  cases lastAbout? acts id with
  | none => simp [empty]
  | some act => cases act <;> simp [identity?]

/-- **An id is stated to be out of scope** if the last act about it says so. -/
theorem contains_ofActs {acts : List Act} {id : String} :
    (ofActs acts).invalid.contains id = true ↔ lastAbout? acts id = some (.markInvalid id) := by
  rw [ofActs, contains_foldl_after]
  cases lastAbout? acts id with
  | none => simp [empty]
  | some act => simp

/-! ### Looking up and listing -/

/-- The identities that a listing shows when it is fetched to its end. -/
def listed (directory : Directory) : List Identity :=
  directory.listing.drain.flatMap fun
    | .ok page => page
    | .error _ => []

theorem InMemory.listed_eq {directory : Directory} (h : directory.InMemory)
    (hlisting : directory.listingFailure = none) :
    directory.listed = directory.identities.values := by
  rw [listed, Listing.drain_eq_toCome, toCome_listing h.reachable, hlisting, Listing.given,
    List.flatMap_map, List.flatMap_id', flatten_pages_listing h.reachable]

/-- Without failures the answer for an id is told by the last act about it. -/
theorem answer_ofActs {acts : List Act} (hlookup : (ofActs acts).lookupFailure = none)
    (id : String) :
    (ofActs acts).answer id =
      if lastAbout? acts id = some (.markInvalid id) then
        .error (.invalidState id "Device not in scope")
      else .ok ((ofActs acts).identities.get? id) := by
  rw [answer, (inMemory_ofActs acts).reachable, hlookup]
  simp only [Bool.not_true, Bool.false_eq_true, if_false, contains_ofActs]

/-- **Looking up and listing tell the same.** Whatever was done to a directory in memory, let no
failure be injected. What is found for an id is what the listing shows with this id, and this is
what the last act about the id has put there. The id is stated to be out of scope if the last act
about it says so, and otherwise nothing is found. So nothing that is listed is stated to be out of
scope, and no id is listed twice. -/
theorem lookup_agrees_with_listing (acts : List Act) (id : String)
    (hlookup : (ofActs acts).lookupFailure = none)
    (hlisting : (ofActs acts).listingFailure = none) :
    let directory := ofActs acts
    let answer := (directory.lookup (.parse id)).1
    (∀ identity,
      (answer = .ok (some identity) ↔ identity ∈ directory.listed ∧ identity.id = id) ∧
      (identity ∈ directory.listed ∧ identity.id = id ↔
        lastAbout? acts id = some (.upsert identity))) ∧
    ((∃ message, answer = .error (.invalidState id message)) ↔
      lastAbout? acts id = some (.markInvalid id)) ∧
    (answer = .ok none ↔ lastAbout? acts id = none ∨ lastAbout? acts id = some (.remove id)) ∧
    (∀ identity ∈ directory.listed, ∀ message,
      (directory.lookup (.parse identity.id)).1 ≠ .error (.invalidState identity.id message)) ∧
    (directory.listed.map Identity.id).Nodup := by
  intro directory answer
  have hmemory : directory.InMemory := inMemory_ofActs acts
  have hanswer : ∀ id, (directory.lookup (.parse id)).1 = _ := fun id =>
    (congrArg directory.answer (Identity.Key.text_parse id)).trans (answer_ofActs hlookup id)
  -- What is listed is what is held under its own id, which the history tells.
  have hlisted : ∀ identity, identity ∈ directory.listed ∧ identity.id = id ↔
      lastAbout? acts id = some (.upsert identity) := by
    intro identity
    rw [hmemory.listed_eq hlisting, hmemory.keyedBy.mem_values_iff, get?_ofActs_eq_some_iff]
    constructor
    · rintro ⟨hlast, rfl⟩
      exact hlast
    · intro hlast
      have hid : identity.id = id := Option.some.inj (about?_of_lastAbout? hlast)
      exact ⟨hid ▸ hlast, hid⟩
  refine ⟨fun identity => ⟨?_, hlisted identity⟩, ?_, ?_, ?_, ?_⟩
  · rw [hlisted, show answer = _ from hanswer id]
    split
    · next hinvalid => simp [hinvalid]
    · simp [get?_ofActs_eq_some_iff]
  · rw [show answer = _ from hanswer id]
    split
    · next hinvalid => simp [hinvalid]
    · next hinvalid => simp [hinvalid]
  · rw [show answer = _ from hanswer id, ofActs, get?_foldl_after]
    -- The last act about the id is one of the three that say something about it.
    cases hlast : lastAbout? acts id with
    | none => simp [empty]
    | some act =>
      have habout := about?_of_lastAbout? hlast
      cases act <;> simp_all [about?, identity?]
  · intro identity hmem message
    rw [hmemory.listed_eq hlisting, hmemory.keyedBy.mem_values_iff, get?_ofActs_eq_some_iff] at hmem
    rw [hanswer, hmem]
    simp
  · rw [hmemory.listed_eq hlisting]
    exact hmemory.keyedBy.nodup_map_values

/-- A device that was stated to be out of scope has come back, as the module of another name. -/
theorem lookup_agrees_with_listing_returned :
    let module : Identity := .ofModule "d" "m/" "1" .none .enabled
    let acts : List Act := [.upsert module, .markInvalid "d/m/", .markInvalid "x",
      .setPageSize 0, .upsert module, .remove "x"]
    (ofActs acts).lookupFailure = none ∧ (ofActs acts).listingFailure = none ∧
      ((ofActs acts).lookup (.parse "d/m/")).1 = .ok (some module) ∧
      ((ofActs acts).lookup (.parse "x")).1 = .ok none := by
  intro module acts
  have hfailure : (ofActs acts).lookupFailure = none ∧ (ofActs acts).listingFailure = none :=
    ⟨rfl, rfl⟩
  refine ⟨hfailure.1, hfailure.2, ?_, ?_⟩
  · have hagree := lookup_agrees_with_listing acts "d/m/" hfailure.1 hfailure.2
    exact (hagree.1 module).1.2 ((hagree.1 module).2.2 (by decide +kernel))
  · have hagree := lookup_agrees_with_listing acts "x" hfailure.1 hfailure.2
    exact hagree.2.2.1.2 (.inr (by decide +kernel))

end DeviceScope.Directory
