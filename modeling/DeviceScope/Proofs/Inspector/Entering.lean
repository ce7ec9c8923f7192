import DeviceScope.Proofs.Identity.Reading
import DeviceScope.Proofs.Inspector.Opening
import DeviceScope.Proofs.Store.Writable
import DeviceScope.Proofs.Text.Utf8

/-!
# What the inspector enters

A command that writes is there to enter records: one for each identity of a file, or one that says
that an id is out of scope. Which records these are is told without the inspector
(`Inspector.Command.Enters`): the identities in a file are those of which its text is an array
(`Inspector.HoldsIdentities`).

A command that succeeds enters just these, one after another, and leaves every other entry of the
store as it is, text by text (`Inspector.entered_of_perform`, `Inspector.Entered`). On a disk that
works it does succeed (`Inspector.obey_of_works`).
-/

namespace DeviceScope.Inspector

open Disk

/-! ### Records entered one after another -/

/-- The entries of a store after records were entered, the first one first. -/
inductive Entered (data : Ledger String) : List Record → Ledger String → Prop
  | nothing : Entered data [] data
  | more {log : List Record} {later : Ledger String} {record : Record} {text : String}
      (h : Entered data log later) (hencode : record.encode = .ok text) :
      Entered data (log ++ [record]) (later.insert record.id text)

/-- The record that was entered last of those for an id. -/
def lastFor? (log : List Record) (id : String) : Option Record :=
  (log.filter fun record => record.id = id).getLast?

theorem Entered.trans {a b c : Ledger String} {first second : List Record}
    (hab : Entered a first b) (hbc : Entered b second c) : Entered a (first ++ second) c := by
  induction hbc with
  | nothing =>
    rw [List.append_nil]
    exact hab
  | more _ hencode ih =>
    rw [← List.append_assoc]
    exact .more ih hencode

/-- **What was not named is kept as it is**, text by text. -/
theorem Entered.get?_of_forall_ne {data later : Ledger String} {log : List Record}
    (h : Entered data log later) {id : String} (hid : ∀ record ∈ log, record.id ≠ id) :
    later.get? id = data.get? id := by
  induction h with
  | nothing => rfl
  | @more log later record text _ _ ih =>
    have hne : id ≠ record.id := fun heq => hid record (by simp) heq.symm
    rw [Ledger.get?_insert_of_ne _ _ hne]
    exact ih fun r hr => hid r (List.mem_append_left _ hr)

/-- **What was entered last is what is there.** -/
theorem Entered.decode_lastFor? {data later : Ledger String} {log : List Record}
    (h : Entered data log later) {id : String} {record : Record}
    (hlast : lastFor? log id = some record) :
    ∃ text, later.get? id = some text ∧ Record.decode id text = .ok record := by
  induction h with
  | nothing => exact absurd hlast (by simp [lastFor?])
  | @more log later newest text _ hencode ih =>
    rw [lastFor?, List.filter_append, List.filter_cons, List.filter_nil] at hlast
    by_cases hid : newest.id = id
    · -- The newest record is for this id.
      subst hid
      rw [if_pos (decide_eq_true rfl), List.getLast?_concat] at hlast
      obtain rfl := Option.some.inj hlast
      exact ⟨text, Ledger.get?_insert_self _ _ _, Record.decode_encode hencode⟩
    · rw [if_neg (by simpa using hid), List.append_nil] at hlast
      obtain ⟨kept, hget, hdecode⟩ := ih hlast
      refine ⟨kept, ?_, hdecode⟩
      rw [Ledger.get?_insert_of_ne _ _ fun heq => hid heq.symm]
      exact hget

/-! ### What a command enters -/

/-- **The identities in a file**: its bytes are a text that is an array of them. -/
def HoldsIdentities (disk : Disk) (file : Path) (identities : List Identity) : Prop :=
  ∃ document, disk.read file = .ok (Utf8.encode document) ∧
    Identity.AreSpelledBy document identities

/-- These are the identities that are read from the file. -/
theorem identitiesIn_eq_ok_iff {disk : Disk} {file : String} {identities : List Identity} :
    identitiesIn disk file = .ok identities ↔ HoldsIdentities disk file identities := by
  rw [identitiesIn, HoldsIdentities]
  constructor
  · intro h
    split at h
    · exact absurd h (by simp)
    · next bytes hread =>
      split at h
      · exact absurd h (by simp)
      · next document hdocument =>
        split at h
        · exact absurd h (by simp)
        · next found hfound =>
          obtain rfl := Except.ok.inj h
          have hspelled := Identity.listOfText?_eq_some_iff.1 hfound
          rw [String.toList_ofList] at hspelled
          exact ⟨document, Utf8.decode?_eq_some_iff.1 hdocument ▸ hread, hspelled⟩
  · rintro ⟨document, hread, hspelled⟩
    have hfound : Identity.listOfText? (String.ofList document) = some identities :=
      Identity.listOfText?_eq_some_iff.2 (by rwa [String.toList_ofList])
    rw [hread]
    dsimp only
    rw [Utf8.decode?_eq_some_iff.2 rfl]
    dsimp only
    rw [hfound]

/-- **The records that a command is there to enter**: identities as they come in their file, or that
an id is out of scope, each as of now. -/
inductive Command.Enters (disk : Disk) (now : Timestamp) : Command → List Record → Prop where
  | nothing {command : Command} (h : command.writes = false) : Enters disk now command []
  | identities {file : String} {identities : List Identity}
    (h : HoldsIdentities disk file identities) :
    Enters disk now (.apply file) (identities.map fun identity => .present identity now)
  | removal (id : String) : Enters disk now (.remove id) [.absent id now]

/-- The file of a cache opens as the store that is in memory. -/
def IsWrittenDown (path : Path) (cache : Cache DiskStore) : Prop :=
  FileStore.load cache.store.disk path = .ok cache.store.store

variable {path : Path} {cache later : Cache DiskStore} {now : Timestamp}

/-- A write that succeeds enters its record, in the file as well if no write fails without saying
so. -/
theorem entered_of_write {record : Record} (hfile : IsWrittenDown path cache)
    (hreports : Reports cache.store.disk.hazards) (h : cache.write record = (.ok (), later)) :
    IsWrittenDown path later ∧ Reports later.store.disk.hazards ∧
      Entered cache.store.store.data [record] later.store.store.data := by
  rw [Cache.write] at h
  split at h
  · exact absurd (Prod.mk.inj h).1 (by simp)
  · next text hencode =>
    split at h
    · exact absurd (Prod.mk.inj h).1 (by simp)
    · next store hput =>
      obtain ⟨-, rfl⟩ := Prod.mk.inj h
      obtain ⟨filed, disk⟩ := store
      obtain rfl := FileStore.path_of_load hfile
      have hstored : cache.store.store.put cache.store.disk record.id text =
          (.ok (), filed, disk) := by
        obtain ⟨hresult, hrest⟩ := Prod.mk.inj hput
        obtain ⟨hstore, hdisk⟩ := DiskStore.mk.inj hrest
        exact Prod.ext hresult (Prod.ext hstore hdisk)
      have hlater : Reports disk.hazards := by
        have hkept := DiskStore.reports_put hreports record.id text
        rwa [DiskStore.put, hstored] at hkept
      -- The file has what is in memory, and in memory there is one entry more.
      obtain ⟨hload, -⟩ := FileStore.load_of_put_ok hreports hstored
      obtain ⟨-, rfl⟩ := FileStore.save_of_put_ok hstored
      exact ⟨hload, hlater, .more .nothing hencode⟩

/-- Identities that are all written down are entered in their order. -/
theorem entered_of_applyAll {identities : List Identity} (hfile : IsWrittenDown path cache)
    (hreports : Reports cache.store.disk.hazards)
    (h : applyAll cache now identities = (.ok (), later)) :
    IsWrittenDown path later ∧ Entered cache.store.store.data
      (identities.map fun identity => .present identity now) later.store.store.data := by
  induction identities generalizing cache with
  | nil =>
    obtain ⟨-, rfl⟩ := Prod.mk.inj h
    exact ⟨hfile, .nothing⟩
  | cons identity rest ih =>
    rw [applyAll] at h
    split at h
    · exact absurd (Prod.mk.inj h).1 (by simp)
    · next mid hmid =>
      obtain ⟨hmidFile, hmidReports, hfirst⟩ := entered_of_write hfile hreports hmid
      obtain ⟨hlater, hrest⟩ := ih hmidFile hmidReports h
      exact ⟨hlater, hfirst.trans hrest⟩

/-- What a command that looks is there to enter is nothing. -/
theorem Command.Enters.eq_nil {disk : Disk} {command : Command} {log : List Record}
    (h : command.Enters disk now log) (hlooks : command.writes = false) : log = [] := by
  cases h with
  | nothing => rfl
  | identities => exact absurd hlooks (by simp [writes])
  | removal => exact absurd hlooks (by simp [writes])

/-- **A command enters what it is there to enter**, and nothing else, if it looks or succeeds. -/
theorem entered_of_obey {command : Command} {log : List Record} (hfile : IsWrittenDown path cache)
    (hdone : command.writes = false ∨
      (∃ report, (obey cache now command).1 = .ok report) ∧ Reports cache.store.disk.hazards)
    (henters : command.Enters cache.store.disk now log) :
    IsWrittenDown path (obey cache now command).2 ∧
      Entered cache.store.store.data log (obey cache now command).2.store.store.data := by
  cases henters with
  | nothing hlooks =>
    rw [obey_of_not_writes hlooks]
    exact ⟨hfile, .nothing⟩
  | identities hholds =>
    -- The command reads just the identities that it is there to enter.
    obtain ⟨⟨report, hreport⟩, hreports⟩ := hdone.resolve_left (by simp [Command.writes])
    rw [obey, identitiesIn_eq_ok_iff.2 hholds] at hreport ⊢
    dsimp only at hreport ⊢
    cases happly : applyAll cache now _ with
    | mk result applied =>
      rw [happly] at hreport
      cases result with
      | error failure => exact absurd hreport (by simp [Except.map])
      | ok => exact entered_of_applyAll hfile hreports happly
  | removal id =>
    obtain ⟨⟨report, hreport⟩, hreports⟩ := hdone.resolve_left (by simp [Command.writes])
    rw [obey] at hreport ⊢
    split at hreport
    · exact absurd hreport (by simp)
    · next removed hremoved =>
      obtain ⟨hlater, -, hentered⟩ := entered_of_write hfile hreports hremoved
      exact ⟨hlater, hentered⟩

/-- What a request comes to whose store is the one at a path, if it looks or succeeds. -/
theorem entered_of_perform {environment : Environment} {path : String} {disk : Disk}
    {request : Request} {command : Command} {data : Ledger String} {log : List Record}
    (hjob : request.job = .useStore command)
    (hload : FileStore.load disk path = .ok ⟨path, data⟩)
    (hpath : ∀ found, (locateStore environment disk request.store).1 = .ok found → found = path)
    (hread : (locateStore environment disk request.store).2.read path = disk.read path)
    (hdone : command.writes = false ∨
      (∃ report, (perform environment now disk request).1 = .ok report) ∧ Reports disk.hazards)
    (henters : command.Enters (locateStore environment disk request.store).2 now log) :
    ∃ later, FileStore.load (perform environment now disk request).2 path = .ok ⟨path, later⟩ ∧
      Entered data log later := by
  have hopens := (FileStore.load_congr hread).trans hload
  rcases perform_cases now hjob with
    ⟨cache, found, hopened, hperform⟩ | ⟨failure, later, hperform, hlater⟩
  · -- The store that is opened is the one at the path.
    rw [hopened.located] at hpath hopens henters
    obtain rfl := hpath found rfl
    have hstore : cache.store.store = ⟨found, data⟩ :=
      Except.ok.inj (hopened.load.symm.trans hopens)
    rw [hperform] at hdone ⊢
    obtain ⟨hlast, hentered⟩ :=
      entered_of_obey hopened.load (hdone.imp_right fun h => ⟨h.1, hopened.reports h.2⟩) henters
    rw [hstore] at hentered
    refine ⟨_, ?_, hentered⟩
    have hlastPath := FileStore.path_of_load hlast
    rw [← hlastPath] at hlast ⊢
    exact hlast
  · -- Something failed, so the request was there to look.
    rw [hperform] at hdone ⊢
    have hlooks : command.writes = false := hdone.resolve_right fun ⟨⟨_, h⟩, _⟩ => by simp at h
    refine ⟨data, ?_, ?_⟩
    · rcases hlater with rfl | rfl
      · exact hload
      · exact hopens
    · rw [henters.eq_nil hlooks]
      exact .nothing

/-- A command that looks or succeeds is there to enter something. -/
theorem exists_enters_of_perform {environment : Environment} {disk : Disk} {request : Request}
    {command : Command} (hjob : request.job = .useStore command)
    (hdone : command.writes = false ∨
      ∃ report, (perform environment now disk request).1 = .ok report) :
    ∃ log, command.Enters (locateStore environment disk request.store).2 now log := by
  rcases hdone with hlooks | ⟨report, hreport⟩
  · exact ⟨[], .nothing hlooks⟩
  rcases perform_cases now hjob with
    ⟨cache, found, hopened, hperform⟩ | ⟨failure, later, hperform, -⟩
  · rw [hperform] at hreport
    rw [hopened.located]
    cases command with
    | apply file =>
      rw [obey] at hreport
      split at hreport
      · exact absurd hreport (by simp)
      · next identities hread => exact ⟨_, .identities (identitiesIn_eq_ok_iff.1 hread)⟩
    | remove id => exact ⟨_, .removal id⟩
    | _ => exact ⟨[], .nothing rfl⟩
  · rw [hperform] at hreport
    exact absurd hreport (by simp)

/-! ### Commands that succeed -/

/-- A write on a disk that works succeeds, and the disk still works. -/
theorem write_of_works (record : Record) (hpath : cache.store.store.path = path)
    (hworks : cache.store.disk.Works path) (hstamp : record.stamp.isWritable = true) :
    (cache.write record).1 = .ok () ∧ (cache.write record).2.store.store.path = path ∧
      (cache.write record).2.store.disk.Works path := by
  subst hpath
  obtain ⟨text, hencode⟩ := Record.encode_of_isWritable hstamp
  obtain ⟨disk, hput, hlater⟩ := hworks.put record.id text
  have hstored : KeyValueStore.put cache.store record.id text =
      (.ok (), ⟨⟨cache.store.store.path, cache.store.store.data.insert record.id text⟩, disk⟩) := by
    show cache.store.put record.id text = _
    rw [DiskStore.put, hput]
  rw [Cache.write, hencode]
  dsimp only
  rw [hstored]
  exact ⟨rfl, rfl, hlater⟩

/-- All identities are written down. -/
theorem applyAll_of_works (identities : List Identity) (hpath : cache.store.store.path = path)
    (hworks : cache.store.disk.Works path) (hnow : now.isWritable = true) :
    (applyAll cache now identities).1 = .ok () ∧
      (applyAll cache now identities).2.store.disk.Works path := by
  induction identities generalizing cache with
  | nil => exact ⟨rfl, hworks⟩
  | cons identity rest ih =>
    obtain ⟨hok, hlaterPath, hlater⟩ :=
      write_of_works (.present identity now) hpath hworks hnow
    rw [applyAll, Cache.applyUpdate]
    cases hfirst : cache.write (.present identity now) with
    | mk result mid =>
      rw [hfirst] at hok hlaterPath hlater
      obtain rfl : result = .ok () := hok
      exact ih hlaterPath hlater

/-- **A command that is there to enter something succeeds** on a disk that works, and the disk still
works. -/
theorem obey_of_works {command : Command} {log : List Record}
    (hpath : cache.store.store.path = path) (hworks : cache.store.disk.Works path)
    (hnow : now.isWritable = true) (hwrites : command.writes = true)
    (henters : command.Enters cache.store.disk now log) :
    (∃ report, (obey cache now command).1 = .ok report) ∧
      (obey cache now command).2.store.disk.Works path := by
  cases henters with
  | nothing hlooks => exact absurd (hlooks.symm.trans hwrites) (by decide)
  | @identities file identities hholds =>
    obtain ⟨hok, hlater⟩ := applyAll_of_works identities hpath hworks hnow
    rw [obey, identitiesIn_eq_ok_iff.2 hholds]
    dsimp only
    rw [hok]
    exact ⟨⟨_, rfl⟩, hlater⟩
  | removal id =>
    obtain ⟨hok, -, hlater⟩ := write_of_works (.absent id now) hpath hworks hnow
    rw [obey, Cache.applyRemoval]
    cases hremoved : cache.write (.absent id now) with
    | mk result later =>
      rw [hremoved] at hok hlater
      obtain rfl : result = .ok () := hok
      exact ⟨⟨_, rfl⟩, hlater⟩

end DeviceScope.Inspector
