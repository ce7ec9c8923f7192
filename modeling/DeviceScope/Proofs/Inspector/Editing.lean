import DeviceScope.Proofs.Cache.Announcement
import DeviceScope.Proofs.Cache.Decision
import DeviceScope.Proofs.Inspector.Entering
import DeviceScope.Proofs.Inspector.Report

/-!
# The inspector as an editor

The file of a store is edited by running the inspector again and again, and in between whoever runs
it does other things with the disk (`Inspector.Session`). Along a session the entries of the file
change by the records that the commands are there to enter (`Inspector.Command.Enters`) and by
nothing else (`Inspector.Entered`); from this one reads off what is in the file, and what looking at
it shows (`Inspector.edits_are_faithful`).

What looking is to show is told without the inspector as well: what is listed are the records that a
selection picks (`Inspector.Selection.Picks`), in an output that shows them (`Inspector.Prints`).
-/

namespace DeviceScope.Inspector

open Disk

/-! ### Running the inspector again and again -/

/-- One run of the inspector. -/
structure Invocation where
  environment : Environment
  now : Timestamp
  arguments : List String

namespace Invocation

/-- What is asked for, if the arguments ask for anything. -/
def request? (self : Invocation) : Option Request :=
  (Request.ofArguments self.environment self.arguments).toOption

def run (self : Invocation) (disk : Disk) : Answer × Disk :=
  Inspector.run self.environment self.now disk self.arguments

/-- The disk when the store is opened: by then its folder is there, unless its path is given. -/
def opening (self : Invocation) (request : Request) (disk : Disk) : Disk :=
  (locateStore self.environment disk request.store).2

/-- Whether the invocation is not there to write. -/
def OnlyLooks (self : Invocation) : Prop :=
  ∀ request, self.request? = some request → request.job.writes = false

/-- The records that the invocation is there to enter: none if it does not ask for anything to be
done with a store. -/
inductive Enters (self : Invocation) (disk : Disk) : List Record → Prop where
  | nothing (h : ∀ request command, self.request? = some request →
      request.job ≠ .useStore command) : Enters self disk []
  | command {request : Request} {command : Command} {log : List Record}
    (hrequest : self.request? = some request) (hjob : request.job = .useStore command)
    (h : command.Enters (self.opening request disk) self.now log) : Enters self disk log

/-- The invocation is on the file at a path: this is the path that it opens, and the path still
names the same file when it does so. -/
def IsOn (self : Invocation) (path : String) (disk : Disk) : Prop :=
  ∀ request, self.request? = some request → request.job ≠ .checkConfig →
    (∀ found, (locateStore self.environment disk request.store).1 = .ok found → found = path) ∧
      (self.opening request disk).read path = disk.read path

/-- Nothing is made if the path of the store is given. -/
theorem opening_of_given {self : Invocation} {request : Request} {path : String}
    (hstore : request.store = some path) (disk : Disk) : self.opening request disk = disk := by
  rw [opening, hstore]
  rfl

/-- An invocation that opens the path is on the file there if the path is given, and otherwise if it
names one file. -/
theorem isOn_of_storePath? {self : Invocation} {request : Request} {path : String} {disk : Disk}
    (hrequest : self.request? = some request)
    (hpath : storePath? self.environment request.store = some path)
    (hsettled : request.store = none → disk.Settled path) : self.IsOn path disk := by
  intro found hfound _
  rw [hrequest] at hfound
  obtain rfl := Option.some.inj hfound
  exact read_locateStore hpath hsettled

theorem ofArguments_of_request? {self : Invocation} {request : Request}
    (h : self.request? = some request) :
    Request.ofArguments self.environment self.arguments = .ok request := by
  rw [request?] at h
  cases hrequest : Request.ofArguments self.environment self.arguments with
  | error halt =>
    rw [hrequest] at h
    exact absurd h (by simp [Except.toOption])
  | ok found =>
    rw [hrequest] at h
    exact congrArg Except.ok (Option.some.inj h)

/-- A request that can be met is answered by a report. -/
theorem run_of_perform_ok {self : Invocation} {request : Request} {disk later : Disk}
    {report : Report} (h : self.request? = some request)
    (hperform : perform self.environment self.now disk request = (.ok report, later)) :
    self.run disk = (⟨0, report.text request.format, ""⟩, later) := by
  rw [run, Inspector.run, ofArguments_of_request? h]
  dsimp only
  rw [hperform]

theorem run_of_perform_error {self : Invocation} {request : Request} {disk later : Disk}
    {failure : Failure} (h : self.request? = some request)
    (hperform : perform self.environment self.now disk request = (.error failure, later)) :
    self.run disk = (⟨1, "", "✗ " ++ failure.text ++ "\n"⟩, later) := by
  rw [run, Inspector.run, ofArguments_of_request? h]
  dsimp only
  rw [hperform]

/-- What becomes of the disk, and whether the code is zero, is told by what becomes of the
request. -/
theorem run_of_request? {self : Invocation} {request : Request}
    (h : self.request? = some request) (disk : Disk) :
    (self.run disk).2 = (perform self.environment self.now disk request).2 ∧
      ((self.run disk).1.code = 0 ↔
        ∃ report, (perform self.environment self.now disk request).1 = .ok report) := by
  cases hperform : perform self.environment self.now disk request with
  | mk result later =>
    cases result with
    | ok report =>
      rw [run_of_perform_ok h hperform]
      exact ⟨rfl, fun _ => ⟨report, rfl⟩, fun _ => rfl⟩
    | error failure =>
      rw [run_of_perform_error h hperform]
      refine ⟨rfl, fun hcode => ?_, fun ⟨_, hok⟩ => absurd hok (by simp)⟩
      have hone : (1 : UInt32) = 0 := hcode
      exact absurd hone (by decide)

/-- Arguments that ask for nothing leave the disk as it is. -/
theorem run_of_request?_eq_none {self : Invocation} (h : self.request? = none) (disk : Disk) :
    (self.run disk).2 = disk := by
  rw [request?] at h
  rw [run, Inspector.run]
  cases hrequest : Request.ofArguments self.environment self.arguments with
  | error halt => rfl
  | ok found =>
    rw [hrequest] at h
    exact absurd h (by simp [Except.toOption])

end Invocation

/-- The invocation succeeds on a disk that does not take a write without saying that it failed. -/
structure Invocation.Succeeds (invocation : Invocation) (disk : Disk) : Prop where
  code : (invocation.run disk).1.code = 0
  reports : Reports disk.hazards

/-- **A session on the file at a path**: the inspector is run on it, to look or with success, and
between its runs anything is done to the disk that leaves this file as it is. The log has the
records that the runs were there to enter. -/
inductive Session (path : String) (start : Disk) : List Record → Disk → Prop
  | start : Session path start [] start
  | meanwhile {log : List Record} {disk later : Disk} (h : Session path start log disk)
      (hread : later.read path = disk.read path) : Session path start log later
  | invoke {log : List Record} {disk : Disk} (h : Session path start log disk)
      (invocation : Invocation) (hon : invocation.IsOn path disk)
      (hdone : invocation.OnlyLooks ∨ invocation.Succeeds disk) {entered : List Record}
      (henters : invocation.Enters disk entered) :
      Session path start (log ++ entered) (invocation.run disk).2

/-- **One run** enters what it is there to enter. -/
theorem entered_of_run {invocation : Invocation} {path : String} {disk : Disk}
    {data : Ledger String} {log : List Record}
    (hload : FileStore.load disk path = .ok ⟨path, data⟩) (hon : invocation.IsOn path disk)
    (hdone : invocation.OnlyLooks ∨ invocation.Succeeds disk)
    (henters : invocation.Enters disk log) :
    ∃ later, FileStore.load (invocation.run disk).2 path = .ok ⟨path, later⟩ ∧
      Entered data log later := by
  cases henters with
  | nothing hidle =>
    refine ⟨data, ?_, .nothing⟩
    cases hrequest : invocation.request? with
    | none => rwa [Invocation.run_of_request?_eq_none hrequest]
    | some request =>
      rw [(Invocation.run_of_request? hrequest disk).1]
      cases hjob : request.job with
      | checkConfig => rwa [perform, hjob]
      | useStore command => exact absurd hjob (hidle request command hrequest)
  | @command request command log hrequest hjob henters =>
    obtain ⟨hdisk, hcode⟩ := Invocation.run_of_request? hrequest disk
    obtain ⟨hpath, hread⟩ := hon request hrequest (by rw [hjob]; simp)
    rw [hdisk]
    refine entered_of_perform hjob hload hpath hread (hdone.imp (fun hlooks => ?_)
      fun hsucceeds => ⟨hcode.1 hsucceeds.code, hsucceeds.reports⟩) henters
    have hwrites := hlooks request hrequest
    rwa [hjob] at hwrites

/-- An invocation that looks or succeeds is there to enter something. -/
theorem Invocation.exists_enters {self : Invocation} {disk : Disk}
    (hdone : self.OnlyLooks ∨ (self.run disk).1.code = 0) : ∃ log, self.Enters disk log := by
  cases hrequest : self.request? with
  | none =>
    exact ⟨[], .nothing fun request command hfound => absurd (hrequest.symm.trans hfound) (by simp)⟩
  | some request =>
    cases hjob : request.job with
    | checkConfig =>
      refine ⟨[], .nothing fun found command hfound => ?_⟩
      obtain rfl := Option.some.inj (hrequest.symm.trans hfound)
      rw [hjob]
      simp
    | useStore command =>
      obtain ⟨log, hlog⟩ := exists_enters_of_perform hjob (hdone.imp (fun hlooks => by
        have hwrites := hlooks request hrequest
        rwa [hjob] at hwrites) (Invocation.run_of_request? hrequest disk).2.1)
      exact ⟨log, .command hrequest hjob hlog⟩

/-- **A session enters what its runs are there to enter.** -/
theorem Session.entered {path : String} {start disk : Disk} {log : List Record}
    {data : Ledger String} (h : Session path start log disk)
    (hload : FileStore.load start path = .ok ⟨path, data⟩) :
    ∃ later, FileStore.load disk path = .ok ⟨path, later⟩ ∧ Entered data log later := by
  induction h with
  | start => exact ⟨data, hload, .nothing⟩
  | meanwhile _ hread ih =>
    obtain ⟨later, hlater, hentered⟩ := ih
    exact ⟨later, (FileStore.load_congr hread).trans hlater, hentered⟩
  | invoke _ invocation hon hdone henters ih =>
    obtain ⟨mid, hmid, hentered⟩ := ih
    obtain ⟨later, hlater, hmore⟩ := entered_of_run hmid hon hdone henters
    exact ⟨later, hlater, hentered.trans hmore⟩

/-! ### Looking at the file -/

/-- All that can be read of the entries of a store as records, in ascending order of their ids. -/
structure ListsRecords (data : Ledger String) (all : List Record) : Prop where
  ascending : (all.map Record.id).Pairwise (· < ·)
  mem : ∀ record, record ∈ all ↔
    ∃ id text, data.get? id = some text ∧ Record.decode id text = .ok record

/-- **The records that are asked for**: all of them, those with an identity, or those without. -/
inductive Selection.Selects : Selection → Record → Prop where
  | all (record : Record) : Selects .all record
  | present {record : Record} {identity : Identity} (hentry : record.entry = .present identity) :
    Selects .present record
  | absent {record : Record} (hentry : record.entry = .absent) : Selects .absent record

/-- The records that are picked of all are those that are asked for, in the same order. -/
structure Selection.Picks (selection : Selection) (all shown : List Record) : Prop where
  sublist : shown.Sublist all
  mem : ∀ record, record ∈ shown ↔ record ∈ all ∧ selection.Selects record

theorem Selection.admits_iff {selection : Selection} {record : Record} :
    selection.admits record = true ↔ selection.Selects record := by
  cases selection with
  | all => exact ⟨fun _ => .all record, fun _ => rfl⟩
  | present =>
    rw [admits, Entry.isPresent]
    cases hentry : record.entry with
    | present identity => exact ⟨fun _ => .present hentry, fun _ => rfl⟩
    | absent =>
      refine ⟨fun h => absurd h (by simp [Entry.identity?]), fun h => ?_⟩
      cases h with
      | present hpresent => exact absurd (hentry.symm.trans hpresent) (by simp)
  | absent =>
    rw [admits, Entry.isPresent]
    cases hentry : record.entry with
    | present identity =>
      refine ⟨fun h => absurd h (by simp [Entry.identity?]), fun h => ?_⟩
      cases h with
      | absent habsent => exact absurd (hentry.symm.trans habsent) (by simp)
    | absent => exact ⟨fun _ => .absent hentry, fun _ => rfl⟩

theorem Selection.picks_filter (selection : Selection) (all : List Record) :
    selection.Picks all (all.filter selection.admits) := by
  refine ⟨List.filter_sublist, fun record => ?_⟩
  rw [List.mem_filter, selection.admits_iff]

theorem ListsRecords.nodup {data : Ledger String} {all : List Record} (h : ListsRecords data all) :
    all.Nodup := by
  have hids : (all.map Record.id).Nodup := h.ascending.imp fun {a b} hlt heq => by
    rw [heq] at hlt
    exact String.lt_irrefl b hlt
  exact hids.of_map

/-- **The records with and without an identity**, listed apart, are all records, each once. -/
theorem perm_present_absent {data : Ledger String} {all present absent : List Record}
    (h : ListsRecords data all) (hpresent : Selection.present.Picks all present)
    (habsent : Selection.absent.Picks all absent) : (present ++ absent).Perm all := by
  refine (List.perm_ext_iff_of_nodup ?_ h.nodup).2 fun record => ?_
  · refine List.nodup_append.2 ⟨hpresent.sublist.nodup h.nodup, habsent.sublist.nodup h.nodup, ?_⟩
    rintro record hone _ hother rfl
    obtain ⟨-, hselects⟩ := (hpresent.mem record).1 hone
    obtain ⟨-, hselected⟩ := (habsent.mem record).1 hother
    cases hselects with
    | present hentry =>
      cases hselected with
      | absent hnone => exact absurd (hentry.symm.trans hnone) (by simp)
  · rw [List.mem_append, hpresent.mem, habsent.mem, ← and_or_left]
    refine and_iff_left ?_
    cases hentry : record.entry with
    | present identity => exact .inl (.present hentry)
    | absent => exact .inr (.absent hentry)

theorem listsRecords_of_mirrors {data : Ledger String} {records : Ledger Record}
    (h : Cache.Mirrors records data) : ListsRecords data records.values := by
  have hkeyed : records.KeyedBy Record.id := by
    intro id record hget
    obtain ⟨text, -, hdecode⟩ := (h id record).1 hget
    exact Record.id_of_decode hdecode
  refine ⟨?_, fun record => ?_⟩
  · rw [hkeyed.map_values_eq_keys]
    exact Ledger.pairwise_keys records
  · rw [Ledger.mem_values_iff]
    exact exists_congr fun id => h id record

/-- An invocation gets as far as the store at a path: the settings hold, and this is the path that
it opens, which names the same file still when it does so. -/
structure Invocation.Reaches (invocation : Invocation) (request : Request) (path : String)
    (disk : Disk) : Prop where
  asked : invocation.request? = some request
  config : ∃ config, loadConfig disk request.config = .ok config
  located : (locateStore invocation.environment disk request.store).1 = .ok path
  same : (invocation.opening request disk).read path = disk.read path

/-- An invocation reaches the store at the path that it is given, under the standard settings. -/
theorem Invocation.reaches_of_given {self : Invocation} {request : Request} {path : String}
    (hrequest : self.request? = some request) (hstore : request.store = some path)
    (hconfig : request.config = none) (disk : Disk) : self.Reaches request path disk := by
  refine ⟨hrequest, ⟨.standard, ?_⟩, ?_, ?_⟩
  · rw [hconfig]
    rfl
  · rw [hstore]
    rfl
  · rw [opening_of_given hstore]

/-- A command is then obeyed over the records of this store. -/
theorem Invocation.Reaches.exists_perform {self : Invocation} {request : Request} {path : String}
    {disk : Disk} {command : Command} {data : Ledger String} {records : Ledger Record}
    (h : self.Reaches request path disk) (hjob : request.job = .useStore command)
    (hload : FileStore.load disk path = .ok ⟨path, data⟩)
    (hrecords : Cache.Mirrors records data) :
    ∃ cache : Cache DiskStore, cache.records = records ∧
      cache.store = ⟨⟨path, data⟩, self.opening request disk⟩ ∧
      perform self.environment self.now disk request =
        ((obey cache self.now command).1, (obey cache self.now command).2.store.disk) := by
  obtain ⟨config, hconfig⟩ := h.config
  have hlocated : locateStore self.environment disk request.store =
      (.ok path, self.opening request disk) := Prod.ext h.located rfl
  have hopens := (FileStore.load_congr h.same).trans hload
  obtain ⟨cache, hopen, hstore, hopened⟩ := exists_isOpened hconfig hlocated hopens
  refine ⟨cache, ?_, hstore, ?_⟩
  · have hmirrors := hopened.mirrors
    rw [hstore] at hmirrors
    exact hmirrors.unique hrecords
  · rw [perform, hjob]
    dsimp only
    rw [hopen]

/-- **What is there to enter something succeeds** on a disk that works, and the disk still works. -/
theorem Invocation.Reaches.succeeds {self : Invocation} {request : Request} {path : String}
    {disk : Disk} {command : Command} {data : Ledger String} {entered : List Record}
    (h : self.Reaches request path disk) (hjob : request.job = .useStore command)
    (hwrites : command.writes = true) (hload : FileStore.load disk path = .ok ⟨path, data⟩)
    (hworks : (self.opening request disk).Works path) (hnow : self.now.isWritable = true)
    (henters : command.Enters (self.opening request disk) self.now entered) :
    (self.run disk).1.code = 0 ∧ (self.run disk).2.Works path := by
  obtain ⟨cache, -, hstore, hperform⟩ :=
    h.exists_perform hjob hload (Cache.mirrors_bootstrap data)
  have hpath : cache.store.store.path = path := by rw [hstore]
  have hdisk : cache.store.disk = self.opening request disk := by rw [hstore]
  rw [← hdisk] at hworks henters
  obtain ⟨hreport, hlater⟩ := obey_of_works hpath hworks hnow hwrites henters
  obtain ⟨hrun, hcode⟩ := Invocation.run_of_request? h.asked disk
  rw [hrun, hcode, hperform]
  exact ⟨hreport, hlater⟩

/-- What looking shows of a store with these entries, of which these are the records. -/
structure Shows (path : String) (disk : Disk) (data : Ledger String) (all : List Record) :
    Prop where
  /-- An id is found in scope exactly if its record holds an identity that may connect. -/
  verify : ∀ (invocation : Invocation) (request : Request) (id : String),
    invocation.Reaches request path disk → request.job = .useStore (.verify id) →
      ((invocation.run disk).1.code = 0 ↔
        ∃ text record identity, data.get? id = some text ∧ Record.decode id text = .ok record ∧
          record.entry = .present identity ∧ identity.status = .enabled)
  /-- The records that were asked for are listed, and nothing is wrong. -/
  list : ∀ (invocation : Invocation) (request : Request) (selection : Selection),
    invocation.Reaches request path disk → request.job = .useStore (.list selection) →
      ∃ shown, selection.Picks all shown ∧
        Prints request.format shown (invocation.run disk).1.output ∧
        (invocation.run disk).1.code = 0 ∧ (invocation.run disk).1.error = ""

theorem shows_of_load {path : String} {disk : Disk} {data : Ledger String}
    {records : Ledger Record} (hload : FileStore.load disk path = .ok ⟨path, data⟩)
    (hrecords : Cache.Mirrors records data) : Shows path disk data records.values := by
  refine ⟨fun invocation request id hreaches hjob => ?_,
    fun invocation request selection hreaches hjob => ?_⟩
  · obtain ⟨cache, hcache, -, hperform⟩ := hreaches.exists_perform hjob hload hrecords
    rw [(Invocation.run_of_request? hreaches.asked disk).2, hperform]
    -- The decision is that of the record, which is what can be read under the id.
    have hdecide : (∃ report, (obey cache invocation.now (.verify id)).1 = .ok report) ↔
        ∃ identity, cache.decide id = .ok identity := by
      rw [obey]
      split
      · next error hdecide => simp [hdecide]
      · next identity hdecide => simp [hdecide]
    dsimp only
    rw [hdecide]
    constructor
    · rintro ⟨identity, hidentity⟩
      obtain ⟨hknown, henabled⟩ := Cache.decide_eq_ok_iff.1 hidentity
      obtain ⟨record, hrecord, hentry⟩ := Option.bind_eq_some_iff.1 hknown
      obtain ⟨text, hget, hread⟩ := (hrecords id record).1 (hcache ▸ hrecord)
      exact ⟨text, record, identity, hget, hread, Record.identity?_eq_some_iff.1 hentry,
        of_decide_eq_true henabled⟩
    · rintro ⟨text, record, identity, hget, hread, hentry, henabled⟩
      have hrecord : cache.record? id = some record := by
        rw [Cache.record?, hcache]
        exact (hrecords id record).2 ⟨text, hget, hread⟩
      refine ⟨identity, Cache.decide_eq_ok_iff.2 ⟨?_, decide_eq_true henabled⟩⟩
      rw [Cache.identity?, hrecord]
      exact Record.identity?_eq_some_iff.2 hentry
  · obtain ⟨cache, hcache, -, hperform⟩ := hreaches.exists_perform hjob hload hrecords
    rw [Invocation.run_of_perform_ok hreaches.asked hperform, hcache]
    refine ⟨_, selection.picks_filter _, prints_text (fun record hmem => ?_) _, rfl, rfl⟩
    -- What was read can be written.
    obtain ⟨id, text, -, hread⟩ :=
      ((listsRecords_of_mirrors hrecords).mem record).1 (List.mem_filter.1 hmem).1
    obtain ⟨stored, hstored, -⟩ := Record.encode_of_decode hread
    obtain ⟨value, hvalue, -⟩ := Record.encode_eq_ok_iff.1 hstored
    exact ⟨value, hvalue⟩

/-! ### The editor -/

/-- **The inspector edits the file of a store faithfully.** Whatever is on the disk, looking leaves
every file as it is and makes none, and so does a file that is not an array of identities, which is
refused. What looks or succeeds is there to enter the records that its arguments and the file of
identities name, or none; and on a disk that works, what is there to enter records succeeds.

Along every session on the file at a path, the file opens and has the entries that it had at the
beginning under all ids that no command has named, text by text, and under every other id the record
that was entered for it last. Looking shows just this: the ids that may connect, and all records in
ascending order, those with an identity and those without one apart if wanted. -/
theorem edits_are_faithful :
    (∀ (invocation : Invocation) (disk : Disk) (request : Request),
      invocation.request? = some request →
        (request.job.writes = false → Spares request.store disk (invocation.run disk).2) ∧
        ∀ file, request.job = .useStore (.apply file) →
          (∀ identities, ¬ HoldsIdentities (invocation.opening request disk) file identities) →
          (invocation.run disk).1.code ≠ 0 ∧
            Spares request.store disk (invocation.run disk).2) ∧
    (∀ (invocation : Invocation) (disk : Disk),
      invocation.OnlyLooks ∨ (invocation.run disk).1.code = 0 →
        ∃ entered, invocation.Enters disk entered) ∧
    (∀ (invocation : Invocation) (disk : Disk) (request : Request) (command : Command)
      (path : String) (data : Ledger String) (entered : List Record),
      invocation.Reaches request path disk → request.job = .useStore command →
        command.writes = true → FileStore.load disk path = .ok ⟨path, data⟩ →
        (invocation.opening request disk).Works path → invocation.now.isWritable = true →
        command.Enters (invocation.opening request disk) invocation.now entered →
          (invocation.run disk).1.code = 0 ∧ (invocation.run disk).2.Works path) ∧
    ∀ (path : String) (start disk : Disk) (data : Ledger String) (log : List Record),
      FileStore.load start path = .ok ⟨path, data⟩ → Session path start log disk →
        ∃ later all, FileStore.load disk path = .ok ⟨path, later⟩ ∧
          (∀ id, (∀ record ∈ log, record.id ≠ id) → later.get? id = data.get? id) ∧
          (∀ id record, lastFor? log id = some record →
            ∃ text, later.get? id = some text ∧ Record.decode id text = .ok record) ∧
          ListsRecords later all ∧ Shows path disk later all ∧
          ∀ present absent, Selection.present.Picks all present →
            Selection.absent.Picks all absent → (present ++ absent).Perm all := by
  -- The file of a session goes by what was entered, and what looking shows goes by the file.
  refine ⟨fun invocation disk request hrequest => ⟨fun hlooks => ?_, fun file hjob hnone => ?_⟩,
    fun _ _ => Invocation.exists_enters, fun _ _ _ _ _ _ _ hreaches => hreaches.succeeds,
    fun path start disk data log hload hsession => ?_⟩
  · rw [(Invocation.run_of_request? hrequest disk).1]
    exact spares_perform_of_not_writes _ _ _ hlooks
  · obtain ⟨⟨failure, hfailure⟩, hspares⟩ := spares_perform_of_unreadable invocation.now hjob
      fun identities hread => hnone identities (identitiesIn_eq_ok_iff.1 hread)
    obtain ⟨hdisk, hcode⟩ := Invocation.run_of_request? hrequest disk
    rw [hdisk, ne_eq, hcode, hfailure]
    exact ⟨fun ⟨_, hok⟩ => absurd hok (by simp), hspares⟩
  · obtain ⟨later, hlater, hentered⟩ := hsession.entered hload
    have hmirrors := Cache.mirrors_bootstrap later
    have hlists := listsRecords_of_mirrors hmirrors
    exact ⟨later, _, hlater, fun _ => hentered.get?_of_forall_ne,
      fun _ _ => hentered.decode_lastFor?, hlists, shows_of_load hlater hmirrors,
      fun _ _ => perm_present_absent hlists⟩

/-! ### A session -/

namespace FleetEdit

def moduleOfA : Identity := .ofModule "a" "m" "1" (.sas "k" "") .enabled

def newestA : Identity := .ofDevice "a" "2" .authority .enabled

/-- Two identities of one device, and one of a module on it. -/
def fleet : List Identity := [.ofDevice "a" "1" .none .disabled, moduleOfA, newestA]

/-- An entry that is no record. -/
def entries : Ledger String := (∅ : Ledger String).insert "x" ""

def initial : Disk :=
  { Disk.blank [] with
    nodes := ((∅ : Ledger Node).insert "/fleet.json"
      (.file (Utf8.encode (Json.array (fleet.map Identity.toJson)).compact))).insert "/scope.json"
        (.file (Snapshot.ofEntries entries).toBytes) }

def application : Invocation := ⟨[], .utc 1, ["--store", "scope.json", "apply", "fleet.json"]⟩

def removal : Invocation := ⟨[], .utc 2, ["--store", "scope.json", "remove", "a/m"]⟩

def listing : Invocation :=
  ⟨[], .utc 3, ["--store", "scope.json", "--format", "json", "list", "--present"]⟩

def request (command : Command) : Request := ⟨.useStore command, some "scope.json", none, .table⟩

def log : List Record :=
  fleet.map (fun identity => .present identity (.utc 1)) ++ [.absent "a/m" (.utc 2)]

/-- A place in the root folder. -/
theorem hasRoom_start {name : String} {node : Option Node}
    (hlocate : initial.locate? name = .ok [name]) (hclosed : (Path.ofText name).closed = false)
    (hget : initial.nodes.get? (place [name]) = node) (hfree : node ≠ some .folder) :
    initial.HasRoom name [name] :=
  ⟨hlocate, List.cons_ne_nil _ _, hclosed, hget ▸ hfree⟩

theorem get?_scope : initial.nodes.get? (place ["scope.json"]) =
    some (.file (Snapshot.ofEntries entries).toBytes) :=
  Ledger.get?_insert_self _ _ _

theorem get?_fleet : initial.nodes.get? (place ["fleet.json"]) =
    some (.file (Utf8.encode (Json.array (fleet.map Identity.toJson)).compact)) := by
  have hne : place ["fleet.json"] ≠ "/scope.json" := by decide
  rw [initial, Ledger.get?_insert_of_ne _ _ hne]
  exact Ledger.get?_insert_self _ _ _

theorem works_start : initial.Works "scope.json" := by
  have hnone : initial.nodes.get? (place ["scope.json.tmp"]) = none := by
    have hscope : place ["scope.json.tmp"] ≠ "/scope.json" := by decide
    have hfleet : place ["scope.json.tmp"] ≠ "/fleet.json" := by decide
    rw [initial, Ledger.get?_insert_of_ne _ _ hscope, Ledger.get?_insert_of_ne _ _ hfleet]
    rfl
  refine ⟨fun hazard hmem => absurd hmem List.not_mem_nil, ⟨initial.nodes, rfl⟩,
    ⟨["scope.json"], hasRoom_start rfl rfl get?_scope (by simp)⟩,
    ⟨["scope.json.tmp"], ⟨rfl, by decide, rfl, ?_⟩⟩⟩
  exact hnone ▸ (by simp)

theorem load_start : FileStore.load initial "scope.json" = .ok ⟨"scope.json", entries⟩ :=
  FileStore.load_of_read ((hasRoom_start rfl rfl get?_scope (by simp)).read get?_scope)

theorem holdsIdentities_start : HoldsIdentities initial "fleet.json" fleet :=
  ⟨_, (hasRoom_start rfl rfl get?_fleet (by simp)).read get?_fleet,
    Identity.areSpelledBy_compact fleet⟩

theorem id_of_mem_log {record : Record} (h : record ∈ log) :
    record.id = "a" ∨ record.id = "a/m" := by
  simp only [log, fleet, List.map_cons, List.map_nil, List.cons_append, List.nil_append,
    List.mem_cons, List.not_mem_nil, or_false] at h
  rcases h with rfl | rfl | rfl | rfl
  · exact .inl (by decide)
  · exact .inr (by decide)
  · exact .inl (by decide)
  · exact .inr rfl

/-- What can be read of the entries is what was written last. -/
theorem eq_of_decode {later : Ledger String} {id text : String} {record : Record}
    (hkept : ∀ id, (∀ record ∈ log, record.id ≠ id) → later.get? id = entries.get? id)
    (hlast : ∀ id record, lastFor? log id = some record →
      ∃ text, later.get? id = some text ∧ Record.decode id text = .ok record)
    (hget : later.get? id = some text) (hdecode : Record.decode id text = .ok record) :
    record = .present newestA (.utc 1) ∨ record = .absent "a/m" (.utc 2) := by
  have hwritten : ∀ newest, lastFor? log id = some newest → record = newest := by
    intro newest hnewest
    obtain ⟨kept, hkept, hread⟩ := hlast id newest hnewest
    obtain rfl := Option.some.inj (hkept.symm.trans hget)
    exact Except.ok.inj (hdecode.symm.trans hread)
  by_cases ha : id = "a"
  · subst ha
    exact .inl (hwritten _ (by decide +kernel))
  by_cases hm : id = "a/m"
  · subst hm
    exact .inr (hwritten _ (by decide +kernel))
  -- Nothing else is there but the entry that is no record.
  rw [hkept id fun record hmem heq => by
    rcases id_of_mem_log hmem with h | h
    · exact ha (heq.symm.trans h)
    · exact hm (heq.symm.trans h), entries, Ledger.get?_insert] at hget
  split at hget
  · next hx =>
    subst hx
    obtain rfl := Option.some.inj hget
    have hblank : Record.decode "x" "" = .error (.invalidRecord "x" .unreadable) := by
      rw [Record.decode]
      decide
    exact absurd (hblank.symm.trans hdecode) (by simp)
  · exact absurd hget (by simp)

end FleetEdit

section

open FleetEdit

/-- Identities are applied to a file with an entry that is no record, one of them is removed, and
those that are left are listed. -/
theorem edits_are_faithful_beside_unreadable_entry :
    let applied := (application.run initial).2
    let removed := (removal.run applied).2
    FileStore.load initial "scope.json" = .ok ⟨"scope.json", entries⟩ ∧
      HoldsIdentities initial "fleet.json" fleet ∧ (application.run initial).1.code = 0 ∧
      (removal.run applied).1.code = 0 ∧
      ∃ later, FileStore.load removed "scope.json" = .ok ⟨"scope.json", later⟩ ∧
        later.get? "x" = some "" ∧
        (∃ text, later.get? "a/m" = some text ∧
          Record.decode "a/m" text = .ok (.absent "a/m" (.utc 2))) ∧
        Prints .json [.present newestA (.utc 1)] (listing.run removed).1.output := by
  intro applied removed
  obtain ⟨-, -, hsucceeds, hsession⟩ := edits_are_faithful
  have hon (invocation : Invocation) (disk : Disk) (request : Request)
      (hrequest : invocation.request? = some request) (hstore : request.store = some "scope.json") :
      invocation.IsOn "scope.json" disk :=
    Invocation.isOn_of_storePath? hrequest (by rw [storePath?, hstore]; rfl)
      fun hnone => absurd (hstore.symm.trans hnone) (by simp)
  -- All identities are applied.
  have hasked : application.request? = some (request (.apply "fleet.json")) := rfl
  have hopening : application.opening (request (.apply "fleet.json")) initial = initial :=
    Invocation.opening_of_given rfl initial
  have henters : application.Enters initial _ :=
    .command hasked rfl (.identities (hopening.symm ▸ holdsIdentities_start))
  obtain ⟨hcode, hworks⟩ := hsucceeds application initial _ _ "scope.json" entries _
    (Invocation.reaches_of_given hasked rfl rfl initial) rfl rfl load_start
    (hopening.symm ▸ works_start) (by decide)
    (.identities (hopening.symm ▸ holdsIdentities_start))
  have hfirst := Session.invoke .start application (hon _ _ _ hasked rfl)
    (.inr ⟨hcode, works_start.calm.reports⟩) henters
  obtain ⟨mid, -, hmid, -⟩ := hsession _ _ _ _ _ load_start hfirst
  -- One of them is removed.
  have hasked' : removal.request? = some (request (.remove "a/m")) := rfl
  have hopening' : removal.opening (request (.remove "a/m")) applied = applied :=
    Invocation.opening_of_given rfl applied
  obtain ⟨hcode', -⟩ := hsucceeds removal applied _ _ "scope.json" mid _
    (Invocation.reaches_of_given hasked' rfl rfl applied) rfl rfl hmid
    (hopening'.symm ▸ hworks) (by decide) (.removal "a/m")
  have hsecond : Session "scope.json" initial log removed :=
    .invoke hfirst removal (hon _ _ _ hasked' rfl) (.inr ⟨hcode', hworks.calm.reports⟩)
      (.command hasked' rfl (.removal "a/m"))
  obtain ⟨later, all, hlater, hkept, hlast, hlists, hshows, -⟩ :=
    hsession _ _ _ _ _ load_start hsecond
  have hx : later.get? "x" = some "" := hkept "x" fun record hmem heq => by
    rcases id_of_mem_log hmem with h | h
    · exact absurd (heq.symm.trans h) (by decide)
    · exact absurd (heq.symm.trans h) (by decide)
  obtain ⟨shown, hpicks, hprints, -, -⟩ :=
    hshows.list listing ⟨_, _, _, _⟩ .present
      (Invocation.reaches_of_given rfl rfl rfl removed) rfl
  have hshown : shown = [.present newestA (.utc 1)] := by
    refine List.perm_singleton.1 ((List.perm_ext_iff_of_nodup
      (hpicks.sublist.nodup hlists.nodup) (List.nodup_singleton _)).2 fun record => ?_)
    rw [hpicks.mem, hlists.mem, List.mem_singleton]
    constructor
    · rintro ⟨⟨id, text, hget, hdecode⟩, hpresent⟩
      rcases eq_of_decode hkept hlast hget hdecode with rfl | rfl
      · rfl
      · cases hpresent with
        | present hentry => exact absurd hentry (by simp [Record.absent])
    · rintro rfl
      exact ⟨⟨"a", hlast "a" _ (by decide +kernel)⟩, .present rfl⟩
  exact ⟨load_start, holdsIdentities_start, hcode, hcode', later, hlater, hx,
    hlast "a/m" _ (by decide +kernel), hshown ▸ hprints⟩

end

end DeviceScope.Inspector
