import DeviceScope.Proofs.Store.File

/-!
# Puts are atomic and durable

Puts are asked of a store in a file one after another, and during each anything may befall the disk
(`PutRequest`). A put is all or nothing, at any moment (`DiskStore.IsAtomic`); so after any puts the
store holds what the successful ones left, and so does its file (`DiskStore.puts_are_durable`).

There is one thing that a store does not notice: that the temporary file could not be written, if
this is not said (`PutRequest.lost?`). Such a put succeeds, and whatever was written is in the file,
until another put succeeds (`DiskStore.not_durable_after_lost_write`).

Nothing is promised of what a path reads that names another file once the folders on the way are
made (`DiskStore.not_atomic_through_missing_folder`); `Disk.Settled` excludes such a path. Of the
store in memory, of a put that succeeds, and of all other files everything holds without this.

A disk has no links. So the file and the temporary file are never one and the same file under two
names, nor is one of them another file of the disk.
-/

namespace DeviceScope

open Disk

/-- A put that is asked for, and what befalls the disk meanwhile. -/
structure PutRequest where
  key : String
  value : String
  hazards : List (Option Hazard)

/-- **What is in the file at a path if the put succeeds although it could not be written.** -/
def PutRequest.lost? (request : PutRequest) (path : Path) : Option Bytes :=
  FileStore.lostWrite? path request.hazards

namespace DiskStore

/-- The store when a put is about to be done. -/
def facing (self : DiskStore) (request : PutRequest) : DiskStore :=
  { self with disk := { self.disk with hazards := request.hazards } }

def serve (self : DiskStore) (request : PutRequest) : Except StoreError Unit × DiskStore :=
  (self.facing request).put request.key request.value

/-- The entries once a put has succeeded. -/
def entriesWith (self : DiskStore) (request : PutRequest) : Ledger String :=
  self.store.data.insert request.key request.value

/-- The disks that a put goes through. -/
def whileServing (self : DiskStore) (request : PutRequest) : List Disk :=
  self.store.whileSaving (self.entriesWith request) (self.facing request).disk

/-! ### One put -/

/-- What a put that succeeds leaves in the file. -/
def bytesWith (self : DiskStore) (request : PutRequest) : Bytes :=
  (request.lost? self.store.path).getD (Snapshot.ofEntries (self.entriesWith request)).toBytes

/-- **A put is all or nothing.** -/
structure IsAtomic (before : DiskStore) (request : PutRequest) : Prop where
  /-- A put that succeeds adds its entry, in memory and, unless its write was lost, in the file, and
  leaves no temporary file. -/
  ok : (before.serve request).1 = .ok () →
    (before.serve request).2.store = ⟨before.store.path, before.entriesWith request⟩ ∧
      (before.serve request).2.disk.read before.store.path = .ok (before.bytesWith request) ∧
      (request.lost? before.store.path = none →
        FileStore.load (before.serve request).2.disk before.store.path =
          .ok (before.serve request).2.store) ∧
      (before.serve request).2.disk.node? before.store.path.temporary = .error .missing
  /-- A put that fails changes nothing in memory and nothing in the file. -/
  error : ∀ error, (before.serve request).1 = .error error →
    (before.serve request).2.store = before.store ∧
      (before.disk.Settled before.store.path →
        (before.serve request).2.disk.read before.store.path = before.disk.read before.store.path)
  /-- At any moment the file is the old one or, only if the put succeeds, the new one. -/
  whole : ∀ now ∈ before.whileServing request, before.disk.Settled before.store.path →
    now.read before.store.path = before.disk.read before.store.path ∨
      (before.serve request).1 = .ok () ∧
        now.read before.store.path = .ok (before.bytesWith request)
  /-- At any moment nothing is new but the file, the temporary file, and folders where there was
  nothing. -/
  elsewhere : ∀ now ∈ before.whileServing request, ∀ key,
    now.nodes.get? key = before.disk.nodes.get? key ∨
      (before.disk.nodes.get? key = none ∧ now.nodes.get? key = some .folder) ∨
        now.LeadsTo before.store.path key ∨ now.LeadsTo before.store.path.temporary key

/-- What befalls the disk later is no matter to what stands on it now. -/
theorem unsaved_of_facing {self : DiskStore} {request : PutRequest} {path : Path} {now : Disk}
    (h : FileStore.Unsaved path (self.facing request).disk now) :
    FileStore.Unsaved path self.disk now := by
  cases h with
  | making count here nodes => exact .making count here nodes
  | writing names other made here same =>
    exact .writing names other (made.of_keeps rfl fun _ hkey => hkey) here same

theorem isAtomic (self : DiskStore) (request : PutRequest) : self.IsAtomic request := by
  cases hput : self.store.put (self.facing request).disk request.key request.value with
  | mk result rest =>
    obtain ⟨later, disk'⟩ := rest
    have hserve : self.serve request = (result, ⟨later, disk'⟩) := by
      have hstore : (self.facing request).store = self.store := rfl
      rw [serve, put, hstore, hput]
    cases result with
    | error error =>
      obtain ⟨hsave, rfl⟩ := FileStore.save_of_put_error hput
      -- No disk on the way has the new file, and the last one is among them.
      have hunsaved : ∀ now ∈ self.whileServing request,
          FileStore.Unsaved self.store.path self.disk now :=
        fun now hnow => unsaved_of_facing (FileStore.unsaved_of_save_error hsave now hnow)
      have hlast := hunsaved disk' (FileStore.save_mem_whileSaving hsave)
      refine ⟨fun hok => ?_, fun _ _ => ?_, fun now hnow hsettled => ?_, fun now hnow key => ?_⟩
      · rw [hserve] at hok
        exact absurd hok (by simp)
      · rw [hserve]
        exact ⟨rfl, fun hsettled => hlast.read_of_settled hsettled⟩
      · exact .inl ((hunsaved now hnow).read_of_settled hsettled)
      · exact ((hunsaved now hnow).elsewhere key).imp_right (Or.imp_right .inr)
    | ok =>
      obtain ⟨hsave, rfl⟩ := FileStore.save_of_put_ok hput
      obtain ⟨⟨names, other, hsaved⟩, hmoments⟩ := FileStore.saved_of_save_ok hsave
      have hread : disk'.read self.store.path = .ok (self.bytesWith request) := hsaved.read
      refine ⟨fun _ => ?_, fun error herror => ?_, fun now hnow hsettled => ?_,
        fun now hnow key => ?_⟩
      · rw [hserve]
        refine ⟨rfl, hread, fun hkept => ?_, hsaved.temporary⟩
        rw [bytesWith, hkept] at hread
        exact FileStore.load_of_read hread
      · rw [hserve] at herror
        exact absurd herror (by simp)
      · -- Only the last of the disks has the new file.
        rcases hmoments now hnow with hunsaved | rfl
        · exact .inl ((unsaved_of_facing hunsaved).read_of_settled hsettled)
        · rw [hserve]
          exact .inr ⟨rfl, hread⟩
      · rcases hmoments now hnow with hunsaved | rfl
        · exact ((unsaved_of_facing hunsaved).elsewhere key).imp_right (Or.imp_right .inr)
        · exact hsaved.elsewhere key

/-! ### Puts one after another -/

def serveAll (self : DiskStore) (requests : List PutRequest) : DiskStore :=
  requests.foldl (fun reached request => (reached.serve request).2) self

/-- The puts that succeed, in their order. -/
def taken (self : DiskStore) : List PutRequest → List PutRequest
  | [] => []
  | request :: rest =>
    match self.serve request with
    | (.ok (), later) => request :: later.taken rest
    | (.error _, later) => later.taken rest

/-- The entries after puts that all succeed. -/
def replay (data : Ledger String) (requests : List PutRequest) : Ledger String :=
  requests.foldl (fun data request => data.insert request.key request.value) data

/-- **In memory is what the successful puts left.** -/
theorem store_serveAll (self : DiskStore) (requests : List PutRequest) :
    (self.serveAll requests).store =
      ⟨self.store.path, replay self.store.data (self.taken requests)⟩ := by
  induction requests generalizing self with
  | nil => rfl
  | cons request rest ih =>
    have hatomic := self.isAtomic request
    rw [serveAll, List.foldl_cons, taken]
    refine (ih (self.serve request).2).trans ?_
    cases hserve : self.serve request with
    | mk result later =>
      cases result with
      | ok =>
        have hstore := (hatomic.ok (by rw [hserve])).1
        rw [hserve] at hstore
        dsimp only at hstore ⊢
        rw [hstore]
        rfl
      | error error =>
        have hstore := (hatomic.error error (by rw [hserve])).1
        rw [hserve] at hstore
        dsimp only at hstore ⊢
        rw [hstore]

/-- A put that fails leaves the path naming the file that it names. -/
theorem settled_serve_error {self later : DiskStore} {request : PutRequest} {error : StoreError}
    (hsettled : self.disk.Settled self.store.path)
    (h : self.serve request = (.error error, later)) : later.disk.Settled self.store.path := by
  cases hput : self.store.put (self.facing request).disk request.key request.value with
  | mk result rest =>
    have hstore : (self.facing request).store = self.store := rfl
    rw [serve, put, hstore, hput] at h
    obtain ⟨rfl, rfl⟩ := Prod.mk.inj h
    have hfacing : (self.facing request).disk.Settled self.store.path :=
      settled_congr rfl rfl hsettled
    exact (FileStore.load_of_put_error hfacing hput).2.2

/-- **Puts that all fail leave the file as it was.** -/
theorem read_serveAll_of_taken_eq_nil {self : DiskStore} {requests : List PutRequest}
    (hsettled : self.disk.Settled self.store.path) (h : self.taken requests = []) :
    (self.serveAll requests).disk.Settled self.store.path ∧
      (self.serveAll requests).disk.read self.store.path = self.disk.read self.store.path ∧
      (self.serveAll requests).store = self.store := by
  induction requests generalizing self with
  | nil => exact ⟨hsettled, rfl, rfl⟩
  | cons request rest ih =>
    have hatomic := self.isAtomic request
    rw [taken] at h
    rw [serveAll, List.foldl_cons]
    cases hserve : self.serve request with
    | mk result later =>
      rw [hserve] at h
      cases result with
      | ok => exact absurd h (List.cons_ne_nil _ _)
      | error error =>
        obtain ⟨hstore, hread⟩ := hatomic.error error (by rw [hserve])
        rw [hserve] at hstore hread
        dsimp only at hstore hread h ⊢
        have hlater := settled_serve_error hsettled hserve
        rw [← hstore] at hlater
        obtain ⟨hlast, hsame, hkept⟩ := ih hlater h
        rw [hstore] at hlast hsame hkept
        exact ⟨hlast, hsame.trans (hread hsettled), hkept⟩

/-- **The file is what the last successful put left**: the entries, or whatever was written if its
write was lost. -/
theorem read_serveAll_of_getLast? {self : DiskStore} {requests : List PutRequest}
    {last : PutRequest} (h : (self.taken requests).getLast? = some last) :
    (self.serveAll requests).disk.Settled self.store.path ∧
      (self.serveAll requests).disk.read self.store.path =
        .ok ((last.lost? self.store.path).getD
          (Snapshot.ofEntries (self.serveAll requests).store.data).toBytes) := by
  induction requests generalizing self with
  | nil => exact absurd h (by simp [taken])
  | cons request rest ih =>
    have hatomic := self.isAtomic request
    rw [taken] at h
    rw [serveAll, List.foldl_cons]
    cases hserve : self.serve request with
    | mk result later =>
      rw [hserve] at h
      cases result with
      | error error =>
        have hstore := (hatomic.error error (by rw [hserve])).1
        rw [hserve] at hstore
        dsimp only at hstore
        rw [← hstore]
        exact ih h
      | ok =>
        obtain ⟨hstore, hread, -, -⟩ := hatomic.ok (by rw [hserve])
        rw [hserve] at hstore hread
        dsimp only at hstore hread h ⊢
        have hpath : self.store.path = later.store.path := by rw [hstore]
        rw [List.getLast?_cons] at h
        cases hlater : (later.taken rest).getLast? with
        | some newest =>
          rw [hlater] at h
          obtain rfl : newest = last := Option.some.inj h
          rw [hpath]
          exact ih hlater
        | none =>
          -- This put is the last one that succeeds, so nothing changes any more.
          rw [hlater] at h
          obtain rfl : request = last := Option.some.inj h
          have hsettled : later.disk.Settled later.store.path := hpath ▸ settled_of_read hread
          obtain ⟨hlast, hsame, hkept⟩ :=
            read_serveAll_of_taken_eq_nil hsettled (List.getLast?_eq_none_iff.1 hlater)
          rw [← hpath] at hlast hsame
          refine ⟨hlast, hsame.trans ?_⟩
          show _ = Except.ok ((request.lost? self.store.path).getD
            (Snapshot.ofEntries (later.serveAll rest).store.data).toBytes)
          rw [hkept, hstore]
          exact hread

/-- **Puts to a file are atomic and durable.** Let a store be opened at a path and puts be asked of
it, and let anything befall the disk during each of them. Then the store holds what the successful
puts left, and the next put is all or nothing.

If no put has succeeded yet and the path named one file when it was opened, the path names this
file, which is as it was, and opens as the store that is in memory. If a put has succeeded, the path
names one file. Unless the write of the last successful put was lost, this holds the entries that
are in memory and opens as the store; otherwise it holds what was written. -/
theorem puts_are_durable (disk : Disk) (path : Path) (store : FileStore)
    (hopen : FileStore.load disk path = .ok store) (requests : List PutRequest) :
    let opened : DiskStore := ⟨store, disk⟩
    let reached := opened.serveAll requests
    reached.store = ⟨path, replay store.data (opened.taken requests)⟩ ∧
      (∀ request, reached.IsAtomic request) ∧
      (disk.Settled path → opened.taken requests = [] →
        reached.disk.Settled path ∧ reached.disk.read path = disk.read path ∧
          FileStore.load reached.disk path = .ok reached.store) ∧
      ∀ last, (opened.taken requests).getLast? = some last →
        reached.disk.Settled path ∧
          reached.disk.read path =
            .ok ((last.lost? path).getD (Snapshot.ofEntries reached.store.data).toBytes) ∧
          (last.lost? path = none → FileStore.load reached.disk path = .ok reached.store) := by
  intro opened reached
  obtain rfl := FileStore.path_of_load hopen
  have hstore : reached.store = ⟨store.path, replay store.data (opened.taken requests)⟩ :=
    store_serveAll opened requests
  refine ⟨hstore, fun request => isAtomic _ request, fun hsettled hnone => ?_, fun last hlast => ?_⟩
  · obtain ⟨hlater, hread, hkept⟩ := @read_serveAll_of_taken_eq_nil opened _ hsettled hnone
    refine ⟨hlater, hread, ?_⟩
    rw [FileStore.load_congr hread, hopen, show reached.store = store from hkept]
  · obtain ⟨hlater, hread⟩ := @read_serveAll_of_getLast? opened _ _ hlast
    refine ⟨hlater, hread, fun hkept => ?_⟩
    rw [show last.lost? opened.store.path = none from hkept] at hread
    rw [FileStore.load_of_read hread, hstore]

/-! ### A write that is lost -/

/-- A store whose file does not exist yet. -/
def fresh : DiskStore := ⟨⟨"scope.json", ∅⟩, .blank []⟩

/-- A put of which nothing gets into the temporary file. It fails there, unless this is not said. -/
def broken (silent : Bool) (value : String) : PutRequest :=
  ⟨"x", value, [none, some { written := [], silent }]⟩

/-- Nothing at all is no snapshot. -/
theorem load_of_nothing {disk : Disk} {path : Path} (hread : disk.read path = .ok []) :
    FileStore.load disk path = .error (.serialization syntaxDetail) := by
  have hrefused : FileStore.entriesOfBytes path [] = .error (.serialization syntaxDetail) := by
    rw [FileStore.entriesOfBytes, Snapshot.ofBytes?, Json.ofBytes?, Utf8.symbols]
    rfl
  rw [FileStore.load_of_bytes hread, hrefused]
  rfl

/-- A put whose write is lost succeeds, and the store does not open any more. -/
theorem serve_broken (value : String) :
    (fresh.serve (broken true value)).1 = .ok () ∧
      FileStore.load (fresh.serve (broken true value)).2.disk "scope.json" =
        .error (.serialization syntaxDetail) := by
  have hsave (data : Ledger String) : (FileStore.save ⟨"scope.json", ∅⟩ data
      { Disk.blank [] with hazards := [none, some { written := [], silent := true }] }).1 =
        .ok () := by
    rw [FileStore.save, FileStore.writingSteps]
    -- It does not matter what was to be written.
    generalize (Snapshot.ofEntries data).toBytes = bytes
    rfl
  have hok : (fresh.serve (broken true value)).1 = .ok () := by
    show (fresh.store.put (fresh.facing (broken true value)).disk "x" value).1 = .ok ()
    rw [FileStore.put]
    split
    · rfl
    · next error later herror =>
      have hfirst := (congrArg Prod.fst herror).symm.trans (hsave _)
      exact absurd hfirst (by simp)
  exact ⟨hok, load_of_nothing ((fresh.isAtomic (broken true value)).ok hok).2.1⟩

/-- The first put fails when it has made the temporary file. The second one succeeds although
nothing got into that file, and the third one puts all in order again. -/
theorem puts_are_durable_after_failure :
    FileStore.load fresh.disk "scope.json" = .ok fresh.store ∧
      let requests := [broken false "a", broken true "b", ⟨"y", "c", []⟩]
      fresh.taken requests = [broken true "b", ⟨"y", "c", []⟩] ∧
        (fresh.serveAll (requests.take 2)).disk.read "scope.json" = .ok [] ∧
        (fresh.serveAll requests).store =
          ⟨"scope.json", ((∅ : Ledger String).insert "x" "b").insert "y" "c"⟩ ∧
        FileStore.load (fresh.serveAll requests).disk "scope.json" =
          .ok (fresh.serveAll requests).store := by
  have hopen : FileStore.load fresh.disk "scope.json" = .ok fresh.store := rfl
  have htaken : fresh.taken [broken false "a", broken true "b", ⟨"y", "c", []⟩] =
      [broken true "b", ⟨"y", "c", []⟩] := rfl
  have hbegun : fresh.taken [broken false "a", broken true "b"] = [broken true "b"] := rfl
  obtain ⟨-, -, -, hread⟩ := puts_are_durable _ _ _ hopen [broken false "a", broken true "b"]
  obtain ⟨hstore, -, -, hlast⟩ := puts_are_durable _ _ _ hopen
    [broken false "a", broken true "b", ⟨"y", "c", []⟩]
  exact ⟨hopen, htaken, (hread (broken true "b") (congrArg List.getLast? hbegun)).2.1,
    hstore.trans (congrArg (fun taken => FileStore.mk "scope.json" (replay ∅ taken)) htaken),
    (hlast ⟨"y", "c", []⟩ (congrArg List.getLast? htaken)).2.2 rfl⟩

/-- **A put may succeed and not be in the file**, if its write was lost: the store then does not
open any more. -/
theorem not_durable_after_lost_write :
    ¬ ∀ (disk : Disk) (path : Path) (store : FileStore) (request : PutRequest),
      FileStore.load disk path = .ok store →
      ((⟨store, disk⟩ : DiskStore).serve request).1 = .ok () →
      FileStore.load ((⟨store, disk⟩ : DiskStore).serve request).2.disk path =
        .ok ((⟨store, disk⟩ : DiskStore).serve request).2.store := by
  intro h
  obtain ⟨hok, hrefused⟩ := serve_broken "b"
  have hload : FileStore.load (fresh.serve (broken true "b")).2.disk "scope.json" =
      .ok (fresh.serve (broken true "b")).2.store :=
    h fresh.disk "scope.json" fresh.store (broken true "b") rfl hok
  rw [hrefused] at hload
  exact absurd hload (by simp)

end DiskStore

/-! ### A path that changes its file -/

namespace Rerouted

/-- A path into a folder, out of it again, and to a file beside it. -/
def path : Path := "gone/../b"

/-- A disk on which that folder is missing and that file is there; the second operation fails. -/
def disk (content : Bytes) : Disk :=
  ⟨(∅ : Ledger Node).insert "/b" (.file content), [], [none, some { written := [] }], []⟩

theorem fileName?_path : path.fileName? = some "b" := by decide

theorem dropLast_parts_path : path.parts.dropLast = ["gone", ".."] := by decide

theorem nodeAt?_gone (content : Bytes) : nodeAt? (disk content).nodes ["gone"] = none := by
  rw [nodeAt?_eq_get? (by simp)]
  exact Ledger.get?_insert_of_ne _ _ (by decide)

/-- Nothing is found at the path as long as the folder is missing. -/
theorem read_disk (content : Bytes) : (disk content).read path = .error .missing := by
  have hfollow : follow? (disk content).nodes [] ["gone", ".."] = .error .missing := by
    rw [follow?, if_neg (by decide), List.nil_append, nodeAt?_gone]
  have hlocate : (disk content).locate? path = .error .missing := by
    rw [locate?, fileName?_path]
    dsimp only
    rw [dropLast_parts_path]
    show (follow? (disk content).nodes [] ["gone", ".."]).map _ = _
    rw [hfollow]
    rfl
  rw [Disk.read, node?, hlocate]
  rfl

theorem load_disk (content : Bytes) : FileStore.load (disk content) path = .ok ⟨path, ∅⟩ := by
  rw [FileStore.load, read_disk]

/-- A put makes the folder and then fails. -/
theorem put_disk (content : Bytes) (key value : String) :
    ∃ later : Disk, later.nodes = (disk content).nodes.insert (place ["gone"]) .folder ∧
      later.here = [] ∧
      FileStore.put ⟨path, ∅⟩ (disk content) key value =
        (.error FileStore.ioError, ⟨path, ∅⟩, later) := by
  have hmade : makeFolders? (disk content).nodes [] ["gone", ".."] =
      .ok ((disk content).nodes.insert (place ["gone"]) .folder) := by
    rw [makeFolders?, if_neg (by decide), List.nil_append, nodeAt?_gone]
    rfl
  have hsteps : FileStore.folderSteps path =
      [.makeFolders ⟨"gone/../b", false, ["gone", ".."], true⟩] := by decide
  have hfirst : (disk content).performAll (FileStore.folderSteps path) =
      (.ok (), ⟨(disk content).nodes.insert (place ["gone"]) .folder, [], [some { written := [] }],
        [.makeFolders ⟨"gone/../b", false, ["gone", ".."], true⟩]⟩) := by
    have hafter : (disk content).after? (.makeFolders
        ⟨"gone/../b", false, ["gone", ".."], true⟩) =
        .ok ((disk content).nodes.insert (place ["gone"]) .folder) := hmade
    rw [hsteps, performAll, perform_eq_ok (by simp [disk]) hafter]
    rfl
  refine ⟨⟨(disk content).nodes.insert (place ["gone"]) .folder, [], [],
        [.makeFolders ⟨"gone/../b", false, ["gone", ".."], true⟩]⟩, rfl, rfl, ?_⟩
  rw [FileStore.put, FileStore.save, FileStore.writingSteps_eq, performAll_append]
  dsimp only
  rw [hfirst]
  rfl

/-- Once the folder is there, the path leads to the file. -/
theorem read_later {content : Bytes} {later : Disk}
    (hnodes : later.nodes = (disk content).nodes.insert (place ["gone"]) .folder)
    (hhere : later.here = []) : later.read path = .ok content := by
  have hgone : nodeAt? later.nodes ["gone"] = some .folder := by
    rw [nodeAt?_eq_get? (by simp), hnodes]
    exact Ledger.get?_insert_self _ _ _
  have hfollow : follow? later.nodes [] ["gone", ".."] = .ok [] := by
    rw [follow?, if_neg (by decide), List.nil_append, hgone]
    rfl
  have hlocate : later.locate? path = .ok ["b"] := by
    rw [locate?, fileName?_path, dropLast_parts_path, Disk.start, hhere]
    show (follow? later.nodes [] ["gone", ".."]).map _ = _
    rw [hfollow]
    rfl
  refine read_of_get? hlocate (by simp) (by decide) ?_
  rw [hnodes, Ledger.get?_insert_of_ne _ _ (by decide)]
  exact Ledger.get?_insert_self _ _ _

end Rerouted

/-- **A put that fails may put another file under the path**, if the path leads through a missing
folder and out of it again: nothing is to be read before, and that file afterwards. -/
theorem DiskStore.not_atomic_through_missing_folder :
    ¬ ∀ (disk : Disk) (path : Path) (store : FileStore) (request : PutRequest)
      (error : StoreError),
      FileStore.load disk path = .ok store →
      ((⟨store, disk⟩ : DiskStore).serve request).1 = .error error →
      ((⟨store, disk⟩ : DiskStore).serve request).2.disk.read path = disk.read path := by
  intro h
  let request : PutRequest := ⟨"x", "v", [none, some { written := [] }]⟩
  obtain ⟨later, hnodes, hhere, hput⟩ := Rerouted.put_disk [] "x" "v"
  have hserve : (⟨⟨Rerouted.path, ∅⟩, Rerouted.disk []⟩ : DiskStore).serve request =
      (.error FileStore.ioError, ⟨⟨Rerouted.path, ∅⟩, later⟩) := by
    show DiskStore.put ⟨⟨Rerouted.path, ∅⟩, Rerouted.disk []⟩ "x" "v" = _
    rw [DiskStore.put, hput]
  have hsame := h _ _ _ request FileStore.ioError (Rerouted.load_disk []) (by rw [hserve])
  rw [hserve] at hsame
  dsimp only at hsame
  rw [Rerouted.read_later hnodes hhere, Rerouted.read_disk] at hsame
  exact absurd hsame (by simp)

end DeviceScope
