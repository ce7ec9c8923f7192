import DeviceScope.Proofs.Store.Fallible
import DeviceScope.Proofs.Store.File

/-!
# Disks on which a store can be saved

A save is a row of operations, each of which can fail for reasons of its own. On a disk to which
nothing happens, with folders or room for them on the way to the file and no folder in the place of
the file or of the temporary file beside it (`Disk.Works`), none of them does
(`Disk.Works.save`), and the disk stays such a disk. So all puts succeed (`DiskStore.reliable`).
-/

namespace DeviceScope

open Disk FileStore

namespace Disk

/-- No trouble is to come. -/
def Calm (disk : Disk) : Prop := ∀ hazard ∈ disk.hazards, hazard = none

/-- A file can be at a path: the path leads to a place, and no folder is there. -/
structure HasRoom (disk : Disk) (path : Path) (names : List String) : Prop where
  located : disk.locate? path = .ok names
  below : names ≠ []
  named : path.closed = false
  free : disk.nodes.get? (place names) ≠ some .folder

/-- **The disk works**, as far as the store at a path is concerned: no trouble is to come, the
folders on the way to the file are there or can be made, and in them there is room for the file and
for the temporary file. -/
structure Works (disk : Disk) (path : Path) : Prop where
  calm : disk.Calm
  folders : ∃ nodes, makeFolders? disk.nodes (disk.start path) path.parts.dropLast = .ok nodes
  file : ∃ names, (withAllFolders disk path).HasRoom path names
  beside : ∃ other, (withAllFolders disk path).HasRoom path.temporary other

variable {disk before mid later : Disk} {path : Path} {names other : List String}

/-- Where no trouble is to come, none comes without saying so. -/
theorem Calm.reports (h : disk.Calm) : Reports disk.hazards := by
  intro hazard hmem
  exact absurd (h (some hazard) hmem) (by simp)

/-! ### Operations that succeed -/

/-- An operation that nothing stands in the way of is done, and all stays calm. -/
theorem Calm.perform (h : disk.Calm) {operation : Operation} {nodes : Ledger Node}
    (hafter : disk.after? operation = .ok nodes) :
    ∃ later, disk.perform operation = (.ok (), later) ∧ later.nodes = nodes ∧
      later.here = disk.here ∧ later.Calm := by
  have hsafe : ∀ hazard rest, disk.hazards ≠ some hazard :: rest := by
    intro hazard rest heq
    exact absurd (h (some hazard) (heq ▸ List.mem_cons_self)) (by simp)
  refine ⟨_, perform_eq_ok hsafe hafter, rfl, rfl, ?_⟩
  intro hazard hmem
  exact h hazard (List.mem_of_mem_tail hmem)

/-- What an operation finds where a file can be. -/
theorem HasRoom.fileSpot? (h : disk.HasRoom path names) (content : Option Bytes)
    (hget : disk.nodes.get? (place names) = content.map Node.file) :
    disk.fileSpot? path = .ok (place names, content) := by
  rw [Disk.fileSpot?, h.located]
  dsimp only [bind, Except.bind]
  rw [nodeAt?_eq_get? h.below, hget]
  cases content with
  | none => exact if_neg (by rw [h.named]; decide)
  | some bytes => exact if_neg (by rw [h.named]; decide)

/-- A file that is there is read. -/
theorem HasRoom.read (h : disk.HasRoom path names) {content : Bytes}
    (hget : disk.nodes.get? (place names) = some (.file content)) :
    disk.read path = .ok content := by
  rw [Disk.read, node?, h.located]
  dsimp only [bind, Except.bind]
  rw [nodeAt?_eq_get? h.below, hget]
  dsimp only
  rw [if_neg (by rw [h.named]; decide)]

/-- There may be a file already, or not. -/
theorem HasRoom.exists_fileSpot? (h : disk.HasRoom path names) :
    ∃ content, disk.fileSpot? path = .ok (place names, content) := by
  cases hget : disk.nodes.get? (place names) with
  | none => exact ⟨none, h.fileSpot? none hget⟩
  | some node =>
    cases node with
    | folder => exact absurd hget h.free
    | file bytes => exact ⟨some bytes, h.fileSpot? (some bytes) hget⟩

/-- There is room as long as only files come and go. -/
theorem HasRoom.of_sameBut (h : disk.HasRoom path names) (hhere : later.here = disk.here)
    {spot : String} (hsame : SameBut spot disk.nodes later.nodes) : later.HasRoom path names := by
  refine ⟨locate?_of_keeps hhere hsame.keeps h.located, h.below, h.named, ?_⟩
  rcases hsame (place names) with hget | ⟨-, -, hne⟩
  · rw [hget]
    exact h.free
  · exact hne

theorem HasRoom.congr (h : disk.HasRoom path names) (hhere : later.here = disk.here)
    (hnodes : later.nodes = disk.nodes) : later.HasRoom path names := by
  have hsame : SameBut (place names) disk.nodes later.nodes := by
    rw [hnodes]
    exact .refl _ _
  exact h.of_sameBut hhere hsame

/-- There is room still when the file has been written. -/
theorem HasRoom.of_insert (h : disk.HasRoom path names) (hhere : later.here = disk.here)
    {content : Bytes} (hnodes : later.nodes = disk.nodes.insert (place names) (.file content)) :
    later.HasRoom path names ∧ later.nodes.get? (place names) = some (.file content) := by
  have hsame : SameBut (place names) disk.nodes later.nodes := by
    rw [hnodes]
    exact .insert content h.free
  refine ⟨h.of_sameBut hhere hsame, ?_⟩
  rw [hnodes]
  exact Ledger.get?_insert_self _ _ _

/-! ### The steps of a save -/

/-- The folders are made, if there are any to make. -/
theorem Works.folderSteps (h : before.Works path) :
    ∃ mid, before.performAll (folderSteps path) = (.ok (), mid) ∧ mid.Calm := by
  rcases folderSteps_cases path with ⟨hsteps, -⟩ | ⟨folder, hsteps, hparts, habsolute⟩
  · rw [hsteps]
    exact ⟨before, rfl, h.calm⟩
  · obtain ⟨nodes, hnodes⟩ := h.folders
    have hafter : before.after? (.makeFolders folder) = .ok nodes := by
      have hstart : before.start folder = before.start path := by rw [start, start, habsolute]
      rw [after?, hstart, hparts, hnodes]
    obtain ⟨mid, hmid, -, -, hcalm⟩ := h.calm.perform hafter
    rw [hsteps, performAll_cons_of_perform hmid]
    exact ⟨mid, rfl, hcalm⟩

/-- The temporary file is made, written, and safe. -/
theorem HasRoom.fileSteps (h : mid.HasRoom path.temporary other) (hcalm : mid.Calm)
    (data : Ledger String) :
    ∃ later, mid.performAll (fileSteps path data) = (.ok (), later) ∧ later.Calm := by
  obtain ⟨old, hspot⟩ := h.exists_fileSpot?
  have hcreate : mid.after? (.create path.temporary) =
      .ok (mid.nodes.insert (place other) (.file [])) := by
    rw [after?, hspot]
    rfl
  obtain ⟨created, hcreated, hnodes, hhere, hcalm⟩ := hcalm.perform hcreate
  -- From here on the file is there.
  obtain ⟨hroom, hempty⟩ := h.of_insert hhere hnodes
  have hwrite : created.after? (.write path.temporary (Snapshot.ofEntries data).toBytes) =
      .ok (created.nodes.insert (place other) (.file (Snapshot.ofEntries data).toBytes)) := by
    rw [after?, hroom.fileSpot? (some []) hempty]
    rfl
  obtain ⟨written, hwritten, hnodes', hhere', hcalm⟩ := hcalm.perform hwrite
  obtain ⟨hroom, hfull⟩ := hroom.of_insert hhere' hnodes'
  have hsync : written.after? (.sync path.temporary) = .ok written.nodes := by
    rw [after?, hroom.fileSpot? (some _) hfull]
    rfl
  obtain ⟨synced, hsynced, -, -, hcalm⟩ := hcalm.perform hsync
  refine ⟨synced, ?_, hcalm⟩
  rw [FileStore.fileSteps, performAll_cons_of_perform hcreated,
    performAll_cons_of_perform hwritten, performAll_cons_of_perform hsynced]
  rfl

/-- All up to the temporary file is done, and there is still room for the file. -/
theorem Works.writingSteps {store : FileStore} (h : before.Works store.path)
    (data : Ledger String) :
    ∃ written, before.performAll (store.writingSteps data) = (.ok (), written) ∧ written.Calm := by
  obtain ⟨mid, hmid, hcalm⟩ := h.folderSteps
  obtain ⟨hhere, -, -, -, hnodes⟩ := (unsaved_of_folderSteps store.path before).2 mid hmid
  obtain ⟨other, hroom⟩ := h.beside
  obtain ⟨written, hwritten, hcalm⟩ := (hroom.congr hhere hnodes).fileSteps hcalm data
  rw [writingSteps_eq, performAll_append, hmid]
  exact ⟨written, hwritten, hcalm⟩

/-- Where the file is new and no temporary file is left, the next save finds the folders and room.
-/
theorem Calm.works_of_saved {content : Bytes} (hcalm : later.Calm)
    (h : Saved path content before later names other) : later.Works path := by
  obtain ⟨folder, hfolder⟩ := h.furnished.reach
  -- No folder is missing, so none is to be made.
  have hsame : withAllFolders later path = later :=
    congrArg (fun nodes => { later with nodes }) (foldersMade_of_follow? hfolder _)
  refine ⟨hcalm, ⟨_, makeFolders?_of_follow? hfolder⟩, ⟨names, ?_⟩, ⟨other, ?_⟩⟩
  · rw [hsame]
    exact ⟨h.furnished.file, h.spots.1, h.spots.2.2, by rw [h.file]; simp⟩
  · rw [hsame]
    exact ⟨h.furnished.beside, h.spots.2.1, rfl, by rw [h.gone]; simp⟩

/-- **On a disk that works a save succeeds**, and the disk still works. -/
theorem Works.save {store : FileStore} (h : before.Works store.path) (data : Ledger String) :
    ∃ later, store.save data before = (.ok (), later) ∧ later.Works store.path := by
  obtain ⟨written, hwritten, hcalm⟩ := h.writingSteps data
  obtain ⟨names, other, hmade, hhere, hsame, hcontent⟩ := written_of_writingSteps hwritten
  obtain ⟨found, hfile⟩ := h.file
  obtain ⟨found', hbeside⟩ := h.beside
  obtain rfl := Except.ok.inj (hfile.located.symm.trans hmade.file)
  obtain rfl := Except.ok.inj (hbeside.located.symm.trans hmade.beside)
  obtain ⟨old, hgoal⟩ := (hfile.of_sameBut hhere hsame).exists_fileSpot?
  have hspot := (hbeside.of_sameBut hhere hsame).fileSpot? (some _) hcontent
  have hrename : written.after? (.rename store.path.temporary store.path) =
      .ok ((written.nodes.erase (place found')).insert (place found)
        (.file (contentAfter store.path before.hazards data))) := by
    rw [after?, hspot]
    dsimp only [bind, Except.bind]
    rw [hgoal]
  obtain ⟨later, hlater, -, -, hcalm⟩ := hcalm.perform hrename
  have hsave : store.save data before = (.ok (), later) := by
    rw [FileStore.save, hwritten]
    dsimp only
    rw [hlater]
  obtain ⟨⟨names, other, hsaved⟩, -⟩ := saved_of_save_ok hsave
  exact ⟨later, hsave, hcalm.works_of_saved hsaved⟩

/-- **On a disk that works a put succeeds.** -/
theorem Works.put {store : FileStore} (h : disk.Works store.path) (key value : String) :
    ∃ later, store.put disk key value =
      (.ok (), ⟨store.path, store.data.insert key value⟩, later) ∧ later.Works store.path := by
  obtain ⟨later, hsave, hworks⟩ := h.save (store.data.insert key value)
  refine ⟨later, ?_, hworks⟩
  rw [FileStore.put, hsave]

end Disk

/-- **A store in a file is reliable** on a disk that works. -/
theorem DiskStore.reliable {filed : DiskStore} (h : filed.disk.Works filed.store.path) :
    KeyValueStore.Reliable filed := by
  refine .of_invariant (P := fun filed : DiskStore => filed.disk.Works filed.store.path) h ?_
  intro filed key value hworks
  obtain ⟨later, hput, hlater⟩ := hworks.put key value
  show (filed.put key value).1 = .ok () ∧
    (filed.put key value).2.disk.Works (filed.put key value).2.store.path
  rw [DiskStore.put, hput]
  exact ⟨rfl, hlater⟩

end DeviceScope
