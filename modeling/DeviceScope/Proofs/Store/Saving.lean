import DeviceScope.Proofs.Disk.Operation
import DeviceScope.Proofs.Disk.Settled
import DeviceScope.Store.File

/-!
# How a store is saved

A save goes through a row of disks (`FileStore.whileSaving`). On all of them but the last the file
is as it was (`FileStore.Unsaved`): the folders around it are made, and the temporary file beside it
is written. If the save takes place the last disk is one on which the file is new and the temporary
file is gone (`FileStore.Saved`). What a save does is read off these two.

A save that takes place goes by what is reported, so the file then holds what was really written to
the temporary file (`FileStore.contentAfter`). On a disk on which no write fails without saying so
(`Disk.Reports`) that is what was to be written.
-/

namespace DeviceScope

open Disk

namespace Disk

/-- No write to come fails without saying so. -/
def Reports (hazards : List (Option Hazard)) : Prop :=
  ∀ hazard, some hazard ∈ hazards → hazard.silent = false

theorem Reports.drop {hazards : List (Option Hazard)} (h : Reports hazards) (count : Nat) :
    Reports (hazards.drop count) :=
  fun hazard hmem => h hazard (List.mem_of_mem_drop hmem)

/-- Then what is reported as written is written. -/
theorem Reports.lost?_eq_none {hazards : List (Option Hazard)} (h : Reports hazards) :
    lost? hazards = none := by
  match hazards with
  | [] | none :: _ => rfl
  | some hazard :: rest =>
    rw [lost?, h hazard List.mem_cons_self]
    exact if_neg (by decide)

/-- A path leads to a place, at which something may stand or not. -/
def LeadsTo (disk : Disk) (path : Path) (key : String) : Prop :=
  ∃ names, disk.locate? path = .ok names ∧ key = place names

/-- The folders on the way to a file are there, and the file is at one place and the temporary file
beside it at another. -/
structure Furnished (disk : Disk) (path : Path) (names other : List String) : Prop where
  reach : ∃ folder, follow? disk.nodes (disk.start path) path.parts.dropLast = .ok folder
  file : disk.locate? path = .ok names
  beside : disk.locate? path.temporary = .ok other
  ne : place names ≠ place other

theorem furnished_of_follow? {disk : Disk} {path : Path} {folder : List String}
    (h : follow? disk.nodes (disk.start path) path.parts.dropLast = .ok folder) :
    ∃ names other, disk.Furnished path names other := by
  obtain ⟨names, hnames⟩ := locate?_of_follow? h
  obtain ⟨other, hother, hne⟩ := locate?_temporary hnames
  exact ⟨names, other, ⟨folder, h⟩, hnames, hother, hne⟩

theorem Furnished.of_keeps {disk later : Disk} {path : Path} {names other : List String}
    (h : disk.Furnished path names other) (hhere : later.here = disk.here)
    (hkeeps : Keeps disk.nodes later.nodes) : later.Furnished path names other := by
  obtain ⟨folder, hfolder⟩ := h.reach
  refine ⟨⟨folder, ?_⟩, locate?_of_keeps hhere hkeeps h.file,
    locate?_of_keeps hhere hkeeps h.beside, h.ne⟩
  rw [start_congr hhere path]
  exact follow?_of_keeps hkeeps hfolder

theorem Furnished.settled {disk : Disk} {path : Path} {names other : List String}
    (h : disk.Furnished path names other) : disk.Settled path :=
  settled_of_locate? h.file

end Disk

namespace FileStore

/-! ### The disks of a save -/

/-- The disks that a save goes through. -/
def whileSaving (store : FileStore) (data : Ledger String) (disk : Disk) : List Disk :=
  disk.states (store.writingSteps data) ++
    match disk.performAll (store.writingSteps data) with
    | (.error _, _) => []
    | (.ok (), written) =>
      match written.perform (.rename store.path.temporary store.path) with
      | (.ok (), moved) => [moved]
      | (.error _, refused) => [refused, (refused.perform (.remove store.path.temporary)).2]

/-- The last of the disks is the one that the save leaves. -/
theorem getLast?_whileSaving (store : FileStore) (data : Ledger String) (disk : Disk) :
    (store.whileSaving data disk).getLast? = some (store.save data disk).2 := by
  have hlast := getLast?_states disk (store.writingSteps data)
  rw [whileSaving, save]
  -- The save stops where an operation fails, and so does the row.
  cases hwritten : disk.performAll (store.writingSteps data) with
  | mk result written =>
    rw [hwritten] at hlast
    cases result with
    | error fault => rwa [List.append_nil]
    | ok =>
      dsimp only
      rw [List.getLast?_append]
      cases written.perform (.rename store.path.temporary store.path) with
      | mk result moved =>
        cases result with
        | ok => rfl
        | error fault => rfl

theorem save_mem_whileSaving {store : FileStore} {data : Ledger String} {disk later : Disk}
    {result : Except StoreError Unit} (h : store.save data disk = (result, later)) :
    later ∈ store.whileSaving data disk := by
  have hlast := getLast?_whileSaving store data disk
  rw [h] at hlast
  exact List.mem_of_getLast? hlast

/-- A save takes hazards off the front. -/
theorem exists_hazards_save (store : FileStore) (data : Ledger String) (disk : Disk) :
    ∃ count, (store.save data disk).2.hazards = disk.hazards.drop count := by
  obtain ⟨count, hcount⟩ := exists_hazards_performAll disk (store.writingSteps data)
  rw [save]
  split
  · next fault written hwritten =>
    rw [hwritten] at hcount
    exact ⟨count, hcount⟩
  · next written hwritten =>
    rw [hwritten] at hcount
    have hmoved := hazards_perform written (.rename store.path.temporary store.path)
    rw [hcount, List.tail_drop] at hmoved
    split
    · next moved hmove =>
      rw [hmove] at hmoved
      exact ⟨count + 1, hmoved⟩
    · next fault moved hmove =>
      rw [hmove] at hmoved
      refine ⟨count + 1 + 1, ?_⟩
      rw [hazards_perform, hmoved, List.tail_drop]

/-! ### The steps of a save -/

def folderSteps (path : Path) : List Operation :=
  (path.parent?.filter fun folder => !folder.isHere).toList.map .makeFolders

/-- The steps that write the temporary file. -/
def fileSteps (path : Path) (data : Ledger String) : List Operation :=
  [.create path.temporary, .write path.temporary (Snapshot.ofEntries data).toBytes,
    .sync path.temporary]

/-- What the write of the temporary file leaves if it fails without saying so: the file is written
once the folders are made and it is there. -/
def lostWrite? (path : Path) (hazards : List (Option Hazard)) : Option Bytes :=
  lost? (hazards.drop ((folderSteps path).length + 1))

/-- What is in the file after a save that is reported as done, if these hazards are to come. -/
def contentAfter (path : Path) (hazards : List (Option Hazard)) (data : Ledger String) : Bytes :=
  (lostWrite? path hazards).getD (Snapshot.ofEntries data).toBytes

theorem lostWrite?_of_reports {hazards : List (Option Hazard)} (h : Reports hazards)
    (path : Path) : lostWrite? path hazards = none :=
  (h.drop _).lost?_eq_none

theorem writingSteps_eq (store : FileStore) (data : Ledger String) :
    store.writingSteps data = folderSteps store.path ++ fileSteps store.path data := rfl

theorem isOn_of_mem_fileSteps {path : Path} {data : Ledger String} :
    ∀ operation ∈ fileSteps path data, operation.IsOn path.temporary := by
  intro operation hmem
  simp only [fileSteps, List.mem_cons, List.not_mem_nil, or_false] at hmem
  rcases hmem with rfl | rfl | rfl <;> rfl

/-- There are folders to make unless the file is in the root or in the working folder. -/
theorem folderSteps_cases (path : Path) :
    (folderSteps path = [] ∧ path.parts.dropLast = []) ∨
      ∃ folder, folderSteps path = [.makeFolders folder] ∧
        folder.parts = path.parts.dropLast ∧ folder.absolute = path.absolute := by
  rw [folderSteps, Path.parent?]
  split
  · next hempty =>
    refine .inl ⟨rfl, ?_⟩
    rw [List.isEmpty_iff.1 hempty]
    rfl
  · next hne =>
    by_cases hhere : Path.isHere { path with parts := path.parts.dropLast, closed := true } = true
    · refine .inl ⟨?_, ?_⟩
      · rw [Option.filter_some, if_neg (by rw [hhere]; decide)]
        rfl
      · rw [Path.isHere, Bool.and_eq_true] at hhere
        exact List.isEmpty_iff.1 hhere.2
    · refine .inr ⟨{ path with parts := path.parts.dropLast, closed := true }, ?_, rfl, rfl⟩
      rw [Option.filter_some, if_pos (by simpa using hhere)]
      rfl

/-! ### A file that is not written yet -/

/-- The disk on which all the folders around a file are made. -/
def withAllFolders (disk : Disk) (path : Path) : Disk := disk.withFolders path path.parts.length

theorem nodes_withAllFolders (disk : Disk) (path : Path) :
    (withAllFolders disk path).nodes =
      foldersMade disk.nodes (disk.start path) path.parts.dropLast := by
  show foldersMade _ _ (path.parts.dropLast.take path.parts.length) = _
  rw [List.take_of_length_le (by rw [List.length_dropLast]; omega)]

/-- How far a save has come before the file is new. -/
inductive Unsaved (path : Path) (before now : Disk) : Prop
  /-- The folders are made, up to some name. -/
  | making (count : Nat) (here : now.here = before.here)
      (nodes : now.nodes = (before.withFolders path count).nodes)
  /-- The folders are made, and only the temporary file has changed. -/
  | writing (names other : List String)
      (made : (withAllFolders before path).Furnished path names other)
      (here : now.here = before.here)
      (same : SameBut (place other) (withAllFolders before path).nodes now.nodes)

variable {store : FileStore} {path : Path} {data : Ledger String} {content : Bytes}
  {before mid now later : Disk}

/-- The path reads as it does with the first few folders made. -/
theorem Unsaved.read (h : Unsaved path before now) :
    ∃ count, now.read path = (before.withFolders path count).read path := by
  cases h with
  | making count here nodes => exact ⟨count, read_congr path nodes here⟩
  | writing names other made here same =>
    have hsame : now.read path = (withAllFolders before path).read path :=
      read_of_sameBut here same made.file made.ne
    exact ⟨path.parts.length, hsame⟩

theorem Unsaved.read_of_settled (h : Unsaved path before now) (hsettled : before.Settled path) :
    now.read path = before.read path := by
  obtain ⟨count, hread⟩ := h.read
  exact hread.trans (hsettled count)

/-- Beside the temporary file only folders are new. -/
theorem Unsaved.elsewhere (h : Unsaved path before now) (key : String) :
    now.nodes.get? key = before.nodes.get? key ∨
      (before.nodes.get? key = none ∧ now.nodes.get? key = some .folder) ∨
        now.LeadsTo path.temporary key := by
  cases h with
  | making count here nodes =>
    rw [nodes]
    exact (adds_foldersMade _ _ _ key).imp_right .inl
  | writing names other made here same =>
    rcases same key with hkey | ⟨rfl, -⟩
    · rw [hkey]
      exact (adds_foldersMade _ _ _ key).imp_right .inl
    · exact .inr (.inr ⟨other, (made.of_keeps here same.keeps).beside, rfl⟩)

theorem Unsaved.settled (h : Unsaved path before now) (hsettled : before.Settled path) :
    now.Settled path := by
  cases h with
  | making count here nodes => exact settled_congr nodes here (hsettled.withFolders count)
  | writing names other made here same => exact (made.of_keeps here same.keeps).settled

/-- The folders were made as far as they could be. -/
theorem unsaved_of_makeFolders {folder : Path} {result : Except FileFault Unit}
    (hparts : folder.parts = path.parts.dropLast) (habsolute : folder.absolute = path.absolute)
    (h : before.perform (.makeFolders folder) = (result, now)) :
    Unsaved path before now ∧
      (result = .ok () → ∃ names other, (withAllFolders before path).Furnished path names other ∧
        now.nodes = (withAllFolders before path).nodes) := by
  have hstart : before.start folder = before.start path := by rw [start, start, habsolute]
  -- If this failed the folders are there up to some name, and otherwise all of them.
  cases result with
  | error fault =>
    obtain ⟨count, hnodes⟩ := nodes_of_makeFolders_error h
    rw [hstart, hparts] at hnodes
    exact ⟨.making count (here_of_perform h) hnodes, fun heq => absurd heq (by simp)⟩
  | ok =>
    have hmade : makeFolders? before.nodes (before.start path) path.parts.dropLast =
        .ok now.nodes := by
      have hafter : before.after? (.makeFolders folder) = .ok now.nodes := after?_of_perform h
      rwa [after?, hstart, hparts] at hafter
    have hnodes : now.nodes = (withAllFolders before path).nodes := by
      rw [nodes_withAllFolders, foldersMade_of_makeFolders? hmade]
    obtain ⟨-, folder, hfolder⟩ := makeFolders?_spec hmade
    obtain ⟨names, other, hfurnished⟩ : ∃ names other,
        (withAllFolders before path).Furnished path names other :=
      furnished_of_follow? (hnodes ▸ hfolder)
    exact ⟨.making _ (here_of_perform h) hnodes, fun _ => ⟨names, other, hfurnished, hnodes⟩⟩

/-- **The folders are made first**, all of them or up to some name. -/
theorem unsaved_of_folderSteps (path : Path) (before : Disk) :
    (∀ now ∈ before.states (folderSteps path), Unsaved path before now) ∧
      ∀ mid, before.performAll (folderSteps path) = (.ok (), mid) → mid.here = before.here ∧
        ∃ names other, (withAllFolders before path).Furnished path names other ∧
          mid.nodes = (withAllFolders before path).nodes := by
  have hfirst : Unsaved path before before := .making 0 rfl rfl
  rcases folderSteps_cases path with ⟨hsteps, hparts⟩ | ⟨folder, hsteps, hparts, habsolute⟩
  · rw [hsteps]
    refine ⟨fun now hnow => ?_, fun mid hmid => ?_⟩
    · obtain rfl := List.mem_singleton.1 hnow
      exact hfirst
    · -- No folder is to be made.
      obtain ⟨-, rfl⟩ := Prod.mk.inj hmid
      have hnodes : before.nodes = (withAllFolders before path).nodes := by
        rw [nodes_withAllFolders, hparts, foldersMade]
      have hfollow : follow? (withAllFolders before path).nodes
          ((withAllFolders before path).start path) path.parts.dropLast =
            .ok (before.start path) := by
        rw [hparts]
        rfl
      obtain ⟨names, other, hfurnished⟩ := furnished_of_follow? hfollow
      exact ⟨rfl, names, other, hfurnished, hnodes⟩
  · -- Making them is one operation, so there is one disk before it and one after it.
    rw [hsteps, states, performAll]
    cases hmade : before.perform (.makeFolders folder) with
    | mk result next =>
      obtain ⟨hunsaved, hok⟩ := unsaved_of_makeFolders hparts habsolute hmade
      cases result with
      | error fault =>
        refine ⟨fun now hnow => ?_, fun mid hmid => absurd (Prod.mk.inj hmid).1 (by simp)⟩
        rcases List.mem_cons.1 hnow with rfl | hnow
        · exact hfirst
        · obtain rfl := List.mem_singleton.1 hnow
          exact hunsaved
      | ok =>
        refine ⟨fun now hnow => ?_, fun mid hmid => ?_⟩
        · rcases List.mem_cons.1 hnow with rfl | hnow
          · exact hfirst
          · obtain rfl := List.mem_singleton.1 hnow
            exact hunsaved
        · obtain ⟨-, rfl⟩ := Prod.mk.inj hmid
          exact ⟨here_of_perform hmade, hok rfl⟩

/-- Then the temporary file is written. -/
theorem sameBut_of_fileSteps {names other : List String} (hhere : mid.here = before.here)
    (hmade : (withAllFolders before path).Furnished path names other)
    (hnodes : mid.nodes = (withAllFolders before path).nodes)
    (h : now ∈ mid.states (fileSteps path data)) :
    now.here = before.here ∧
      SameBut (place other) (withAllFolders before path).nodes now.nodes := by
  have hmid : mid.Furnished path names other := by
    refine hmade.of_keeps hhere ?_
    rw [hnodes]
    exact fun _ hkey => hkey
  obtain ⟨hlater, hsame⟩ := sameBut_states isOn_of_mem_fileSteps hmid.beside h
  exact ⟨hlater.trans hhere, hnodes ▸ hsame⟩

/-- **The file is as it was as long as the temporary file is written.** -/
theorem unsaved_of_mem_states (h : now ∈ before.states (store.writingSteps data)) :
    Unsaved store.path before now := by
  obtain ⟨hfolders, hdone⟩ := unsaved_of_folderSteps store.path before
  rw [writingSteps_eq] at h
  rcases mem_states_append h with h | ⟨mid, hmid, h⟩
  · exact hfolders now h
  · obtain ⟨hhere, names, other, hmade, hnodes⟩ := hdone mid hmid
    obtain ⟨hlater, hsame⟩ := sameBut_of_fileSteps hhere hmade hnodes h
    exact .writing names other hmade hlater hsame

/-- The temporary file, once written, holds what was really written. -/
theorem written_of_fileSteps {other : List String} (hother : mid.locate? path.temporary = .ok other)
    (h : mid.performAll (fileSteps path data) = (.ok (), later)) :
    later.nodes.get? (place other) =
      some (.file (leaves (mid.hazards.drop 1) (Snapshot.ofEntries data).toBytes)) := by
  obtain ⟨created, hhere, hhazards, hcreated, h⟩ := performAll_cons_ok h
  obtain ⟨written, hhere', -, hwritten, h⟩ := performAll_cons_ok h
  obtain ⟨synced, hhere'', -, hsynced, h⟩ := performAll_cons_ok h
  obtain ⟨-, rfl⟩ := Prod.mk.inj h
  rw [List.drop_one, ← hhazards]
  -- The file is made where the path leads, and so the path leads there still when it is written.
  obtain ⟨⟨spot, old⟩, hspot, hnodes⟩ := bind_eq_ok hcreated
  obtain rfl := spot_eq_place hother hspot
  have hkeeps : Keeps mid.nodes created.nodes := by
    rw [← Except.ok.inj hnodes]
    exact (SameBut.insert [] (get?_ne_folder_of_fileSpot? hspot)).keeps
  have hother' := locate?_of_keeps hhere hkeeps hother
  obtain ⟨⟨spot', old'⟩, hspot', hnodes'⟩ := bind_eq_ok hwritten
  obtain rfl := spot_eq_place hother' hspot'
  obtain ⟨⟨spot'', old''⟩, -, hnodes''⟩ := bind_eq_ok hsynced
  cases old' with
  | none => exact absurd hnodes' (by simp)
  | some old' =>
    cases old'' with
    | none => exact absurd hnodes'' (by simp)
    | some old'' =>
      rw [← Except.ok.inj hnodes'', ← Except.ok.inj hnodes']
      exact Ledger.get?_insert_self _ _ _

/-- Once all is written, the new content is in the temporary file and nothing else has changed. -/
theorem written_of_writingSteps
    (h : before.performAll (store.writingSteps data) = (.ok (), later)) :
    ∃ names other, (withAllFolders before store.path).Furnished store.path names other ∧
      later.here = before.here ∧
      SameBut (place other) (withAllFolders before store.path).nodes later.nodes ∧
      later.nodes.get? (place other) =
        some (.file (contentAfter store.path before.hazards data)) := by
  rw [writingSteps_eq, performAll_append] at h
  cases hfolders : before.performAll (folderSteps store.path) with
  | mk result mid =>
    rw [hfolders] at h
    cases result with
    | error fault => exact absurd (Prod.mk.inj h).1 (by simp)
    | ok =>
      obtain ⟨hhere, names, other, hmade, hnodes⟩ := (unsaved_of_folderSteps _ _).2 mid hfolders
      -- The disk at the end is the last that the steps on the temporary file go through.
      have hmem : later ∈ mid.states (fileSteps store.path data) := by
        have hlast := getLast?_states mid (fileSteps store.path data)
        dsimp only at h
        rw [h] at hlast
        exact List.mem_of_getLast? hlast
      obtain ⟨hlater, hsame⟩ := sameBut_of_fileSteps hhere hmade hnodes hmem
      have hkeeps : Keeps (withAllFolders before store.path).nodes mid.nodes := by
        rw [hnodes]
        exact fun _ hkey => hkey
      have hcontent := written_of_fileSteps (hmade.of_keeps hhere hkeeps).beside h
      rw [hazards_of_performAll hfolders, List.drop_drop] at hcontent
      exact ⟨names, other, hmade, hlater, hsame, hcontent⟩

/-! ### A file that is new -/

/-- The file is new and the temporary file is gone. -/
structure Saved (path : Path) (content : Bytes) (before now : Disk) (names other : List String) :
    Prop where
  made : (withAllFolders before path).Furnished path names other
  here : now.here = before.here
  spots : names ≠ [] ∧ other ≠ [] ∧ path.closed = false
  file : now.nodes.get? (place names) = some (.file content)
  gone : now.nodes.get? (place other) = none
  rest : ∀ key, now.nodes.get? key = (withAllFolders before path).nodes.get? key ∨
    (key = place names ∨ key = place other) ∧
      (withAllFolders before path).nodes.get? key ≠ some .folder

variable {names other : List String}

theorem Saved.furnished (h : Saved path content before now names other) :
    now.Furnished path names other := by
  -- The two files do not stand where there was a folder, so all folders are still there.
  refine h.made.of_keeps h.here fun key hkey => ?_
  rcases h.rest key with hsame | ⟨-, hne⟩
  · rw [hsame, hkey]
  · exact absurd hkey hne

theorem Saved.read (h : Saved path content before now names other) : now.read path = .ok content :=
  read_of_get? h.furnished.file h.spots.1 h.spots.2.2 h.file

theorem Saved.settled (h : Saved path content before now names other) : now.Settled path :=
  h.furnished.settled

/-- Nothing stands at the path of the temporary file. -/
theorem Saved.temporary (h : Saved path content before now names other) :
    now.node? path.temporary = .error .missing := by
  rw [node?, h.furnished.beside]
  dsimp only [bind, Except.bind]
  rw [nodeAt?_eq_get? h.spots.2.1, h.gone]

/-- Beside the file and the temporary file only folders are new. -/
theorem Saved.elsewhere (h : Saved path content before now names other) (key : String) :
    now.nodes.get? key = before.nodes.get? key ∨
      (before.nodes.get? key = none ∧ now.nodes.get? key = some .folder) ∨
        now.LeadsTo path key ∨ now.LeadsTo path.temporary key := by
  rcases h.rest key with hkey | ⟨rfl | rfl, -⟩
  · rw [hkey]
    exact (adds_foldersMade _ _ _ key).imp_right .inl
  · exact .inr (.inr (.inl ⟨names, h.furnished.file, rfl⟩))
  · exact .inr (.inr (.inr ⟨other, h.furnished.beside, rfl⟩))

/-- **Moving the temporary file makes the file new.** -/
theorem saved_of_rename (hmade : (withAllFolders before path).Furnished path names other)
    (hhere : mid.here = before.here)
    (hsame : SameBut (place other) (withAllFolders before path).nodes mid.nodes)
    (hcontent : mid.nodes.get? (place other) = some (.file content))
    (h : mid.perform (.rename path.temporary path) = (.ok (), now)) :
    Saved path content before now names other := by
  have hmid := hmade.of_keeps hhere hsame.keeps
  obtain ⟨⟨spot, old⟩, hspot, hnodes⟩ := bind_eq_ok (after?_of_perform h)
  obtain rfl := spot_eq_place hmid.beside hspot
  cases old with
  | none => exact absurd hnodes (by simp)
  | some old =>
    obtain ⟨⟨goal, replaced⟩, hgoal, hnodes⟩ := bind_eq_ok hnodes
    replace hnodes := (Except.ok.inj hnodes).symm
    obtain rfl := spot_eq_place hmid.file hgoal
    obtain ⟨found, hfound, hne, -, hclosed, -⟩ := fileSpot?_eq_ok hgoal
    rw [hmid.file] at hfound
    obtain rfl := Except.ok.inj hfound
    obtain ⟨found, hfound, hne', -, -, hget⟩ := fileSpot?_eq_ok hspot
    rw [hmid.beside] at hfound
    obtain rfl := Except.ok.inj hfound
    -- What is moved is what the temporary file held.
    have hold : old = content := by
      rw [hcontent] at hget
      exact (Node.file.inj (Option.some.inj hget)).symm
    subst hold
    refine ⟨hmade, (here_of_perform h).trans hhere, ⟨hne, hne', hclosed⟩, ?_, ?_, fun key => ?_⟩
    · rw [hnodes]
      exact Ledger.get?_insert_self _ _ _
    · rw [hnodes, Ledger.get?_insert_of_ne _ _ hmade.ne.symm, Ledger.get?_erase, if_pos rfl]
    · by_cases hnames : key = place names
      · -- Beside the temporary file nothing had changed before.
        refine .inr ⟨.inl hnames, ?_⟩
        rcases hsame key with hkey | ⟨hkey, -⟩
        · rw [← hkey, hnames]
          exact get?_ne_folder_of_fileSpot? hgoal
        · exact absurd (hnames.symm.trans hkey) hmade.ne
      · by_cases hother : key = place other
        · refine .inr ⟨.inr hother, ?_⟩
          rcases hsame key with hkey | ⟨-, hne, -⟩
          · rw [← hkey, hother, hcontent]
            simp
          · exact hne
        · rcases hsame key with hkey | ⟨hkey, -⟩
          · refine .inl ?_
            rw [hnodes, Ledger.get?_insert_of_ne _ _ hnames, Ledger.get?_erase, if_neg hother, hkey]
          · exact absurd hkey hother

/-! ### A save as a whole -/

/-- A move that failed, and the removal of the temporary file after it, leave the file as it was. -/
theorem unsaved_of_rename_error {fault : FileFault} {refused : Disk}
    (hmade : (withAllFolders before path).Furnished path names other)
    (hhere : mid.here = before.here)
    (hsame : SameBut (place other) (withAllFolders before path).nodes mid.nodes)
    (h : mid.perform (.rename path.temporary path) = (.error fault, refused)) :
    Unsaved path before refused ∧
      Unsaved path before (refused.perform (.remove path.temporary)).2 := by
  have hrefused : refused.here = before.here := (here_of_perform h).trans hhere
  have hstill : SameBut (place other) (withAllFolders before path).nodes refused.nodes := by
    rw [nodes_of_rename_error h]
    exact hsame
  have hremoved : SameBut (place other) refused.nodes
      (refused.perform (.remove path.temporary)).2.nodes :=
    sameBut_perform (show Operation.IsOn _ (.remove path.temporary) from rfl)
      (hmade.of_keeps hrefused hstill.keeps).beside rfl
  exact ⟨.writing names other hmade hrefused hstill,
    .writing names other hmade ((here_perform _ _).trans hrefused) (hstill.trans hremoved)⟩

/-- **A save that failed never makes the file new.** -/
theorem unsaved_of_save_error {error : StoreError}
    (h : store.save data before = (.error error, later)) :
    ∀ now ∈ store.whileSaving data before, Unsaved store.path before now := by
  intro now hnow
  rw [whileSaving, List.mem_append] at hnow
  -- It failed while the temporary file was written, or the move failed after that.
  rcases hnow with hnow | hnow
  · exact unsaved_of_mem_states hnow
  · rw [save] at h
    cases hwritten : before.performAll (store.writingSteps data) with
    | mk result written =>
      rw [hwritten] at h hnow
      cases result with
      | error fault => exact absurd hnow List.not_mem_nil
      | ok =>
        obtain ⟨names, other, hmade, hhere, hsame, -⟩ := written_of_writingSteps hwritten
        dsimp only at h hnow
        cases hmoved : written.perform (.rename store.path.temporary store.path) with
        | mk result moved =>
          rw [hmoved] at h hnow
          cases result with
          | ok => exact absurd (Prod.mk.inj h).1 (by simp)
          | error fault =>
            obtain ⟨hrefused, hremoved⟩ := unsaved_of_rename_error hmade hhere hsame hmoved
            rcases List.mem_cons.1 hnow with rfl | hnow
            · exact hrefused
            · obtain rfl := List.mem_singleton.1 hnow
              exact hremoved

/-- **A save that took place makes the file new at its very end.** -/
theorem saved_of_save_ok (h : store.save data before = (.ok (), later)) :
    (∃ names other,
      Saved store.path (contentAfter store.path before.hazards data) before later names other) ∧
      ∀ now ∈ store.whileSaving data before, Unsaved store.path before now ∨ now = later := by
  rw [save] at h
  cases hwritten : before.performAll (store.writingSteps data) with
  | mk result written =>
    rw [hwritten] at h
    cases result with
    | error fault => exact absurd (Prod.mk.inj h).1 (by simp)
    | ok =>
      obtain ⟨names, other, hmade, hhere, hsame, hcontent⟩ := written_of_writingSteps hwritten
      dsimp only at h
      cases hmoved : written.perform (.rename store.path.temporary store.path) with
      | mk result moved =>
        rw [hmoved] at h
        cases result with
        | error fault => exact absurd (Prod.mk.inj h).1 (by simp)
        | ok =>
          obtain ⟨-, rfl⟩ := Prod.mk.inj h
          refine ⟨⟨names, other, saved_of_rename hmade hhere hsame hcontent hmoved⟩, ?_⟩
          -- All disks but the last are those of the steps before the move.
          intro now hnow
          rw [whileSaving, List.mem_append, hwritten] at hnow
          dsimp only at hnow
          rw [hmoved] at hnow
          rcases hnow with hnow | hnow
          · exact .inl (unsaved_of_mem_states hnow)
          · exact .inr (List.mem_singleton.1 hnow)

end FileStore

end DeviceScope
