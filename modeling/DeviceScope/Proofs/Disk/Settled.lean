import DeviceScope.Proofs.Disk.Basic

/-!
# Paths that name one file

A path may go through a folder that is missing, and out of it again. It names nothing then, but
once the folder is made it may name a file that was there all the time. `Disk.Settled` says that
making the folders around a file, all of them or the first few, has no such effect. It is so if the
folder can be reached (`settled_of_locate?`), and for every path without `..` on a disk on which
nothing stands outside of folders (`settled_of_not_mem`).
-/

namespace DeviceScope.Disk

/-- The disk on which the folders were made that the first few names on the way to a file lead
through. -/
def withFolders (disk : Disk) (path : Path) (count : Nat) : Disk :=
  { disk with
    nodes := foldersMade disk.nodes (disk.start path) (path.parts.dropLast.take count) }

/-- Making the folders on the way to a file, all of them or the first few, does not put another
file under its path. -/
def Settled (disk : Disk) (path : Path) : Prop :=
  ∀ count, (disk.withFolders path count).read path = disk.read path

variable {disk later : Disk} {path : Path}

/-- What is read at a path depends on what stands on the disk and on the working folder. -/
theorem read_congr (path : Path) (hnodes : later.nodes = disk.nodes)
    (hhere : later.here = disk.here) : later.read path = disk.read path := by
  have hstart := start_congr hhere path
  rw [read, read, node?, node?, locate?, locate?, hnodes, hstart]

theorem settled_congr (hnodes : later.nodes = disk.nodes) (hhere : later.here = disk.here)
    (h : disk.Settled path) : later.Settled path := by
  intro count
  have hmade : (later.withFolders path count).nodes = (disk.withFolders path count).nodes := by
    rw [withFolders, withFolders, hnodes, start_congr hhere path]
  calc (later.withFolders path count).read path
      = (disk.withFolders path count).read path := read_congr path hmade hhere
    _ = disk.read path := h count
    _ = later.read path := (read_congr path hnodes hhere).symm

/-- With the first few folders made the path stays settled. -/
theorem Settled.withFolders (h : disk.Settled path) (count : Nat) :
    (disk.withFolders path count).Settled path := by
  intro more
  have hboth : (disk.withFolders path count).withFolders path more =
      disk.withFolders path (max count more) :=
    congrArg (fun nodes => { disk with nodes }) (foldersMade_take_take _ _ _ _ _)
  rw [hboth, h, h]

/-! ### Folders that are there -/

/-- No folder is missing, so none is made. -/
theorem settled_of_follow? {folder : List String}
    (h : follow? disk.nodes (disk.start path) path.parts.dropLast = .ok folder) :
    disk.Settled path := by
  intro count
  rw [withFolders, foldersMade_of_follow? h]

/-- The front part of a path that leads somewhere leads somewhere. -/
theorem follow?_front {nodes : Ledger Node} {at_ front back found : List String}
    (h : follow? nodes at_ (front ++ back) = .ok found) :
    ∃ folder, follow? nodes at_ front = .ok folder := by
  induction front generalizing at_ with
  | nil => exact ⟨at_, rfl⟩
  | cons name front ih =>
    rw [List.cons_append] at h
    rcases follow?_cons_eq_ok.1 h with ⟨hup, h⟩ | ⟨hup, hfolder, h⟩
    · obtain ⟨folder, hfront⟩ := ih h
      exact ⟨folder, follow?_cons_eq_ok.2 (.inl ⟨hup, hfront⟩)⟩
    · obtain ⟨folder, hfront⟩ := ih h
      exact ⟨folder, follow?_cons_eq_ok.2 (.inr ⟨hup, hfolder, hfront⟩)⟩

/-- **A path whose folder can be reached is settled.** -/
theorem settled_of_locate? {names : List String} (h : disk.locate? path = .ok names) :
    disk.Settled path := by
  rcases locate?_cases h with ⟨name, folder, -, hfolder, -⟩ | ⟨-, hfollow⟩
  · exact settled_of_follow? hfolder
  · -- The path names a folder that is there, and so the folder around it is there.
    rcases List.eq_nil_or_concat path.parts with hparts | ⟨front, last, hparts⟩
    · have hhere : follow? disk.nodes (disk.start path) path.parts.dropLast =
          .ok (disk.start path) := by
        rw [hparts]
        rfl
      exact settled_of_follow? hhere
    · rw [hparts, List.concat_eq_append] at hfollow
      obtain ⟨folder, hfolder⟩ := follow?_front hfollow
      have hfront : path.parts.dropLast = front := by
        rw [hparts, List.concat_eq_append, List.dropLast_concat]
      rw [← hfront] at hfolder
      exact settled_of_follow? hfolder

/-- A path at which a file can be read is settled. -/
theorem settled_of_read {content : Bytes} (h : disk.read path = .ok content) :
    disk.Settled path := by
  cases hlocate : disk.locate? path with
  | ok names => exact settled_of_locate? hlocate
  | error fault =>
    rw [read, node?, hlocate] at h
    exact absurd h (by simp [bind, Except.bind])

/-! ### Paths without a way back -/

/-- Nothing stands but in folders. -/
def Grounded (nodes : Ledger Node) : Prop :=
  ∀ names name, nodeAt? nodes (names ++ [name]) ≠ none → nodeAt? nodes names = some .folder

/-- Nothing stands below what is not there. -/
theorem Grounded.nodeAt?_eq_none {nodes : Ledger Node} (h : Grounded nodes)
    {names : List String} (hnone : nodeAt? nodes names = none) (more : List String) :
    nodeAt? nodes (names ++ more) = none := by
  induction more generalizing names with
  | nil => rwa [List.append_nil]
  | cons name more ih =>
    rw [List.append_cons]
    refine ih ?_
    by_cases hname : nodeAt? nodes (names ++ [name]) = none
    · exact hname
    · rw [h names name hname] at hnone
      exact absurd hnone (by simp)

theorem length_place_le (names more : List String) :
    (place names).length ≤ (place (names ++ more)).length := by
  induction more generalizing names with
  | nil => exact Nat.le_of_eq (by rw [List.append_nil])
  | cons name more ih =>
    rw [List.append_cons]
    refine Nat.le_trans ?_ (ih (names ++ [name]))
    rw [place_append, String.length_append, String.length_append]
    omega

theorem length_place_lt (names : List String) (name : String) :
    (place names).length < (place (names ++ [name])).length := by
  have hslash : "/".length = 1 := rfl
  rw [place_append, String.length_append, String.length_append]
  omega

/-- Nothing stands below a place. -/
def Bare (nodes : Ledger Node) (at_ : List String) : Prop :=
  ∀ name more, nodeAt? nodes (at_ ++ [name] ++ more) = none

/-- A folder is made where nothing stands, and nothing stands below it. -/
theorem bare_insert {nodes : Ledger Node} {at_ : List String} {name : String} (node : Node)
    (h : ∀ more, nodeAt? nodes (at_ ++ [name] ++ more) = none) :
    Bare (nodes.insert (place (at_ ++ [name])) node) (at_ ++ [name]) := by
  intro inner more
  have hbelow : nodeAt? nodes (at_ ++ [name] ++ [inner] ++ more) = none := by
    rw [List.append_assoc (at_ ++ [name])]
    exact h _
  rw [nodeAt?_eq_get? (by simp)] at hbelow ⊢
  rw [Ledger.get?_insert_of_ne]
  · exact hbelow
  · -- What lies below has a longer name.
    intro heq
    have hlt := length_place_lt (at_ ++ [name]) inner
    have hle := length_place_le (at_ ++ [name] ++ [inner]) more
    rw [heq] at hle
    omega

/-- **Nothing is found where nothing stood**: after the first few folders were made some folder is
missing still, or all are there and the last one is empty. -/
theorem Bare.follow?_foldersMade {nodes : Ledger Node} {at_ names : List String} (count : Nat)
    (hbare : Bare nodes at_) (hforward : ".." ∉ names) :
    follow? (foldersMade nodes at_ (names.take count)) at_ names = .error .missing ∨
      follow? (foldersMade nodes at_ (names.take count)) at_ names = .ok (at_ ++ names) ∧
        Bare (foldersMade nodes at_ (names.take count)) (at_ ++ names) := by
  induction names generalizing nodes at_ count with
  | nil =>
    rw [List.take_nil, List.append_nil]
    exact .inr ⟨rfl, hbare⟩
  | cons name names ih =>
    rw [List.mem_cons, not_or] at hforward
    obtain ⟨hname, hforward⟩ := hforward
    have hup : name ≠ ".." := fun h => hname h.symm
    have hnone := hbare name []
    rw [List.append_nil] at hnone
    cases count with
    | zero =>
      rw [List.take_zero, foldersMade, follow?, if_neg hup, hnone]
      exact .inl rfl
    | succ count =>
      rw [List.take_succ_cons, foldersMade, if_neg hup, hnone, follow?, if_neg hup]
      dsimp only
      have hmade := (adds_foldersMade (nodes.insert (place (at_ ++ [name])) .folder)
        (at_ ++ [name]) (names.take count)).extends _ _ (Ledger.get?_insert_self _ _ _)
      rw [← nodeAt?_eq_get? (by simp)] at hmade
      rw [hmade, List.append_cons at_ name names]
      exact ih count (bare_insert .folder (hbare name)) hforward

/-- Making folders on the way either makes no difference to where it leads, or it now leads to an
empty folder. -/
theorem Grounded.follow?_foldersMade {nodes : Ledger Node} (hgrounded : Grounded nodes)
    {at_ names : List String} (count : Nat) (hforward : ".." ∉ names) :
    follow? (foldersMade nodes at_ (names.take count)) at_ names = follow? nodes at_ names ∨
      follow? nodes at_ names = .error .missing ∧
        follow? (foldersMade nodes at_ (names.take count)) at_ names = .ok (at_ ++ names) ∧
        Bare (foldersMade nodes at_ (names.take count)) (at_ ++ names) := by
  induction names generalizing at_ count with
  | nil =>
    rw [List.take_nil]
    exact .inl rfl
  | cons name names ih =>
    rw [List.mem_cons, not_or] at hforward
    obtain ⟨hname, hforward⟩ := hforward
    have hup : name ≠ ".." := fun h => hname h.symm
    cases count with
    | zero => exact .inl rfl
    | succ count =>
      rw [List.take_succ_cons, foldersMade, if_neg hup, List.append_cons at_ name names]
      rw [follow?, if_neg hup, follow?, if_neg hup]
      cases hnode : nodeAt? nodes (at_ ++ [name]) with
      | none =>
        -- Nothing stands below a folder that is missing.
        have hmade := (adds_foldersMade (nodes.insert (place (at_ ++ [name])) .folder)
          (at_ ++ [name]) (names.take count)).extends _ _ (Ledger.get?_insert_self _ _ _)
        rw [← nodeAt?_eq_get? (by simp)] at hmade
        dsimp only
        rw [hmade]
        rcases (bare_insert .folder (hgrounded.nodeAt?_eq_none hnode)).follow?_foldersMade count
          hforward with hnowhere | hempty
        · exact .inl hnowhere
        · exact .inr ⟨rfl, hempty⟩
      | some node =>
        cases node with
        | file content =>
          dsimp only
          rw [hnode]
          exact .inl rfl
        | folder =>
          have hstays := nodeAt?_folder_of_keeps (adds_foldersMade nodes (at_ ++ [name])
            (names.take count)).extends.keeps hnode
          dsimp only
          rw [hstays]
          exact ih count hforward

/-- **A path without `..` is settled** on a disk on which nothing stands outside of folders. -/
theorem settled_of_not_mem (hgrounded : Grounded disk.nodes) (hforward : ".." ∉ path.parts) :
    disk.Settled path := by
  have hfront : ".." ∉ path.parts.dropLast := fun h => hforward (List.dropLast_subset _ h)
  cases hfollow : follow? disk.nodes (disk.start path) path.parts.dropLast with
  | ok folder => exact settled_of_follow? hfollow
  | error fault =>
    -- The folder of the file cannot be reached, so there is one and the file has a name.
    rcases List.eq_nil_or_concat path.parts with hparts | ⟨front, last, hparts⟩
    · rw [hparts] at hfollow
      exact absurd hfollow (by simp [follow?])
    · rw [List.concat_eq_append] at hparts
      have hlast : last ≠ ".." := by
        rintro rfl
        exact hforward (by rw [hparts]; simp)
      have hname : path.fileName? = some last := by
        rw [Path.fileName?, hparts, List.getLast?_concat]
        exact Option.filter_eq_some_iff.2 ⟨rfl, decide_eq_true hlast⟩
      have hbefore : disk.locate? path = .error fault := by
        rw [locate?, hname]
        dsimp only
        rw [hfollow]
        rfl
      intro count
      rw [read, node?, read, node?, hbefore]
      rcases hgrounded.follow?_foldersMade count hfront with
        hsame | ⟨hmissing, hreached, hbare⟩
      · have hafter : (disk.withFolders path count).locate? path = .error fault := by
          rw [locate?, hname]
          dsimp only
          show (follow? (foldersMade _ _ _) (disk.start path) _).map _ = _
          rw [hsame, hfollow]
          rfl
        rw [hafter]
        rfl
      · -- The file is missing before, for want of its folder, and after.
        have hafter : (disk.withFolders path count).locate? path =
            .ok (disk.start path ++ path.parts.dropLast ++ [last]) :=
          locate?_of_fileName? hname hreached
        have hnone : nodeAt? (disk.withFolders path count).nodes
            (disk.start path ++ path.parts.dropLast ++ [last]) = none := by
          have hnone := hbare last []
          rwa [List.append_nil] at hnone
        rw [hmissing] at hfollow
        rw [hafter, ← Except.error.inj hfollow]
        dsimp only [bind, Except.bind]
        rw [hnone]

end DeviceScope.Disk
