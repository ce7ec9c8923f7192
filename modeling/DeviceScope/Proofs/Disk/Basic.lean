import DeviceScope.Disk.Basic

/-!
# What an operation leaves as it was

Folders are made and files are written while other files are in use. `Disk.Extends` says that
things were only added, `Disk.SameBut` that nothing changed but a file at one place. In both cases
a path that could be followed leads where it led before (`follow?_of_keeps`), so what is at another
place is still found (`read_of_sameBut`).
-/

namespace DeviceScope.Disk

/-! ### Two states of a disk -/

/-- Folders stay folders. -/
def Keeps (nodes later : Ledger Node) : Prop :=
  ∀ key, nodes.get? key = some .folder → later.get? key = some .folder

/-- What is there stays there. -/
def Extends (nodes later : Ledger Node) : Prop :=
  ∀ key node, nodes.get? key = some node → later.get? key = some node

/-- Folders are made where nothing was, and nothing else changes. -/
def Adds (nodes later : Ledger Node) : Prop :=
  ∀ key, later.get? key = nodes.get? key ∨
    nodes.get? key = none ∧ later.get? key = some .folder

/-- Nothing changes but at one place, where there is no folder, neither before nor after. -/
def SameBut (spot : String) (nodes later : Ledger Node) : Prop :=
  ∀ key, later.get? key = nodes.get? key ∨
    key = spot ∧ nodes.get? key ≠ some .folder ∧ later.get? key ≠ some .folder

theorem Extends.refl (nodes : Ledger Node) : Extends nodes nodes := fun _ _ h => h

theorem Extends.trans {a b c : Ledger Node} (hab : Extends a b) (hbc : Extends b c) :
    Extends a c :=
  fun key node h => hbc key node (hab key node h)

theorem Extends.keeps {nodes later : Ledger Node} (h : Extends nodes later) : Keeps nodes later :=
  fun key hkey => h key .folder hkey

theorem Adds.refl (nodes : Ledger Node) : Adds nodes nodes := fun _ => .inl rfl

theorem Adds.trans {a b c : Ledger Node} (hab : Adds a b) (hbc : Adds b c) : Adds a c := by
  intro key
  rcases hab key with hab | ⟨ha, hb⟩
  · rw [← hab]
    exact hbc key
  · -- What is a folder already stays one.
    rcases hbc key with hbc | ⟨hnone, -⟩
    · exact .inr ⟨ha, hbc.trans hb⟩
    · rw [hb] at hnone
      exact absurd hnone (by simp)

theorem Adds.extends {nodes later : Ledger Node} (h : Adds nodes later) : Extends nodes later := by
  intro key node hkey
  rcases h key with h | ⟨hnone, -⟩
  · rw [h, hkey]
  · rw [hkey] at hnone
    exact absurd hnone (by simp)

theorem SameBut.refl (spot : String) (nodes : Ledger Node) : SameBut spot nodes nodes :=
  fun _ => .inl rfl

theorem SameBut.trans {spot : String} {a b c : Ledger Node} (hab : SameBut spot a b)
    (hbc : SameBut spot b c) : SameBut spot a c := by
  intro key
  -- A key at which one of the two steps changed something is the one spot of both.
  rcases hab key with hab | ⟨hkey, ha, hb⟩
  · rcases hbc key with hbc | ⟨hkey, hb, hc⟩
    · exact .inl (hbc.trans hab)
    · exact .inr ⟨hkey, hab ▸ hb, hc⟩
  · rcases hbc key with hbc | ⟨-, -, hc⟩
    · exact .inr ⟨hkey, ha, hbc ▸ hb⟩
    · exact .inr ⟨hkey, ha, hc⟩

theorem SameBut.keeps {spot : String} {nodes later : Ledger Node} (h : SameBut spot nodes later) :
    Keeps nodes later := by
  intro key hkey
  rcases h key with h | ⟨-, hne, -⟩
  · rw [h, hkey]
  · exact absurd hkey hne

/-- A file is put where there is no folder. -/
theorem SameBut.insert {spot : String} {nodes : Ledger Node} (content : Bytes)
    (h : nodes.get? spot ≠ some .folder) :
    SameBut spot nodes (nodes.insert spot (.file content)) := by
  intro key
  by_cases hkey : key = spot
  · subst hkey
    refine .inr ⟨rfl, h, ?_⟩
    rw [Ledger.get?_insert_self]
    simp
  · exact .inl (Ledger.get?_insert_of_ne nodes _ hkey)

/-- A file is removed. -/
theorem SameBut.erase {spot : String} {nodes : Ledger Node}
    (h : nodes.get? spot ≠ some .folder) : SameBut spot nodes (nodes.erase spot) := by
  intro key
  rw [Ledger.get?_erase]
  split
  · next hkey => exact .inr ⟨hkey, hkey ▸ h, by simp⟩
  · exact .inl rfl

/-! ### Following paths -/

theorem nodeAt?_eq_get? {nodes : Ledger Node} {names : List String} (h : names ≠ []) :
    nodeAt? nodes names = nodes.get? (place names) := by
  rw [nodeAt?, if_neg (by simpa using h)]

theorem nodeAt?_folder_of_keeps {nodes later : Ledger Node} {names : List String}
    (hkeeps : Keeps nodes later) (h : nodeAt? nodes names = some .folder) :
    nodeAt? later names = some .folder := by
  rw [nodeAt?] at h ⊢
  split
  · rfl
  · next hne =>
    rw [if_neg hne] at h
    exact hkeeps _ h

/-- A name of a path leads out of a folder, or into one that is there. -/
theorem follow?_cons_eq_ok {nodes : Ledger Node} {at_ names found : List String} {name : String} :
    follow? nodes at_ (name :: names) = .ok found ↔
      name = ".." ∧ follow? nodes at_.dropLast names = .ok found ∨
        name ≠ ".." ∧ nodeAt? nodes (at_ ++ [name]) = some .folder ∧
          follow? nodes (at_ ++ [name]) names = .ok found := by
  rw [follow?]
  by_cases hup : name = ".."
  · rw [if_pos hup]
    simp only [hup, true_and, ne_eq, not_true_eq_false, false_and, or_false]
  · rw [if_neg hup]
    simp only [hup, false_and, ne_eq, not_false_eq_true, true_and, false_or]
    split
    · next hnode => simp [hnode]
    · next hnode => simp [hnode]
    · next hnode => simp [hnode]

/-- A path through folders leads to the same place as long as they stay folders. -/
theorem follow?_of_keeps {nodes later : Ledger Node} (hkeeps : Keeps nodes later)
    {at_ names found : List String} (h : follow? nodes at_ names = .ok found) :
    follow? later at_ names = .ok found := by
  -- Every folder on the way is there still.
  induction names generalizing at_ with
  | nil => exact h
  | cons name names ih =>
    rw [follow?_cons_eq_ok] at h ⊢
    rcases h with ⟨hup, h⟩ | ⟨hup, hfolder, h⟩
    · exact .inl ⟨hup, ih h⟩
    · exact .inr ⟨hup, nodeAt?_folder_of_keeps hkeeps hfolder, ih h⟩

theorem follow?_append {nodes : Ledger Node} {at_ names more found : List String}
    (h : follow? nodes at_ names = .ok found) :
    follow? nodes at_ (names ++ more) = follow? nodes found more := by
  induction names generalizing at_ with
  | nil =>
    obtain rfl := Except.ok.inj h
    rfl
  | cons name names ih =>
    rw [List.cons_append, follow?]
    rcases follow?_cons_eq_ok.1 h with ⟨hup, h⟩ | ⟨hup, hfolder, h⟩
    · rw [if_pos hup]
      exact ih h
    · rw [if_neg hup, hfolder]
      exact ih h

/-- Making folders only adds, and then the path leads somewhere. -/
theorem makeFolders?_spec {nodes later : Ledger Node} {at_ names : List String}
    (h : makeFolders? nodes at_ names = .ok later) :
    Extends nodes later ∧ ∃ found, follow? later at_ names = .ok found := by
  induction names generalizing nodes at_ with
  | nil =>
    obtain rfl := Except.ok.inj h
    exact ⟨.refl nodes, at_, rfl⟩
  | cons name names ih =>
    rw [makeFolders?] at h
    by_cases hup : name = ".."
    · rw [if_pos hup] at h
      obtain ⟨hextends, found, hfound⟩ := ih h
      exact ⟨hextends, found, follow?_cons_eq_ok.2 (.inl ⟨hup, hfound⟩)⟩
    · rw [if_neg hup] at h
      split at h
      · exact absurd h (by simp)
      · next hfolder =>
        obtain ⟨hextends, found, hfound⟩ := ih h
        have hlater := nodeAt?_folder_of_keeps hextends.keeps hfolder
        exact ⟨hextends, found, follow?_cons_eq_ok.2 (.inr ⟨hup, hlater, hfound⟩)⟩
      · next hnone =>
        -- The folder is made where nothing was, so nothing is lost.
        obtain ⟨hextends, found, hfound⟩ := ih h
        have hmade := hextends _ _ (Ledger.get?_insert_self nodes (place (at_ ++ [name])) .folder)
        rw [← nodeAt?_eq_get? (by simp)] at hmade
        refine ⟨Extends.trans ?_ hextends, found,
          follow?_cons_eq_ok.2 (.inr ⟨hup, hmade, hfound⟩)⟩
        intro key node hkey
        have hne : key ≠ place (at_ ++ [name]) := by
          rintro rfl
          rw [← nodeAt?_eq_get? (by simp), hnone] at hkey
          exact absurd hkey (by simp)
        rw [Ledger.get?_insert_of_ne nodes _ hne, hkey]

/-- Folders that could all be made are those that are made one after another. -/
theorem foldersMade_of_makeFolders? {nodes later : Ledger Node} {at_ names : List String}
    (h : makeFolders? nodes at_ names = .ok later) : foldersMade nodes at_ names = later := by
  induction names generalizing nodes at_ with
  | nil => exact Except.ok.inj h
  | cons name names ih =>
    rw [makeFolders?] at h
    rw [foldersMade]
    by_cases hup : name = ".."
    · rw [if_pos hup] at h ⊢
      exact ih h
    · rw [if_neg hup] at h ⊢
      split at h
      · exact absurd h (by simp)
      · exact ih h
      · exact ih h

/-- Making folders adds folders, as far as it comes, and nothing else. -/
theorem adds_foldersMade (nodes : Ledger Node) (at_ names : List String) :
    Adds nodes (foldersMade nodes at_ names) := by
  induction names generalizing nodes at_ with
  | nil => exact .refl nodes
  | cons name names ih =>
    rw [foldersMade]
    by_cases hup : name = ".."
    · rw [if_pos hup]
      exact ih _ _
    · rw [if_neg hup]
      split
      · exact .refl nodes
      · exact ih _ _
      · next hnone =>
        -- The folder is made where nothing was.
        refine Adds.trans ?_ (ih _ _)
        intro key
        rw [nodeAt?_eq_get? (by simp)] at hnone
        by_cases hkey : key = place (at_ ++ [name])
        · rw [hkey]
          exact .inr ⟨hnone, Ledger.get?_insert_self _ _ _⟩
        · exact .inl (Ledger.get?_insert_of_ne nodes _ hkey)

/-- Folders that were made on some part of the way are on the way of any other part. -/
theorem foldersMade_take_take (nodes : Ledger Node) (at_ names : List String) (a b : Nat) :
    foldersMade (foldersMade nodes at_ (names.take a)) at_ (names.take b) =
      foldersMade nodes at_ (names.take (max a b)) := by
  induction names generalizing nodes at_ a b with
  | nil => simp only [List.take_nil, foldersMade]
  | cons name names ih =>
    cases a with
    | zero => rw [Nat.zero_max, List.take_zero, foldersMade]
    | succ a =>
      cases b with
      | zero => rw [Nat.max_zero, List.take_zero, foldersMade]
      | succ b =>
        rw [Nat.succ_max_succ, List.take_succ_cons, List.take_succ_cons, List.take_succ_cons]
        by_cases hup : name = ".."
        · simp only [foldersMade, if_pos hup]
          exact ih _ _ _ _
        · rw [foldersMade, if_neg hup, foldersMade, if_neg hup, foldersMade, if_neg hup]
          -- The second time what is under the name is what it has become the first time.
          cases hnode : nodeAt? nodes (at_ ++ [name]) with
          | none =>
            have hmade := (adds_foldersMade (nodes.insert (place (at_ ++ [name])) .folder)
              (at_ ++ [name]) (names.take a)).extends _ _ (Ledger.get?_insert_self _ _ _)
            rw [← nodeAt?_eq_get? (by simp)] at hmade
            dsimp only
            rw [hmade]
            exact ih _ _ _ _
          | some node =>
            cases node with
            | file content =>
              dsimp only
              rw [hnode]
            | folder =>
              have hstays := nodeAt?_folder_of_keeps (adds_foldersMade nodes (at_ ++ [name])
                (names.take a)).extends.keeps hnode
              dsimp only
              rw [hstays]
              exact ih _ _ _ _

/-- Where the folders are there, none is made on any part of the way. -/
theorem foldersMade_of_follow? {nodes : Ledger Node} {at_ names found : List String}
    (h : follow? nodes at_ names = .ok found) (count : Nat) :
    foldersMade nodes at_ (names.take count) = nodes := by
  induction names generalizing at_ count with
  | nil => rw [List.take_nil, foldersMade]
  | cons name names ih =>
    cases count with
    | zero => rfl
    | succ count =>
      rw [List.take_succ_cons, foldersMade]
      rcases follow?_cons_eq_ok.1 h with ⟨hup, h⟩ | ⟨hup, hfolder, h⟩
      · rw [if_pos hup]
        exact ih h count
      · rw [if_neg hup, hfolder]
        exact ih h count

/-- Where the folders are there, none is to be made. -/
theorem makeFolders?_of_follow? {nodes : Ledger Node} {at_ names found : List String}
    (h : follow? nodes at_ names = .ok found) : makeFolders? nodes at_ names = .ok nodes := by
  induction names generalizing at_ with
  | nil => rfl
  | cons name names ih =>
    rw [makeFolders?]
    rcases follow?_cons_eq_ok.1 h with ⟨hup, h⟩ | ⟨hup, hfolder, h⟩
    · rw [if_pos hup]
      exact ih h
    · rw [if_neg hup, hfolder]
      exact ih h

/-! ### Places -/

theorem place_append (names : List String) (name : String) :
    place (names ++ [name]) = place names ++ "/" ++ name := by
  rw [place, List.foldl_append]
  rfl

theorem place_append_ne {names : List String} {a b : String} (h : a ≠ b) :
    place (names ++ [a]) ≠ place (names ++ [b]) := by
  rw [place_append, place_append]
  intro heq
  have hlist := congrArg String.toList heq
  simp only [String.toList_append, List.append_cancel_left_eq] at hlist
  exact h (String.toList_inj.1 hlist)

theorem place_ne_place_append (names : List String) (name : String) :
    place names ≠ place (names ++ [name]) := by
  rw [place_append]
  intro heq
  have hlength := congrArg (fun s => s.toList.length) heq
  simp only [String.toList_append, List.length_append] at hlength
  have hslash : "/".toList.length = 1 := rfl
  omega

/-! ### Paths -/

variable {disk later : Disk} {path : Path}

/-- **Where a path leads**: to a name in a folder, or through its last name, which leads out of a
folder again, or nowhere from where it starts. -/
theorem locate?_cases {names : List String} (h : disk.locate? path = .ok names) :
    (∃ name folder, path.fileName? = some name ∧
      follow? disk.nodes (disk.start path) path.parts.dropLast = .ok folder ∧
      names = folder ++ [name]) ∨
    path.fileName? = none ∧ follow? disk.nodes (disk.start path) path.parts = .ok names := by
  rw [locate?] at h
  cases hname : path.fileName? with
  | none =>
    rw [hname] at h
    exact .inr ⟨rfl, h⟩
  | some name =>
    rw [hname] at h
    dsimp only at h
    cases hfolder : follow? disk.nodes (disk.start path) path.parts.dropLast with
    | error fault =>
      rw [hfolder] at h
      exact absurd h (by simp [Except.map])
    | ok folder =>
      rw [hfolder] at h
      exact .inl ⟨name, folder, rfl, rfl, (Except.ok.inj h).symm⟩

/-- A file is in the folder that the path leads through. -/
theorem locate?_of_fileName? {name : String} {folder : List String}
    (hname : path.fileName? = some name)
    (hfolder : follow? disk.nodes (disk.start path) path.parts.dropLast = .ok folder) :
    disk.locate? path = .ok (folder ++ [name]) := by
  rw [locate?, hname]
  dsimp only
  rw [hfolder]
  rfl

theorem locate?_of_fileName?_eq_none (hname : path.fileName? = none) :
    disk.locate? path = follow? disk.nodes (disk.start path) path.parts := by
  rw [locate?, hname]

theorem start_congr (hhere : later.here = disk.here) (path : Path) :
    later.start path = disk.start path := by
  rw [start, start, hhere]

theorem locate?_of_keeps (hhere : later.here = disk.here) (hkeeps : Keeps disk.nodes later.nodes)
    {names : List String} (h : disk.locate? path = .ok names) :
    later.locate? path = .ok names := by
  have hstart := start_congr hhere path
  rcases locate?_cases h with ⟨name, folder, hname, hfolder, rfl⟩ | ⟨hname, hfollow⟩
  · rw [← hstart] at hfolder
    exact locate?_of_fileName? hname (follow?_of_keeps hkeeps hfolder)
  · rw [locate?_of_fileName?_eq_none hname, hstart]
    exact follow?_of_keeps hkeeps hfollow

/-- A path can be located once the folder around what it names can be reached. -/
theorem locate?_of_follow? {folder : List String}
    (h : follow? disk.nodes (disk.start path) path.parts.dropLast = .ok folder) :
    ∃ names, disk.locate? path = .ok names := by
  cases hname : path.fileName? with
  | some name => exact ⟨_, locate?_of_fileName? hname h⟩
  | none =>
    rw [locate?_of_fileName?_eq_none hname]
    rcases List.eq_nil_or_concat path.parts with hparts | ⟨front, last, hparts⟩
    · rw [hparts]
      exact ⟨_, rfl⟩
    · -- The last name leads out of the folder again.
      rw [List.concat_eq_append] at hparts
      have hlast : last = ".." := by
        rw [Path.fileName?, hparts, List.getLast?_concat] at hname
        simpa using hname
      rw [hparts, List.dropLast_concat] at h
      rw [hparts, follow?_append h, hlast]
      exact ⟨_, rfl⟩

/-- What an operation finds at the spot of a file. -/
theorem fileSpot?_eq_ok {spot : String} {content : Option Bytes}
    (h : disk.fileSpot? path = .ok (spot, content)) :
    ∃ names, disk.locate? path = .ok names ∧ names ≠ [] ∧ spot = place names ∧
      path.closed = false ∧ disk.nodes.get? spot = content.map Node.file := by
  rw [fileSpot?] at h
  cases hlocate : disk.locate? path with
  | error fault =>
    rw [hlocate] at h
    exact absurd h (by simp [bind, Except.bind])
  | ok names =>
    rw [hlocate] at h
    -- The root is a folder, so it is no spot for a file.
    have hne : names ≠ [] := by
      rintro rfl
      exact absurd h (by simp [bind, Except.bind, nodeAt?])
    refine ⟨names, rfl, hne, ?_⟩
    dsimp only [bind, Except.bind] at h
    rw [nodeAt?_eq_get? hne] at h
    cases hnode : disk.nodes.get? (place names) with
    | none =>
      rw [hnode] at h
      dsimp only at h
      split at h
      · exact absurd h (by simp)
      · next hclosed =>
        obtain ⟨rfl, rfl⟩ := Prod.mk.inj (Except.ok.inj h)
        exact ⟨rfl, by simpa using hclosed, hnode⟩
    | some node =>
      rw [hnode] at h
      cases node with
      | folder => exact absurd h (by simp)
      | file old =>
        dsimp only at h
        split at h
        · exact absurd h (by simp)
        · next hclosed =>
          obtain ⟨rfl, rfl⟩ := Prod.mk.inj (Except.ok.inj h)
          exact ⟨rfl, by simpa using hclosed, hnode⟩

theorem get?_ne_folder_of_fileSpot? {spot : String} {content : Option Bytes}
    (h : disk.fileSpot? path = .ok (spot, content)) : disk.nodes.get? spot ≠ some .folder := by
  obtain ⟨names, -, -, -, -, hget⟩ := fileSpot?_eq_ok h
  rw [hget]
  cases content <;> simp

/-- The file at a place is what a path that leads there reads. -/
theorem read_of_get? {names : List String} {content : Bytes}
    (hlocate : disk.locate? path = .ok names) (hne : names ≠ []) (hclosed : path.closed = false)
    (hget : disk.nodes.get? (place names) = some (.file content)) :
    disk.read path = .ok content := by
  rw [read, node?, hlocate]
  dsimp only [bind, Except.bind]
  rw [nodeAt?_eq_get? hne, hget]
  dsimp only
  rw [if_neg (by simpa using hclosed)]

/-- A path reads the same as before if the change was at another place. -/
theorem read_of_sameBut {names : List String} {spot : String} (hhere : later.here = disk.here)
    (hsame : SameBut spot disk.nodes later.nodes) (hlocate : disk.locate? path = .ok names)
    (hne : place names ≠ spot) : later.read path = disk.read path := by
  have hnode : nodeAt? later.nodes names = nodeAt? disk.nodes names := by
    rw [nodeAt?, nodeAt?]
    split
    · rfl
    -- The place of the file is not the one at which something changed.
    · rcases hsame (place names) with h | ⟨h, -⟩
      · exact h
      · exact absurd h hne
  rw [read, read, node?, node?, hlocate, locate?_of_keeps hhere hsame.keeps hlocate]
  dsimp only [bind, Except.bind]
  rw [hnode]

/-- The name of a temporary file is that of no file beside it, and does not lead anywhere else. -/
theorem temporary_name_ne (name : String) : name ≠ name ++ ".tmp" ∧ name ++ ".tmp" ≠ ".." := by
  have hlength : (name ++ ".tmp").toList.length = name.toList.length + 4 := by
    rw [String.toList_append, List.length_append]
    rfl
  constructor
  · intro heq
    have hsame := congrArg (fun s => s.toList.length) heq
    simp only [hlength] at hsame
    omega
  · intro heq
    have hsame := congrArg (fun s => s.toList.length) heq
    have hdots : "..".toList.length = 2 := rfl
    simp only [hlength, hdots] at hsame
    omega

/-- The temporary file beside a file is at another place. -/
theorem locate?_temporary {names : List String} (h : disk.locate? path = .ok names) :
    ∃ other, disk.locate? path.temporary = .ok other ∧ place names ≠ place other := by
  rcases locate?_cases h with ⟨name, folder, hname, hfolder, rfl⟩ | ⟨hname, hfollow⟩
  · have hparts : path.temporary.parts = path.parts.dropLast ++ [name ++ ".tmp"] := by
      rw [Path.temporary, Path.withFileName, hname]
      rfl
    have hother : path.temporary.fileName? = some (name ++ ".tmp") := by
      rw [Path.fileName?, hparts, List.getLast?_concat]
      exact Option.filter_eq_some_iff.2 ⟨rfl, decide_eq_true (temporary_name_ne name).2⟩
    refine ⟨folder ++ [name ++ ".tmp"], locate?_of_fileName? hother ?_,
      place_append_ne (temporary_name_ne name).1⟩
    rw [hparts, List.dropLast_concat]
    exact hfolder
  · -- The path names a folder, and the temporary file is in it.
    have hparts : path.temporary.parts = path.parts ++ [".tmp"] := by
      rw [Path.temporary, Path.withFileName, hname]
      rfl
    have hother : path.temporary.fileName? = some ".tmp" := by
      rw [Path.fileName?, hparts, List.getLast?_concat]
      rfl
    refine ⟨names ++ [".tmp"], locate?_of_fileName? hother ?_, place_ne_place_append names ".tmp"⟩
    rw [hparts, List.dropLast_concat]
    exact hfollow

end DeviceScope.Disk
