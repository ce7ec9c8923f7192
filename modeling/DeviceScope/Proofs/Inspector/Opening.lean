import DeviceScope.Inspector.Basic
import DeviceScope.Proofs.Cache.Mirror
import DeviceScope.Proofs.Store.Saving

/-!
# What the inspector leaves alone

Before it does anything with a store the inspector makes the folder that the store is in, if its
path was not given, and opens the store (`Inspector.openCache_cases`). Looking changes nothing
else, and neither does a file of identities that cannot be read: all files are spared
(`Inspector.spares_perform_of_not_writes`, `Inspector.spares_perform_of_unreadable`).
-/

namespace DeviceScope.Inspector

open Disk

/-! ### The folder of the store -/

/-- No file is changed, made or removed: only folders are made where there was nothing, and not even
these if the path of the store is given. -/
structure Spares (given : Option String) (before later : Disk) : Prop where
  here : later.here = before.here
  adds : Adds before.nodes later.nodes
  same : given ≠ none → later = before

theorem Spares.refl (given : Option String) (disk : Disk) : Spares given disk disk :=
  ⟨rfl, .refl _, fun _ => rfl⟩

theorem spares_of_makeFolders {disk later : Disk} {path : Path} {result : Except FileFault Unit}
    (h : disk.perform (.makeFolders path) = (result, later)) : Spares none disk later := by
  refine ⟨here_of_perform h, ?_, fun hgiven => absurd rfl hgiven⟩
  cases result with
  | error fault =>
    obtain ⟨count, hnodes⟩ := nodes_of_makeFolders_error h
    rw [hnodes]
    exact adds_foldersMade _ _ _
  | ok =>
    rw [← foldersMade_of_makeFolders? (after?_of_perform h)]
    exact adds_foldersMade _ _ _

theorem spares_locateStore (environment : Environment) (disk : Disk) (given : Option String) :
    Spares given disk (locateStore environment disk given).2 := by
  cases given with
  | some path => exact .refl _ disk
  | none =>
    rw [locateStore]
    split
    · exact .refl _ disk
    · dsimp only
      split
      · next later hmade => exact spares_of_makeFolders hmade
      · next fault later hmade => exact spares_of_makeFolders hmade

theorem reports_locateStore (environment : Environment) {disk : Disk} (given : Option String)
    (h : Reports disk.hazards) : Reports (locateStore environment disk given).2.hazards := by
  have hmade (folder : Path) : Reports (disk.perform (.makeFolders folder)).2.hazards := by
    rw [hazards_perform, ← List.drop_one]
    exact h.drop 1
  cases given with
  | some path => exact h
  | none =>
    rw [locateStore]
    split
    · exact h
    · dsimp only
      split
      all_goals
        next later hfolder =>
        obtain rfl : _ = later := congrArg Prod.snd hfolder
        exact hmade _

/-! ### Where the store is -/

/-- A file in a folder has a name more than the folder. -/
theorem ofText_join {folder name : String} (hne : folder ≠ "")
    (hslash : folder.toList.getLast? ≠ some '/') (hname : '/' ∉ name.toList)
    (hidle : Path.isIdle name.toList = false) :
    (Path.ofText (Path.join folder name)).parts = (Path.ofText folder).parts ++ [name] ∧
      (Path.ofText (Path.join folder name)).absolute = (Path.ofText folder).absolute := by
  have hrelative : name.toList.head? ≠ some '/' := fun h => hname (List.mem_of_head? h)
  have hjoin : (Path.join folder name).toList = folder.toList ++ '/' :: name.toList := by
    rw [Path.join, if_neg (by simp [hrelative, hne]), if_neg hslash, String.toList_append,
      String.toList_append, List.append_assoc]
    rfl
  constructor
  · rw [Path.ofText, Path.ofText, hjoin, Pieces.ofText_append, Pieces.ofText_of_not_mem hname]
    dsimp only
    rw [List.filter_append, List.map_append, List.filter_cons, if_pos (by rw [hidle]; rfl)]
    simp
  · rw [Path.ofText, Path.ofText, hjoin]
    dsimp only
    cases hfolder : folder.toList with
    | nil => exact absurd (String.toList_inj.1 hfolder) hne
    | cons c cs => rfl

/-- The folder of a store whose path is not given. -/
def standardFolder (data : String) : String := Path.join data "edge-scope"

/-- The path that a request opens. -/
def storePath? (environment : Environment) (given : Option String) : Option String :=
  given.or ((dataFolder? environment).map fun data => Path.join (standardFolder data) "scope.json")

/-- The name of the folder stands at the end of its path. -/
theorem standardFolder_spec (data : String) :
    standardFolder data ≠ "" ∧ (standardFolder data).toList.getLast? ≠ some '/' := by
  have hend : ∃ front, (standardFolder data).toList = front ++ "edge-scope".toList := by
    rw [standardFolder, Path.join]
    split
    · exact ⟨[], rfl⟩
    · split
      · exact ⟨data.toList, String.toList_append⟩
      · exact ⟨(data ++ "/").toList, String.toList_append⟩
  obtain ⟨front, hend⟩ := hend
  constructor
  · intro h
    rw [h] at hend
    exact absurd hend (by simp)
  · rw [hend]
    simp

/-- **The store that is opened is the one at its path**, and the path names the same file still once
the folder of a store whose path is not given is made. -/
theorem read_locateStore {environment : Environment} {given : Option String} {path : String}
    {disk : Disk} (hpath : storePath? environment given = some path)
    (hsettled : given = none → disk.Settled path) :
    (∀ found, (locateStore environment disk given).1 = .ok found → found = path) ∧
      (locateStore environment disk given).2.read path = disk.read path := by
  cases given with
  | some given =>
    obtain rfl := Option.some.inj hpath
    exact ⟨fun found hfound => (Except.ok.inj hfound).symm, rfl⟩
  | none =>
    obtain ⟨data, hdata, rfl⟩ := Option.map_eq_some_iff.1 hpath
    obtain ⟨hne, hslash⟩ := standardFolder_spec data
    have hname : '/' ∉ "scope.json".toList := by decide
    obtain ⟨hparts, habsolute⟩ := ofText_join hne hslash hname rfl
    have hfolder : (Path.ofText (standardFolder data)).parts =
        (Path.ofText (Path.join (standardFolder data) "scope.json")).parts.dropLast := by
      rw [hparts, List.dropLast_concat]
    rw [locateStore, hdata]
    dsimp only
    rw [← standardFolder]
    -- The folder that is made is that of the file, as when a put makes it.
    cases hmade : disk.perform (.makeFolders (standardFolder data)) with
    | mk result made =>
      have hunsaved := (FileStore.unsaved_of_makeFolders hfolder habsolute.symm hmade).1
      cases result with
      | ok => exact ⟨fun found hfound => (Except.ok.inj hfound).symm,
          hunsaved.read_of_settled (hsettled rfl)⟩
      | error fault => exact ⟨fun found hfound => absurd hfound (by simp),
          hunsaved.read_of_settled (hsettled rfl)⟩

/-! ### Opening the store -/

variable {environment : Environment} {disk : Disk} {now : Timestamp} {request : Request}
  {command : Command} {path : String} {cache : Cache DiskStore}

/-- Settings that are read are in order. -/
theorem validate_of_loadConfig {given : Option String} {config : Config}
    (h : loadConfig disk given = .ok config) : config.validate = .ok () := by
  cases given with
  | none =>
    obtain rfl := Except.ok.inj h
    rfl
  | some file =>
    rw [loadConfig] at h
    split at h
    · next read hload =>
      obtain rfl := Except.ok.inj h
      -- Only here does it matter where the settings are read.
      rw [Config.load] at hload
      split at hload
      · exact absurd hload (by simp)
      · split at hload
        · exact absurd hload (by simp)
        · rw [Config.ofToml] at hload
          split at hload
          · exact absurd hload (by simp)
          · next found hfound =>
            cases hvalid : found.validate with
            | error error =>
              rw [hvalid] at hload
              exact absurd hload (by simp [Except.map])
            | ok =>
              rw [hvalid] at hload
              obtain rfl := Except.ok.inj hload
              exact hvalid
    · exact absurd h (by simp)

/-- A cache over the store at a path, as it is when it has just been opened. -/
structure IsOpened (environment : Environment) (disk : Disk) (request : Request) (path : String)
    (cache : Cache DiskStore) : Prop where
  config : ∃ config, loadConfig disk request.config = .ok config
  located : locateStore environment disk request.store = (.ok path, cache.store.disk)
  load : FileStore.load cache.store.disk path = .ok cache.store.store
  mirrors : Cache.Mirrors cache.records cache.store.store.data

theorem IsOpened.spares (h : IsOpened environment disk request path cache) :
    Spares request.store disk cache.store.disk := by
  have hspares := spares_locateStore environment disk request.store
  rwa [h.located] at hspares

/-- What is to befall the disk is what was to befall it before, but for the folder of the store. -/
theorem IsOpened.reports (h : IsOpened environment disk request path cache)
    (hreports : Reports disk.hazards) : Reports cache.store.disk.hazards := by
  have hkept := reports_locateStore environment request.store hreports
  rwa [h.located] at hkept

/-- A store that can be opened is opened. -/
theorem openStore_of_load {config : Config} {store : FileStore}
    (hconfig : config.validate = .ok ()) (hload : FileStore.load disk path = .ok store) :
    ∃ cache, openStore disk config path = .ok cache ∧ cache.store = ⟨store, disk⟩ ∧
      Cache.Mirrors cache.records store.data := by
  obtain ⟨cache, hcreate⟩ :
      ∃ cache, Cache.create (⟨store, disk⟩ : DiskStore) config = .ok cache := by
    rw [Cache.create, hconfig]
    exact ⟨_, rfl⟩
  refine ⟨cache, ?_, (Cache.eq_of_create hcreate).1, ?_⟩
  · rw [openStore, hload]
    dsimp only
    rw [hcreate]
  · have hmirrors := Cache.mirrors_of_create hcreate
    rw [(Cache.eq_of_create hcreate).1] at hmirrors
    exact hmirrors

/-- **The store is opened if the settings hold, it has a place, and there is a store there.** -/
theorem exists_isOpened {config : Config} {made : Disk} {store : FileStore}
    (hconfig : loadConfig disk request.config = .ok config)
    (hlocated : locateStore environment disk request.store = (.ok path, made))
    (hload : FileStore.load made path = .ok store) :
    ∃ cache, openCache environment disk request = (.ok cache, made) ∧
      cache.store = ⟨store, made⟩ ∧ IsOpened environment disk request path cache := by
  obtain ⟨cache, hopen, hstore, hmirrors⟩ :=
    openStore_of_load (validate_of_loadConfig hconfig) hload
  refine ⟨cache, ?_, hstore, ⟨config, hconfig⟩, ?_, ?_, ?_⟩
  · rw [openCache, hconfig]
    dsimp only
    rw [hlocated]
    dsimp only
    rw [hopen]
  · rw [hstore, hlocated]
  · rw [hstore]
    exact hload
  · rw [hstore]
    exact hmirrors

/-- A disk on which the store has a place, or was not looked for. -/
def AtMostLocated (environment : Environment) (disk : Disk) (request : Request) (later : Disk) :
    Prop :=
  later = disk ∨ later = (locateStore environment disk request.store).2

theorem AtMostLocated.spares {later : Disk}
    (h : AtMostLocated environment disk request later) : Spares request.store disk later := by
  rcases h with rfl | rfl
  · exact .refl _ later
  · exact spares_locateStore environment disk request.store

/-- **Opening**: the store is opened, or something fails. -/
theorem openCache_cases (environment : Environment) (disk : Disk) (request : Request) :
    (∃ cache path, openCache environment disk request = (.ok cache, cache.store.disk) ∧
      IsOpened environment disk request path cache) ∨
    ∃ failure later, openCache environment disk request = (.error failure, later) ∧
      AtMostLocated environment disk request later := by
  -- There are three things that may fail before the store is open, one after another.
  cases hconfig : loadConfig disk request.config with
  | error failure =>
    refine .inr ⟨failure, disk, ?_, .inl rfl⟩
    rw [openCache, hconfig]
  | ok config =>
    cases hlocated : locateStore environment disk request.store with
    | mk result made =>
      have hmade : AtMostLocated environment disk request made := .inr (by rw [hlocated])
      cases result with
      | error failure =>
        refine .inr ⟨failure, made, ?_, hmade⟩
        rw [openCache, hconfig]
        dsimp only
        rw [hlocated]
      | ok path =>
        cases hload : FileStore.load made path with
        | error error =>
          refine .inr ⟨.notOpened path error, made, ?_, hmade⟩
          rw [openCache, hconfig]
          dsimp only
          rw [hlocated]
          dsimp only
          rw [openStore, hload]
        | ok store =>
          obtain ⟨cache, hcache, hstore, hopened⟩ := exists_isOpened hconfig hlocated hload
          refine .inl ⟨cache, path, ?_, hopened⟩
          rw [hcache, hstore]

/-- **What comes of a command**: it is obeyed over the store that was opened, or something failed
before. -/
theorem perform_cases (now : Timestamp) (hjob : request.job = .useStore command) :
    (∃ cache path, IsOpened environment disk request path cache ∧
      perform environment now disk request =
        ((obey cache now command).1, (obey cache now command).2.store.disk)) ∨
    ∃ failure later, perform environment now disk request = (.error failure, later) ∧
      AtMostLocated environment disk request later := by
  rcases openCache_cases environment disk request with
    ⟨cache, path, hopen, hopened⟩ | ⟨failure, later, hopen, hlater⟩
  · refine .inl ⟨cache, path, hopened, ?_⟩
    rw [perform, hjob]
    dsimp only
    rw [hopen]
  · refine .inr ⟨failure, later, ?_, hlater⟩
    rw [perform, hjob]
    dsimp only
    rw [hopen]

/-! ### Looking -/

/-- Whether a command is there to write. -/
def Command.writes : Command → Bool
  | .apply _ | .remove _ => true
  | .list _ | .detail _ | .verify _ | .stats => false

def Job.writes : Job → Bool
  | .useStore command => command.writes
  | .checkConfig => false

/-- A command that is not there to write leaves the cache as it is. -/
theorem obey_of_not_writes (h : command.writes = false) (cache : Cache DiskStore)
    (now : Timestamp) : (obey cache now command).2 = cache := by
  cases command with
  | list selection => rfl
  | detail id =>
    rw [obey]
    split <;> rfl
  | verify id =>
    rw [obey]
    split <;> rfl
  | stats => rfl
  | apply file => exact absurd h (by simp [Command.writes])
  | remove id => exact absurd h (by simp [Command.writes])

/-- **Looking spares all files.** -/
theorem spares_perform_of_not_writes (environment : Environment) (now : Timestamp) (disk : Disk)
    (h : request.job.writes = false) :
    Spares request.store disk (perform environment now disk request).2 := by
  cases hjob : request.job with
  | checkConfig =>
    rw [perform, hjob]
    exact .refl _ disk
  | useStore command =>
    rw [hjob] at h
    rcases perform_cases now hjob with ⟨cache, path, hopened, hperform⟩ |
      ⟨failure, later, hperform, hlater⟩
    · rw [hperform]
      dsimp only
      rw [obey_of_not_writes h]
      exact hopened.spares
    · rw [hperform]
      exact hlater.spares

/-- **A file of identities that cannot be read is refused**, and all files are spared. -/
theorem spares_perform_of_unreadable {file : String} (now : Timestamp)
    (hjob : request.job = .useStore (.apply file))
    (h : ∀ identities,
      identitiesIn (locateStore environment disk request.store).2 file ≠ .ok identities) :
    (∃ failure, (perform environment now disk request).1 = .error failure) ∧
      Spares request.store disk (perform environment now disk request).2 := by
  rcases perform_cases now hjob with ⟨cache, path, hopened, hperform⟩ |
    ⟨failure, later, hperform, hlater⟩
  · rw [hopened.located] at h
    have hobey : ∃ failure, obey cache now (.apply file) = (.error failure, cache) := by
      rw [obey]
      split
      · next failure _ => exact ⟨failure, rfl⟩
      · next identities hread => exact absurd hread (h identities)
    obtain ⟨failure, hobey⟩ := hobey
    rw [hperform, hobey]
    exact ⟨⟨failure, rfl⟩, hopened.spares⟩
  · rw [hperform]
    exact ⟨⟨failure, rfl⟩, hlater.spares⟩

end DeviceScope.Inspector
