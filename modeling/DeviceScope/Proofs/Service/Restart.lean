import DeviceScope.Proofs.Cache.Mirror
import DeviceScope.Proofs.Service.Course
import DeviceScope.Proofs.Store.Durability

/-!
# Restarts

Whatever has happened to a gateway, its records are what can be read of its store. So a gateway
that is started anew over the same store knows what the old one knew
(`World.records_survive_restart`).

For a store in a file there are two exceptions. A write may fail without saying so; the put succeeds
and the records change, but the file is spoiled (`World.not_restored_after_lost_write`). And the
path may go through a folder that is missing, and out of it again, to a file that has been there all
the time. The store then opens without entries, and its first put makes the folder. When this put
fails nevertheless, the path names that other file from now on
(`World.not_restored_through_missing_folder`). `Disk.Reports` and `Disk.Settled` exclude these.
-/

namespace DeviceScope.World

variable {σ : Type}

section Along

variable [FallibleStore σ] {start world : World σ} {log : List Attempt}

/-- The records mirror the store along every course. -/
theorem Course.mirrors {allowed : World σ → Event σ → Prop} (h : Course allowed start log world)
    (hstart : Cache.Mirrors start.cache.records (KeyValueStore.contents start.cache.store)) :
    Cache.Mirrors world.cache.records (KeyValueStore.contents world.cache.store) := by
  refine h.cache_induction
    (P := fun store records => Cache.Mirrors records (KeyValueStore.contents store)) hstart ?_ ?_
  · intro cache record hmirrors
    exact hmirrors.write record
  · intro later store _ hbefalls hmirrors
    rwa [FallibleStore.contents_of_befalls hbefalls]

end Along

/-- **No write to the disk fails without saying so**, whatever else befalls it. -/
def reportsWrites (_ : World DiskStore) (event : Event DiskStore) : Prop :=
  ∀ store, event = .trouble store → Disk.Reports store.disk.hazards

/-- A store in a file stays filed along a course on which no write fails without saying so, and in
the same file. -/
theorem Course.isFiled {start world : World DiskStore} {log : List Attempt}
    (h : Course reportsWrites start log world) (hstart : start.cache.store.IsFiled)
    (hreports : Disk.Reports start.cache.store.disk.hazards) :
    world.cache.store.IsFiled ∧
      world.cache.store.store.path = start.cache.store.store.path := by
  have hkept := h.cache_induction (P := fun store _ =>
    store.IsFiled ∧ store.store.path = start.cache.store.store.path ∧
      Disk.Reports store.disk.hazards) ⟨hstart, rfl, hreports⟩ ?_ ?_
  · exact ⟨hkept.1, hkept.2.1⟩
  · rintro cache record ⟨hfiled, hpath, hreports⟩
    rcases Cache.store_write_cases cache record with hstore | ⟨text, hstore⟩
    · rw [hstore]
      exact ⟨hfiled, hpath, hreports⟩
    · rw [hstore]
      exact ⟨hfiled.put hreports _ _, (DiskStore.path_put _ _ _).trans hpath,
        DiskStore.reports_put hreports _ _⟩
  · rintro later store hallowed ⟨hazards, rfl⟩ ⟨hfiled, hpath, -⟩
    exact ⟨hfiled.befall hazards, hpath, hallowed _ rfl⟩

/-- **What was known is known after a restart.** Let a cache be made over any store, and let
anything happen. Then the records are what can be read of the store, and a cache that is made over
the store at this moment has the same records and counts them.

For a store that was opened from a file, opening the file again gives a store that does this too, if
its path was settled when it was opened and no write fails without saying so. -/
theorem records_survive_restart (config : Config) (clock : Int) (directory : Directory)
    (log : List Attempt) :
    (∀ (σ : Type) [FallibleStore σ] (store : σ) (cache : Cache σ) (world : World σ),
      Cache.create store config = .ok cache →
      Course anything (World.start clock directory cache config) log world →
      Cache.Mirrors world.cache.records (KeyValueStore.contents world.cache.store) ∧
        world.cache.IsRestoredFrom world.cache.store) ∧
    (∀ (disk : Disk) (path : Path) (store : FileStore) (cache : Cache DiskStore)
      (world : World DiskStore),
      FileStore.load disk path = .ok store → disk.Settled path → Disk.Reports disk.hazards →
      Cache.create (⟨store, disk⟩ : DiskStore) config = .ok cache →
      Course reportsWrites (World.start clock directory cache config) log world →
      ∃ reopened, FileStore.load world.cache.store.disk path = .ok reopened ∧
        world.cache.IsRestoredFrom (⟨reopened, world.cache.store.disk⟩ : DiskStore)) := by
  refine ⟨?_, ?_⟩
  · intro σ _ store cache world hcreate hcourse
    have hmirrors := hcourse.mirrors (Cache.mirrors_of_create hcreate)
    exact ⟨hmirrors, hmirrors.isRestoredFrom⟩
  · intro disk path store cache world hload hsettled hreports hcreate hcourse
    have hmirrors := hcourse.mirrors (Cache.mirrors_of_create hcreate)
    have hstore : cache.store = ⟨store, disk⟩ := (Cache.eq_of_create hcreate).1
    have hstart : (World.start clock directory cache config).cache.store.IsFiled := by
      show cache.store.IsFiled
      rw [hstore]
      exact .of_load hload hsettled
    have htold :
        Disk.Reports (World.start clock directory cache config).cache.store.disk.hazards := by
      show Disk.Reports cache.store.disk.hazards
      rw [hstore]
      exact hreports
    obtain ⟨hfiled, hpath⟩ := hcourse.isFiled hstart htold
    -- The store in memory is the one that its file opens as, so nothing is lost by opening it.
    have hsame : world.cache.store.store.path = path := by
      rw [hpath]
      show cache.store.store.path = path
      rw [hstore]
      exact FileStore.path_of_load hload
    refine ⟨world.cache.store.store, ?_, hmirrors.isRestoredFrom⟩
    rw [← hsame]
    exact hfiled.load

/-- After an update, over a store with an entry that is no record and over a file that does not
exist yet. -/
theorem records_survive_restart_after_update :
    (∃ (cache : Cache MemoryStore) (log : List Attempt) (world : World MemoryStore),
      Cache.create (.ofEntries ((∅ : Ledger String).insert "x" "")) .standard = .ok cache ∧
      Course anything (World.start 0 default cache .standard) log world ∧
      world.cache.IsRestoredFrom world.cache.store) ∧
    (∃ (cache : Cache DiskStore) (log : List Attempt) (world : World DiskStore),
      FileStore.load (.blank []) "scope.json" = .ok ⟨"scope.json", ∅⟩ ∧
      Disk.Settled (.blank []) "scope.json" ∧ Disk.Reports (Disk.blank []).hazards ∧
      Cache.create (⟨⟨"scope.json", ∅⟩, .blank []⟩ : DiskStore) .standard = .ok cache ∧
      Course reportsWrites (World.start 0 default cache .standard) log world ∧
      ∃ reopened, FileStore.load world.cache.store.disk "scope.json" = .ok reopened ∧
        world.cache.IsRestoredFrom (⟨reopened, world.cache.store.disk⟩ : DiskStore)) := by
  let update : Call := .update (.ofDevice "d" "1" .none .enabled)
  -- A call comes in and goes on.
  have hcourse : ∀ (σ : Type) [FallibleStore σ] (allowed : World σ → Event σ → Prop)
      (cache : Cache σ), (∀ world event, (∀ store, event ≠ .trouble store) → allowed world event) →
      ∃ log world, Course allowed (World.start 0 default cache .standard) log world := by
    intro σ _ allowed cache hallowed
    let start : World σ := .start 0 default cache .standard
    have hcalled : Course allowed start _ (start.after (.call update)) :=
      .next .here (hallowed _ _ (by simp)) trivial
    have hdone : Course allowed start _ ((start.after (.call update)).after (.goOn 0)) :=
      hcalled.next (hallowed _ _ (by simp)) rfl
    exact ⟨_, _, hdone⟩
  have hname : (Path.ofText "scope.json").fileName? = some "scope.json" := by decide
  have hfolder : (Path.ofText "scope.json").parts.dropLast = [] := by decide
  have hlocate : Disk.locate? (.blank []) "scope.json" = .ok ["scope.json"] := by
    rw [Disk.locate?, hname, hfolder]
    rfl
  have hload : FileStore.load (.blank []) "scope.json" = .ok ⟨"scope.json", ∅⟩ := by
    rw [FileStore.load, Disk.read, Disk.node?, hlocate]
    rfl
  have hsettled : Disk.Settled (.blank []) "scope.json" := Disk.settled_of_locate? hlocate
  refine ⟨?_, ?_⟩
  · obtain ⟨log, world, h⟩ := hcourse MemoryStore anything _ fun _ _ _ => trivial
    exact ⟨_, log, world, rfl, h, ((records_survive_restart _ _ _ log).1 _ _ _ _ rfl h).2⟩
  · obtain ⟨log, world, h⟩ := hcourse DiskStore reportsWrites _
      fun _ _ hne store heq => absurd heq (hne store)
    have hreports : Disk.Reports (Disk.blank []).hazards :=
      fun _ hmem => absurd hmem List.not_mem_nil
    exact ⟨_, log, world, hload, hsettled, hreports, rfl, h,
      (records_survive_restart _ _ _ log).2 _ _ _ _ _ hload hsettled hreports rfl h⟩

end DeviceScope.World

/-! ### A write that is lost -/

namespace DeviceScope.World

/-- A gateway over any cache that is asked to remove an id does so. -/
theorem exists_removed (cache : Cache DiskStore) (id : String) :
    ∃ log world, Course anything (World.start 0 default cache .standard) log world ∧
      world.cache.store = (cache.write (.absent id (.utc 0))).2.store ∧
      world.cache.records = (cache.write (.absent id (.utc 0))).2.records := by
  let called : World DiskStore := (World.start 0 default cache .standard).begin (.removal id)
  have hcourse : Course anything (World.start 0 default cache .standard)
      ([] ++ World.attempts _ (.call (.removal id)) ++ called.attempts (.goOn 0))
      (called.after (.goOn 0)) :=
    .next (.next .here trivial trivial) trivial rfl
  have hcache := uncounted_step called 0
  have hstore : (called.step 0).cache.store = (cache.write (.absent id (.utc 0))).2.store :=
    (congrArg Cache.store hcache).trans rfl
  have hrecords : (called.step 0).cache.records = (cache.write (.absent id (.utc 0))).2.records :=
    (congrArg Cache.records hcache).trans rfl
  exact ⟨_, _, hcourse, hstore, hrecords⟩

/-- A cache over a store whose file does not exist yet, and whose next write will be lost. -/
def lossyCache : Cache DiskStore :=
  ⟨DiskStore.fresh.facing (DiskStore.broken true ""), ∅, .ofCapacity 64, .ofSeconds 300, 0, 0, 0, 0⟩

theorem load_lossyCache :
    FileStore.load lossyCache.store.disk "scope.json" = .ok lossyCache.store.store := rfl

theorem settled_lossyCache : lossyCache.store.disk.Settled "scope.json" :=
  have hlocate : lossyCache.store.disk.locate? "scope.json" = .ok ["scope.json"] := rfl
  Disk.settled_of_locate? hlocate

theorem create_lossyCache : Cache.create lossyCache.store .standard = .ok lossyCache := by
  have hconfig : Config.standard.validate = .ok () := rfl
  rw [Cache.create, hconfig]
  rfl

/-- A removal is written as it seems, and afterwards the store does not open any more. -/
theorem write_lossyCache :
    FileStore.load (lossyCache.write (.absent "x" (.utc 0))).2.store.disk "scope.json" =
      .error (.serialization syntaxDetail) := by
  let record : Record := .absent "x" (.utc 0)
  obtain ⟨text, hencode⟩ : ∃ text, record.encode = .ok text :=
    Record.encode_of_isWritable (by decide)
  obtain ⟨hok, hload⟩ := DiskStore.serve_broken text
  have hput : KeyValueStore.put lossyCache.store record.id text =
      (.ok (), (DiskStore.fresh.serve (DiskStore.broken true text)).2) := by
    show DiskStore.fresh.serve (DiskStore.broken true text) = _
    rw [← hok]
  have hstore : (lossyCache.write record).2.store =
      (DiskStore.fresh.serve (DiskStore.broken true text)).2 := by
    rw [Cache.write, hencode]
    dsimp only
    rw [hput]
  rw [hstore]
  exact hload

/-- **What was known may be lost in a restart**, if a write fails without saying so: the put
succeeds, and the file does not open any more. -/
theorem not_restored_after_lost_write :
    ¬ ∀ (disk : Disk) (path : Path) (store : FileStore) (config : Config)
      (cache : Cache DiskStore) (clock : Int) (directory : Directory) (log : List Attempt)
      (world : World DiskStore),
      FileStore.load disk path = .ok store → disk.Settled path →
      Cache.create (⟨store, disk⟩ : DiskStore) config = .ok cache →
      Course anything (World.start clock directory cache config) log world →
      ∃ reopened, FileStore.load world.cache.store.disk path = .ok reopened ∧
        world.cache.IsRestoredFrom (⟨reopened, world.cache.store.disk⟩ : DiskStore) := by
  intro h
  obtain ⟨log, world, hcourse, hstore, -⟩ := exists_removed lossyCache "x"
  obtain ⟨reopened, hload, -⟩ :=
    h _ _ _ _ _ _ _ _ _ load_lossyCache settled_lossyCache create_lossyCache hcourse
  rw [hstore, write_lossyCache] at hload
  exact absurd hload (by simp)

end DeviceScope.World

/-! ### A path that changes its file -/

namespace DeviceScope.Rerouted

/-- A cache over the store that was opened without entries. -/
def cache (content : Bytes) : Cache DiskStore :=
  ⟨⟨⟨path, ∅⟩, disk content⟩, ∅, .ofCapacity 64, .ofSeconds 300, 0, 0, 0, 0⟩

theorem create_disk (content : Bytes) :
    Cache.create (⟨⟨path, ∅⟩, disk content⟩ : DiskStore) .standard = .ok (cache content) := by
  have hconfig : Config.standard.validate = .ok () := rfl
  rw [Cache.create, hconfig]
  rfl

/-- A removal fails for want of a store that would take it, and afterwards the path leads to the
file. -/
theorem write_cache (content : Bytes) :
    ((cache content).write (.absent "x" (.utc 0))).2.records = ∅ ∧
      ((cache content).write (.absent "x" (.utc 0))).2.store.disk.read path = .ok content := by
  let record : Record := .absent "x" (.utc 0)
  obtain ⟨text, hencode⟩ : ∃ text, record.encode = .ok text :=
    Record.encode_of_isWritable (by decide)
  obtain ⟨later, hnodes, hhere, hput⟩ := put_disk content record.id text
  have hstore : KeyValueStore.put (cache content).store record.id text =
      (.error FileStore.ioError, (⟨⟨path, ∅⟩, later⟩ : DiskStore)) := by
    show DiskStore.put ⟨⟨path, ∅⟩, disk content⟩ record.id text = _
    rw [DiskStore.put, hput]
  have hwrite : (cache content).write record =
      (.error (.store FileStore.ioError), { cache content with store := ⟨⟨path, ∅⟩, later⟩ }) := by
    rw [Cache.write, hencode]
    dsimp only
    rw [hstore]
  show ((cache content).write record).2.records = ∅ ∧
    ((cache content).write record).2.store.disk.read path = .ok content
  rw [hwrite]
  exact ⟨rfl, read_later hnodes hhere⟩

end DeviceScope.Rerouted

namespace DeviceScope.World

/-- **A store may be lost from sight** at a path that leads through a missing folder and out of it
again: after a put that failed, the path names a file that the store knows nothing of. -/
theorem not_restored_through_missing_folder :
    ¬ ∀ (disk : Disk) (path : Path) (store : FileStore) (config : Config)
      (cache : Cache DiskStore) (clock : Int) (directory : Directory) (log : List Attempt)
      (world : World DiskStore),
      FileStore.load disk path = .ok store →
      Cache.create (⟨store, disk⟩ : DiskStore) config = .ok cache →
      Course anything (World.start clock directory cache config) log world →
      ∃ reopened, FileStore.load world.cache.store.disk path = .ok reopened ∧
        world.cache.IsRestoredFrom (⟨reopened, world.cache.store.disk⟩ : DiskStore) := by
  intro h
  obtain ⟨text, hencode⟩ : ∃ text, (Record.absent "d" (.utc 0)).encode = .ok text :=
    Record.encode_of_isWritable (by decide)
  let content : Bytes := (Snapshot.ofEntries ((∅ : Ledger String).insert "d" text)).toBytes
  obtain ⟨log, world, hcourse, hstore, hrecords⟩ := exists_removed (Rerouted.cache content) "x"
  obtain ⟨reopened, hload, hrestored⟩ := h _ _ _ _ _ _ _ _ _
    (Rerouted.load_disk content) (Rerouted.create_disk content) hcourse
  -- Opened again, the store holds the entry of the file, and so a record.
  have hreopened : reopened.data = (∅ : Ledger String).insert "d" text := by
    rw [hstore, FileStore.load, (Rerouted.write_cache content).2] at hload
    dsimp only at hload
    rw [FileStore.entriesOfBytes, Snapshot.ofBytes?_toBytes] at hload
    rw [← Except.ok.inj hload]
    rfl
  obtain ⟨fresh, hcreate, hsame, -, -⟩ := hrestored .standard _ rfl rfl
  have hfound : fresh.records.get? "d" = some (.absent "d" (.utc 0)) := by
    refine (Cache.mirrors_of_create hcreate "d" _).2 ⟨text, ?_, Record.decode_encode hencode⟩
    rw [(Cache.eq_of_create hcreate).1]
    show reopened.data.get? "d" = some text
    rw [hreopened]
    exact Ledger.get?_insert_self _ _ _
  have hnone : fresh.records.get? "d" = none := by
    rw [hsame, hrecords, (Rerouted.write_cache content).1]
    rfl
  rw [hnone] at hfound
  exact absurd hfound (by simp)

end DeviceScope.World
