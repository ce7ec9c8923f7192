import DeviceScope.Proofs.Store.Saving
import DeviceScope.Proofs.Store.Snapshot

/-!
# A store in a file and its file

A put that succeeded has left in the file what was really written (`FileStore.read_of_put_ok`), and
one that failed has left the file as it was (`FileStore.load_of_put_error`), whatever befell the
disk in between. Together: as long as no write fails without saying so, the file opens at any time
as the store that is in memory (`DiskStore.IsFiled`).

The folders around the file are made before it is written, and they stay although the put may then
fail. So the second statement is for paths that name the same file with and without them
(`Disk.Settled`).
-/

namespace DeviceScope

open Disk

namespace FileStore

/-! ### What a put leaves -/

/-- A put that succeeded is a save that took place. -/
theorem save_of_put_ok {store later : FileStore} {disk disk' : Disk} {key value : String}
    (h : store.put disk key value = (.ok (), later, disk')) :
    store.save (store.data.insert key value) disk = (.ok (), disk') ∧
      later = ⟨store.path, store.data.insert key value⟩ := by
  rw [put] at h
  split at h
  · next saved hsaved =>
    obtain ⟨-, h⟩ := Prod.mk.inj h
    obtain ⟨rfl, rfl⟩ := Prod.mk.inj h
    exact ⟨hsaved, rfl⟩
  · exact absurd (Prod.mk.inj h).1 (by simp)

/-- A put that failed is a save that failed, and nothing changes in memory. -/
theorem save_of_put_error {store later : FileStore} {disk disk' : Disk} {key value : String}
    {error : StoreError} (h : store.put disk key value = (.error error, later, disk')) :
    store.save (store.data.insert key value) disk = (.error error, disk') ∧ later = store := by
  rw [put] at h
  split at h
  · exact absurd (Prod.mk.inj h).1 (by simp)
  · next error' saved hsaved =>
    obtain ⟨herror, h⟩ := Prod.mk.inj h
    obtain ⟨rfl, rfl⟩ := Prod.mk.inj h
    rw [← Except.error.inj herror]
    exact ⟨hsaved, rfl⟩

/-! ### Opening again -/

/-- What is opened depends on what is read. -/
theorem load_congr {disk later : Disk} {path : Path} (h : later.read path = disk.read path) :
    load later path = load disk path := by
  rw [load, load, h]

/-- A store is in the file that it was opened from. -/
theorem path_of_load {disk : Disk} {path : Path} {store : FileStore}
    (h : load disk path = .ok store) : store.path = path := by
  rw [load] at h
  split at h
  · next bytes hread =>
    cases hentries : entriesOfBytes path bytes with
    | error error =>
      rw [hentries] at h
      exact absurd h (by simp [Except.map])
    | ok data =>
      rw [hentries] at h
      rw [← Except.ok.inj h]
  · rw [← Except.ok.inj h]
  · exact absurd h (by simp)

/-- A store stays in the file that it is in. -/
theorem path_of_put {store later : FileStore} {disk disk' : Disk} {key value : String}
    {result : Except StoreError Unit} (h : store.put disk key value = (result, later, disk')) :
    later.path = store.path := by
  rw [put] at h
  split at h
  all_goals
    obtain ⟨-, h⟩ := Prod.mk.inj h
    obtain ⟨rfl, -⟩ := Prod.mk.inj h
    rfl

/-- A file that is read opens as a store of what its bytes tell. -/
theorem load_of_bytes {disk : Disk} {path : Path} {bytes : Bytes}
    (hread : disk.read path = .ok bytes) :
    load disk path = (entriesOfBytes path bytes).map fun data => ⟨path, data⟩ := by
  rw [load, hread]

/-- A file that holds the entries opens as a store of them. -/
theorem load_of_read {disk : Disk} {path : Path} {data : Ledger String}
    (h : disk.read path = .ok (Snapshot.ofEntries data).toBytes) :
    load disk path = .ok ⟨path, data⟩ := by
  rw [load_of_bytes h, entriesOfBytes, Snapshot.ofBytes?_toBytes]
  rfl

/-- **A put that succeeded has left in the file what was really written.** -/
theorem read_of_put_ok {store later : FileStore} {disk disk' : Disk} {key value : String}
    (h : store.put disk key value = (.ok (), later, disk')) :
    disk'.read store.path =
        .ok (contentAfter store.path disk.hazards (store.data.insert key value)) ∧
      disk'.Settled store.path := by
  obtain ⟨⟨names, other, hsaved⟩, -⟩ := saved_of_save_ok (save_of_put_ok h).1
  exact ⟨hsaved.read, hsaved.settled⟩

/-- **A put that succeeded is in the file**, if no write fails without saying so. -/
theorem load_of_put_ok {store later : FileStore} {disk disk' : Disk} {key value : String}
    (hreports : Reports disk.hazards) (h : store.put disk key value = (.ok (), later, disk')) :
    load disk' store.path = .ok later ∧ disk'.Settled store.path := by
  obtain ⟨hread, hsettled⟩ := read_of_put_ok h
  obtain ⟨-, rfl⟩ := save_of_put_ok h
  rw [contentAfter, lostWrite?_of_reports hreports, Option.getD_none] at hread
  exact ⟨load_of_read hread, hsettled⟩

/-- A put that failed has left the file as it is with the first few folders made. -/
theorem unsaved_of_put_error {store later : FileStore} {disk disk' : Disk} {key value : String}
    {error : StoreError} (h : store.put disk key value = (.error error, later, disk')) :
    later = store ∧ Unsaved store.path disk disk' := by
  obtain ⟨hsave, rfl⟩ := save_of_put_error h
  exact ⟨rfl, unsaved_of_save_error hsave _ (save_mem_whileSaving hsave)⟩

/-- **A put that failed has left the file as it was**, if the path names one file. -/
theorem load_of_put_error {store later : FileStore} {disk disk' : Disk} {key value : String}
    {error : StoreError} (hsettled : disk.Settled store.path)
    (h : store.put disk key value = (.error error, later, disk')) :
    later = store ∧ load disk' store.path = load disk store.path ∧ disk'.Settled store.path := by
  obtain ⟨rfl, hunsaved⟩ := unsaved_of_put_error h
  exact ⟨rfl, load_congr (hunsaved.read_of_settled hsettled), hunsaved.settled hsettled⟩

end FileStore

namespace DiskStore

/-- The file opens as the store that is in memory, and its path names no other file. -/
structure IsFiled (filed : DiskStore) : Prop where
  load : FileStore.load filed.disk filed.store.path = .ok filed.store
  settled : filed.disk.Settled filed.store.path

/-- A store that has just been opened is filed. -/
theorem IsFiled.of_load {disk : Disk} {path : Path} {store : FileStore}
    (hload : FileStore.load disk path = .ok store) (hsettled : disk.Settled path) :
    IsFiled ⟨store, disk⟩ := by
  obtain rfl := FileStore.path_of_load hload
  exact ⟨hload, hsettled⟩

/-- Troubles to come change nothing of what is there. -/
theorem IsFiled.befall {filed : DiskStore} (h : filed.IsFiled) (hazards : List (Option Hazard)) :
    IsFiled { filed with disk := { filed.disk with hazards } } :=
  ⟨(FileStore.load_congr (read_congr _ rfl rfl)).trans h.load, settled_congr rfl rfl h.settled⟩

/-- **A store stays filed**, whether a put succeeds or fails, if no write fails without saying
so. -/
theorem IsFiled.put {filed : DiskStore} (h : filed.IsFiled) (hreports : Reports filed.disk.hazards)
    (key value : String) : (filed.put key value).2.IsFiled := by
  rw [DiskStore.put]
  cases hput : filed.store.put filed.disk key value with
  | mk result rest =>
    obtain ⟨later, disk'⟩ := rest
    have hpath := FileStore.path_of_put hput
    cases result with
    | ok =>
      obtain ⟨hload, hsettled⟩ := FileStore.load_of_put_ok hreports hput
      exact ⟨hpath ▸ hload, hpath ▸ hsettled⟩
    | error error =>
      obtain ⟨rfl, hload, hsettled⟩ := FileStore.load_of_put_error h.settled hput
      exact ⟨hload.trans h.load, hsettled⟩

/-- What is to come is what was to come before, but for what has come. -/
theorem reports_put {filed : DiskStore} (h : Reports filed.disk.hazards) (key value : String) :
    Reports (filed.put key value).2.disk.hazards := by
  obtain ⟨count, hcount⟩ :=
    filed.store.exists_hazards_save (filed.store.data.insert key value) filed.disk
  have hhazards : (filed.put key value).2.disk.hazards = filed.disk.hazards.drop count := by
    rw [DiskStore.put, FileStore.put]
    split
    · next later hsave =>
      rw [hsave] at hcount
      exact hcount
    · next error later hsave =>
      rw [hsave] at hcount
      exact hcount
  rw [hhazards]
  exact h.drop count

theorem path_put (filed : DiskStore) (key value : String) :
    (filed.put key value).2.store.path = filed.store.path :=
  FileStore.path_of_put rfl

end DiskStore

end DeviceScope
