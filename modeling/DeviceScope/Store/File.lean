import DeviceScope.Disk.Basic
import DeviceScope.Store.Basic
import DeviceScope.Store.Snapshot

/-!
# Stores in files

A store that keeps its entries in one file. Each put writes the whole snapshot to a temporary file
beside it, waits until that is safe, and moves it into the place of the old one: at every moment
the file holds the entries before or after the put. Only when that is done do the entries in
memory change.

All of this goes by what is reported. When the temporary file could not be written and this was not
said (`Disk.Hazard.silent`), what was written takes the place of the old snapshot all the same, and
the put succeeds.
-/

namespace DeviceScope

/-- A store in a file. -/
structure FileStore where
  /-- The path of the file. -/
  path : Path
  /-- What is kept. -/
  data : Ledger String
  deriving DecidableEq

namespace FileStore

/-- The error for an operation on the disk that failed. -/
def ioError : StoreError := .io ioDetail

/-- Reads the entries in the content of a file. -/
def entriesOfBytes (path : Path) (bytes : Bytes) : Except StoreError (Ledger String) :=
  match Snapshot.ofBytes? bytes with
  | none => .error (.serialization syntaxDetail)
  | some snapshot =>
    if snapshot.version = Snapshot.currentVersion then .ok snapshot.entries
    else
      .error (.serialization
        ("unsupported snapshot version " ++ Decimal.text snapshot.version ++ " in " ++ path.text))

/-- Opens the store in the file at a path. A file that is missing holds nothing, and is not made
before something is put. -/
def load (disk : Disk) (path : Path) : Except StoreError FileStore :=
  match disk.read path with
  | .ok bytes => (entriesOfBytes path bytes).map fun data => ⟨path, data⟩
  | .error .missing => .ok ⟨path, ∅⟩
  | .error _ => .error ioError

def writingSteps (store : FileStore) (data : Ledger String) : List Disk.Operation :=
  (store.path.parent?.filter fun folder => !folder.isHere).toList.map .makeFolders ++
    [.create store.path.temporary,
      .write store.path.temporary (Snapshot.ofEntries data).toBytes,
      .sync store.path.temporary]

/-- Makes the file hold the given entries. When the temporary file cannot be moved, it is
removed. -/
def save (store : FileStore) (data : Ledger String) (disk : Disk) :
    Except StoreError Unit × Disk :=
  match disk.performAll (store.writingSteps data) with
  | (.error _, disk) => (.error ioError, disk)
  | (.ok (), disk) =>
    -- Up to here the file is as it was; this one operation makes it new.
    match disk.perform (.rename store.path.temporary store.path) with
    | (.ok (), disk) => (.ok (), disk)
    | (.error _, disk) => (.error ioError, (disk.perform (.remove store.path.temporary)).2)

def put (store : FileStore) (disk : Disk) (key value : String) :
    Except StoreError Unit × FileStore × Disk :=
  match store.save (store.data.insert key value) disk with
  | (.ok (), disk) => (.ok (), { store with data := store.data.insert key value }, disk)
  | (.error error, disk) => (.error error, store, disk)

/-- The text under a key. -/
def get? (store : FileStore) (key : String) : Option String := store.data.get? key

theorem put_data_ok {store : FileStore} {disk : Disk} {key value : String}
    (h : (store.put disk key value).1 = .ok ()) :
    (store.put disk key value).2.1.data = store.data.insert key value := by
  unfold put at h ⊢
  split <;> simp_all

theorem put_data_error {store : FileStore} {disk : Disk} {key value : String} {error : StoreError}
    (h : (store.put disk key value).1 = .error error) :
    (store.put disk key value).2.1 = store := by
  unfold put at h ⊢
  split <;> simp_all

end FileStore

/-- A store in a file, with the disk that the file is on. -/
structure DiskStore where
  store : FileStore
  disk : Disk

namespace DiskStore

def put (self : DiskStore) (key value : String) : Except StoreError Unit × DiskStore :=
  let result := self.store.put self.disk key value
  (result.1, ⟨result.2.1, result.2.2⟩)

instance : KeyValueStore DiskStore where
  contents self := self.store.data
  put := put
  entries self := .ok self.store.data.entries
  contents_of_put_ok _ _ _ := FileStore.put_data_ok
  contents_of_put_error _ _ _ _ h := congrArg FileStore.data (FileStore.put_data_error h)
  eq_of_entries_ok _ _ h := by cases h; rfl

end DiskStore

end DeviceScope
