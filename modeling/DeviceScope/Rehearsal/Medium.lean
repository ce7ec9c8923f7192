import DeviceScope.Store.File
import DeviceScope.Store.Guarded
import DeviceScope.Store.Memory

/-!
# Media

What a store is kept on: memory, or a file on a disk. A medium outlasts the gateway that uses it,
and so does the guard in front of it.
-/

namespace DeviceScope

/-- A store that is open, in memory or in a file. -/
inductive Backing where
  | memory (store : MemoryStore)
  | file (store : DiskStore)

namespace Backing

/-- What is kept. -/
def contents : Backing → Ledger String
  | .memory store => KeyValueStore.contents store
  | .file store => KeyValueStore.contents store

def put (backing : Backing) (key value : String) : Except StoreError Unit × Backing :=
  match backing with
  | .memory store =>
    let (result, store) := KeyValueStore.put store key value
    (result, .memory store)
  | .file store =>
    let (result, store) := KeyValueStore.put store key value
    (result, .file store)

/-- All entries. -/
def entries : Backing → Except StoreError (List (String × String))
  | .memory store => KeyValueStore.entries store
  | .file store => KeyValueStore.entries store

instance : KeyValueStore Backing where
  contents := contents
  put := put
  entries := entries
  contents_of_put_ok backing key value h := by
    cases backing <;> exact KeyValueStore.contents_of_put_ok _ _ _ h
  contents_of_put_error backing key value error h := by
    cases backing <;> exact KeyValueStore.contents_of_put_error _ _ _ _ h
  eq_of_entries_ok backing list h := by
    cases backing <;> exact KeyValueStore.eq_of_entries_ok _ _ h

end Backing

/-- What a store is kept on. -/
inductive Medium where
  | memory (store : MemoryStore)
  | file (disk : Disk) (path : Path)

namespace Medium

def load : Medium → Except StoreError Backing
  | .memory store => .ok (.memory store)
  | .file disk path => (FileStore.load disk path).map fun store => .file ⟨store, disk⟩

/-- What a store that is open is kept on. -/
def ofBacking : Backing → Medium
  | .memory store => .memory store
  | .file store => .file store.disk store.store.path

/-- Puts a text straight onto the medium, past a store that may be open on it. -/
def put (medium : Medium) (key value : String) : Except StoreError Unit × Medium :=
  match medium.load with
  | .error error => (.error error, medium)
  | .ok backing =>
    let (result, backing) := backing.put key value
    (result, .ofBacking backing)

/-- What is on the medium. -/
def contents (medium : Medium) : Except StoreError (Ledger String) :=
  medium.load.map Backing.contents

end Medium

/-- Takes what has happened to the medium past a store that is open on it. A store in a file does
not look at the file again. -/
def Backing.withMedium : Backing → Medium → Backing
  | .memory _, .memory store => .memory store
  | .file store, .file disk _ => .file { store with disk }
  | backing, _ => backing

end DeviceScope
