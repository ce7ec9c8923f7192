import DeviceScope.Store.Basic

/-!
# Stores in memory

A store that lasts as long as the program. A number of puts can be made to fail, so that one can
see what a failure does. Several handles may share one store (`StoreHandles`).
-/

namespace DeviceScope

/-- A store in memory. -/
structure MemoryStore where
  /-- What is kept. -/
  data : Ledger String
  /-- The number of puts that took place. -/
  puts : Nat
  /-- How many of the next puts fail. -/
  failing : Nat
  deriving DecidableEq, Inhabited

namespace MemoryStore

def ofEntries (data : Ledger String) : MemoryStore := ⟨data, 0, 0⟩

/-- Makes the next `count` puts fail, whatever was said before. -/
def failNext (store : MemoryStore) (count : Nat) : MemoryStore := { store with failing := count }

def put (store : MemoryStore) (key value : String) : Except StoreError Unit × MemoryStore :=
  match store.failing with
  | failing + 1 => (.error (.io ("injected write failure for " ++ key)), { store with failing })
  | 0 => (.ok (), { store with data := store.data.insert key value, puts := store.puts + 1 })

/-- The text under a key. -/
def get? (store : MemoryStore) (key : String) : Option String := store.data.get? key

theorem put_data_ok {store : MemoryStore} {key value : String}
    (h : (store.put key value).1 = .ok ()) :
    (store.put key value).2.data = store.data.insert key value := by
  unfold put at h ⊢
  split at h <;> simp_all

theorem put_data_error {store : MemoryStore} {key value : String} {error : StoreError}
    (h : (store.put key value).1 = .error error) :
    (store.put key value).2.data = store.data := by
  unfold put at h ⊢
  split at h <;> simp_all

instance : KeyValueStore MemoryStore where
  contents := data
  put := put
  entries store := .ok store.data.entries
  contents_of_put_ok _ _ _ := put_data_ok
  contents_of_put_error _ _ _ _ := put_data_error
  eq_of_entries_ok _ _ h := by cases h; rfl

end MemoryStore

/-- Stores under names; names of one store share everything. -/
structure StoreHandles where
  /-- The number of the store that a name stands for. -/
  names : Ledger Nat
  /-- The stores by their numbers. -/
  stores : List MemoryStore

namespace StoreHandles

/-- One empty store under the given name. -/
def single (name : String) : StoreHandles := ⟨(∅ : Ledger Nat).insert name 0, [default]⟩

def get? (handles : StoreHandles) (name : String) : Option MemoryStore :=
  (handles.names.get? name).bind fun number => handles.stores[number]?

/-- Replaces the store that a name stands for, for all of its names. -/
def set (handles : StoreHandles) (name : String) (store : MemoryStore) : StoreHandles :=
  match handles.names.get? name with
  | some number => { handles with stores := handles.stores.set number store }
  | none => handles

/-- Gives the store that a name stands for another name. -/
def share (handles : StoreHandles) (name other : String) : StoreHandles :=
  match handles.names.get? name with
  | some number => { handles with names := handles.names.insert other number }
  | none => handles

def create (handles : StoreHandles) (name : String) : StoreHandles :=
  ⟨handles.names.insert name handles.stores.length, handles.stores ++ [default]⟩

end StoreHandles

end DeviceScope
