import DeviceScope.Store.File
import DeviceScope.Store.Guarded
import DeviceScope.Store.Memory

/-!
# Stores that run into trouble

A put may fail at any time, for reasons that lie outside the program: the disk is full, somebody
injects failures, a guard turns keys away. `FallibleStore.Befalls` says which troubles may befall
a store between two requests. None of them changes what is kept, so the program remains the only
one that writes.

`KeyValueStore.Reliable` says that a store runs into none: it takes whatever it is asked to. So does
a store in memory for which no failure is injected.
-/

namespace DeviceScope

/-- A store that may run into trouble between two requests. -/
class FallibleStore (σ : Type) extends KeyValueStore σ where
  /-- Whether one state of the store may turn into another between two requests. -/
  Befalls : σ → σ → Prop
  /-- What is kept stays as it is. -/
  contents_of_befalls : ∀ {store later}, Befalls store later → contents later = contents store

/-- Any number of the next puts may be made to fail. -/
instance : FallibleStore MemoryStore where
  Befalls store later := ∃ count, later = store.failNext count
  contents_of_befalls := by
    rintro store _ ⟨count, rfl⟩
    rfl

/-- The guard may turn away other keys from now on, and walks, and the store behind it may run
into trouble of its own. -/
instance {σ : Type} [FallibleStore σ] : FallibleStore (Guarded σ) where
  Befalls guarded later :=
    later.store = guarded.store ∨ FallibleStore.Befalls guarded.store later.store
  contents_of_befalls := by
    rintro guarded later (h | h)
    · show KeyValueStore.contents later.store = KeyValueStore.contents guarded.store
      rw [h]
    · exact FallibleStore.contents_of_befalls h

/-- Any of the operations to come on the disk may be made to fail. -/
instance : FallibleStore DiskStore where
  Befalls store later := ∃ hazards, later = { store with disk := { store.disk with hazards } }
  contents_of_befalls := by
    rintro store _ ⟨hazards, rfl⟩
    rfl

/-- **No put fails**, whatever was put before. -/
def KeyValueStore.Reliable {σ : Type} [KeyValueStore σ] (store : σ) : Prop :=
  ∀ (puts : List (String × String)) (key value : String),
    (put (puts.foldl (fun store entry => (put store entry.1 entry.2).2) store) key value).1 = .ok ()

namespace KeyValueStore.Reliable

variable {σ : Type} [KeyValueStore σ] {store : σ}

theorem put_eq_ok (h : Reliable store) (key value : String) :
    (KeyValueStore.put store key value).1 = .ok () :=
  h [] key value

/-- It stays so. -/
theorem put (h : Reliable store) (key value : String) :
    Reliable (KeyValueStore.put store key value).2 :=
  fun puts => h ((key, value) :: puts)

/-- What holds of a store and of what it is after each put, and has every put succeed. -/
theorem of_invariant {P : σ → Prop} (h : P store)
    (hput : ∀ store key value, P store →
      (KeyValueStore.put store key value).1 = .ok () ∧ P (KeyValueStore.put store key value).2) :
    Reliable store := by
  intro puts key value
  induction puts generalizing store with
  | nil => exact (hput store key value h).1
  | cons entry puts ih => exact ih (hput store entry.1 entry.2 h).2

end KeyValueStore.Reliable

/-- A store in memory is reliable if no failures are left of those that were injected. -/
theorem MemoryStore.reliable {store : MemoryStore} (h : store.failing = 0) :
    KeyValueStore.Reliable store := by
  refine .of_invariant (P := fun store : MemoryStore => store.failing = 0) h ?_
  intro store key value hnone
  show (store.put key value).1 = .ok () ∧ (store.put key value).2.failing = 0
  rw [MemoryStore.put, hnone]
  exact ⟨rfl, rfl⟩

end DeviceScope
