import DeviceScope.Fault
import DeviceScope.Ledger

/-!
# Stores

A store keeps texts under keys. It may refuse a request, but never does it do a part of one: a put
either takes place or leaves what is kept as it was, and a walk over the entries either shows all
of them or fails.
-/

namespace DeviceScope

/-- Something that keeps texts under keys. -/
class KeyValueStore (σ : Type) where
  /-- What is kept. -/
  contents : σ → Ledger String
  /-- Puts a text under a key, in place of an earlier one. -/
  put : σ → String → String → Except StoreError Unit × σ
  /-- All entries, each once. -/
  entries : σ → Except StoreError (List (String × String))
  contents_of_put_ok : ∀ store key value, (put store key value).1 = .ok () →
    contents (put store key value).2 = (contents store).insert key value
  contents_of_put_error : ∀ store key value error, (put store key value).1 = .error error →
    contents (put store key value).2 = contents store
  eq_of_entries_ok : ∀ store list, entries store = .ok list → list = (contents store).entries

end DeviceScope
