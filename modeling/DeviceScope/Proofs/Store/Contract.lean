import DeviceScope.Proofs.Ledger
import DeviceScope.Store.File
import DeviceScope.Store.Memory
import Mathlib.Data.Finset.Card

/-!
# What a store has to answer

Puts, look-ups, walks and lengths are asked of a store (`StoreQuery`). Which answer is right follows
from the puts that took place before, and from nothing else (`StoreAnswer.IsRight`): for a key the
last put counts, a walk comes past each key once, and the length is the number of keys.

A store answers right if its entries are what the puts left (`Ledger.ofList`). Two right answers to
one query are alike, which means that they are equal up to the order of a walk
(`StoreAnswer.IsRight.alike`); so stores that answer right can take each other's place.
-/

namespace DeviceScope

/-- What is asked of a store. -/
inductive StoreQuery where
  | put (key value : String)
  | get (key : String)
  | entries
  | length
  deriving DecidableEq

/-- What a store answers, to each query in its own way. -/
inductive StoreAnswer where
  | done (result : Except StoreError Unit)
  | value (found : Option String)
  | entries (walk : Except StoreError (List (String × String)))
  | length (count : Nat)

/-- The entry that a query puts into the store, if it is a put. -/
def StoreQuery.puts : StoreQuery → List (String × String)
  | .put key value => [(key, value)]
  | .get _ | .entries | .length => []

/-! ### Asking -/

def MemoryStore.answer (store : MemoryStore) : StoreQuery → StoreAnswer × MemoryStore
  | .put key value => ((.done (store.put key value).1), (store.put key value).2)
  | .get key => (.value (store.get? key), store)
  | .entries => (.entries (KeyValueStore.entries store), store)
  | .length => (.length store.data.size, store)

def DiskStore.answer (self : DiskStore) : StoreQuery → StoreAnswer × DiskStore
  | .put key value => ((.done (self.put key value).1), (self.put key value).2)
  | .get key => (.value (self.store.get? key), self)
  | .entries => (.entries (KeyValueStore.entries self), self)
  | .length => (.length self.store.data.size, self)

/-- The answers to queries that are asked one after another. -/
def answerAll {σ : Type} (answer : σ → StoreQuery → StoreAnswer × σ) (store : σ) :
    List StoreQuery → List StoreAnswer × σ
  | [] => ([], store)
  | query :: rest =>
    let (first, next) := answer store query
    let (others, last) := answerAll answer next rest
    (first :: others, last)

/-! ### Right answers -/

/-- The value of the last put for a key, if there was any. -/
def lastPut? (puts : List (String × String)) (key : String) : Option String :=
  (puts.filter fun entry => entry.1 = key).getLast?.map Prod.snd

namespace StoreAnswer

/-- What is to be answered after some puts, the first of which stands first. -/
inductive IsRight (puts : List (String × String)) : StoreQuery → StoreAnswer → Prop
  | put (key value : String) : IsRight puts (.put key value) (.done (.ok ()))
  | get (key : String) : IsRight puts (.get key) (.value (lastPut? puts key))
  /-- Each key that was ever put is visited once, with its last value. -/
  | entries (list : List (String × String)) (once : (list.map Prod.fst).Nodup)
      (mem : ∀ key value, (key, value) ∈ list ↔ lastPut? puts key = some value) :
      IsRight puts .entries (.entries (.ok list))
  | length : IsRight puts .length (.length (puts.map Prod.fst).toFinset.card)

/-- The answers to queries one after another are right, each after the puts before it. -/
inductive AllRight : List (String × String) → List StoreQuery → List StoreAnswer → Prop
  | nil (puts : List (String × String)) : AllRight puts [] []
  | cons {puts : List (String × String)} {query : StoreQuery} {answer : StoreAnswer}
      {queries : List StoreQuery} {answers : List StoreAnswer} (right : IsRight puts query answer)
      (rest : AllRight (puts ++ query.puts) queries answers) :
      AllRight puts (query :: queries) (answer :: answers)

/-- Answers are the same, except that a walk may come past the keys in another order. -/
inductive Alike : StoreAnswer → StoreAnswer → Prop
  | refl (answer : StoreAnswer) : Alike answer answer
  | entries {list other : List (String × String)} (perm : list.Perm other) :
      Alike (.entries (.ok list)) (.entries (.ok other))

/-- **There is one right answer to a query**, up to the order of a walk. -/
theorem IsRight.alike {puts : List (String × String)} {query : StoreQuery}
    {answer other : StoreAnswer} (h : IsRight puts query answer)
    (h' : IsRight puts query other) : Alike answer other := by
  cases h with
  | put key value | get key | length =>
    cases h'
    exact .refl _
  | entries list once mem =>
    cases h' with
    | entries list' once' mem' =>
      -- The two lists have the same members, each of them once.
      refine .entries ((List.perm_ext_iff_of_nodup once.of_map once'.of_map).2 fun entry => ?_)
      exact (mem entry.1 entry.2).trans (mem' entry.1 entry.2).symm

theorem AllRight.alike {puts : List (String × String)} {queries : List StoreQuery}
    {answers others : List StoreAnswer} (h : AllRight puts queries answers)
    (h' : AllRight puts queries others) : List.Forall₂ Alike answers others := by
  induction h generalizing others with
  | nil =>
    cases h'
    exact .nil
  | cons right rest ih =>
    cases h' with
    | cons right' rest' => exact .cons (right.alike right') (ih rest')

theorem AllRight.append {puts : List (String × String)} {queries more : List StoreQuery}
    {answers others : List StoreAnswer} (h : AllRight puts queries answers)
    (h' : AllRight (puts ++ queries.flatMap StoreQuery.puts) more others) :
    AllRight puts (queries ++ more) (answers ++ others) := by
  induction h with
  | nil => rwa [List.flatMap_nil, List.append_nil] at h'
  | cons right rest ih =>
    rw [List.flatMap_cons, ← List.append_assoc] at h'
    exact .cons right (ih h')

/-- **A store that answers every query right answers all of them right.** What is to be said of the
store along the way is `Holds`. -/
theorem AllRight.of_answer {σ : Type} {answer : σ → StoreQuery → StoreAnswer × σ}
    {Holds : List (String × String) → σ → Prop}
    (hanswer : ∀ puts store query, Holds puts store →
      IsRight puts query (answer store query).1 ∧
        Holds (puts ++ query.puts) (answer store query).2)
    {puts : List (String × String)} {store : σ} (h : Holds puts store)
    (queries : List StoreQuery) :
    AllRight puts queries (answerAll answer store queries).1 ∧
      Holds (puts ++ queries.flatMap StoreQuery.puts) (answerAll answer store queries).2 := by
  induction queries generalizing puts store with
  | nil =>
    rw [List.flatMap_nil, List.append_nil]
    exact ⟨.nil puts, h⟩
  | cons query rest ih =>
    obtain ⟨hright, hnext⟩ := hanswer puts store query h
    obtain ⟨hrest, hlast⟩ := ih hnext
    rw [List.flatMap_cons, ← List.append_assoc]
    exact ⟨.cons hright hrest, hlast⟩

end StoreAnswer

/-! ### Entries that puts left -/

theorem lastPut?_append (puts : List (String × String)) (key k value : String) :
    lastPut? (puts ++ [(key, value)]) k = if k = key then some value else lastPut? puts k := by
  rw [lastPut?, List.filter_append]
  by_cases hkey : k = key
  · rw [if_pos hkey, List.filter_cons_of_pos (by simpa using hkey.symm), List.filter_nil,
      List.getLast?_concat]
    rfl
  · rw [if_neg hkey, List.filter_cons_of_neg (by simpa using fun h => hkey h.symm),
      List.filter_nil, List.append_nil]
    rfl

/-- There is a last put for the keys that were put. -/
theorem exists_lastPut?_iff {puts : List (String × String)} {key : String} :
    (∃ value, lastPut? puts key = some value) ↔ key ∈ puts.map Prod.fst := by
  rw [← Option.isSome_iff_exists, lastPut?, Option.isSome_map, List.getLast?_isSome]
  simp [List.filter_eq_nil_iff]

namespace Ledger

theorem ofList_append (puts : List (String × String)) (key value : String) :
    ofList (puts ++ [(key, value)]) = (ofList puts).insert key value := by
  rw [ofList, List.foldl_append]
  rfl

theorem get?_ofList (puts : List (String × String)) (key : String) :
    (ofList puts).get? key = lastPut? puts key := by
  -- The last put is the last one that was taken in.
  induction puts using List.reverseRecOn with
  | nil => rfl
  | append_singleton puts entry ih => rw [ofList_append, get?_insert, lastPut?_append, ih]

/-- There are as many entries as keys were put. -/
theorem size_ofList (puts : List (String × String)) :
    (ofList puts).size = (puts.map Prod.fst).toFinset.card := by
  have hkeys : (ofList puts).keys.toFinset = (puts.map Prod.fst).toFinset := by
    ext key
    rw [List.mem_toFinset, List.mem_toFinset, mem_keys_iff, contains_iff, ← exists_lastPut?_iff]
    simp only [get?_ofList]
  calc (ofList puts).size
      = (ofList puts).keys.length := (List.length_map _).symm
    _ = (ofList puts).keys.toFinset.card := (List.toFinset_card_of_nodup (nodup_keys _)).symm
    _ = (puts.map Prod.fst).toFinset.card := by rw [hkeys]

/-- A walk over the entries that puts left is a right answer. -/
theorem isRight_entries_ofList (puts : List (String × String)) :
    StoreAnswer.IsRight puts .entries (.entries (.ok (ofList puts).entries)) := by
  refine .entries _ (nodup_keys (ofList puts)) fun key value => ?_
  rw [mem_entries_iff, get?_ofList]

end Ledger

end DeviceScope
