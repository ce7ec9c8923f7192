import DeviceScope.Proofs.Store.Contract
import DeviceScope.Proofs.Store.Writable

/-!
# Stores that can take each other's place

A store in memory and a store in a file answer every row of queries right, and so they answer alike
(`stores_are_interchangeable`). The file may be closed and opened again at any point of the row
(`FileStore.serveSessions`), because on a disk that works it opens as the store that was in memory.

Into a store in memory failures can be injected, and it can be shared under many names
(`StoreUse`). The first puts after an injection fail then, as many as were injected
(`StoreUse.Refuses`), through whichever name they come, and every answer is as if they had not been
asked for (`StoreUse.Served`).
-/

namespace DeviceScope

open Disk StoreAnswer

/-! ### The store in memory -/

namespace MemoryStore

/-- Of what the store answers, only a put hangs on the failures to come. -/
theorem isRight_answer (puts : List (String × String)) (store : MemoryStore) (query : StoreQuery)
    (hdata : store.data = Ledger.ofList puts) (hput : query.puts ≠ [] → store.failing = 0) :
    IsRight puts query (store.answer query).1 ∧
      (store.answer query).2 =
        ⟨Ledger.ofList (puts ++ query.puts), store.puts + query.puts.length, store.failing⟩ := by
  cases query with
  | put key value =>
    have hnone : store.failing = 0 := hput (List.cons_ne_nil _ _)
    rw [answer, put, hnone]
    refine ⟨.put key value, ?_⟩
    rw [StoreQuery.puts, Ledger.ofList_append, hdata]
    rfl
  | get key =>
    rw [answer, get?, hdata, Ledger.get?_ofList]
    exact ⟨.get key, by rw [StoreQuery.puts, List.append_nil, ← hdata]; rfl⟩
  | entries =>
    refine ⟨?_, by rw [StoreQuery.puts, List.append_nil, ← hdata]; rfl⟩
    show IsRight puts .entries (.entries (.ok store.data.entries))
    rw [hdata]
    exact Ledger.isRight_entries_ofList puts
  | length =>
    rw [answer, hdata, Ledger.size_ofList]
    exact ⟨.length, by rw [StoreQuery.puts, List.append_nil, ← hdata]; rfl⟩

/-- **A new store answers right** as long as no failures are injected. -/
theorem allRight_answerAll (queries : List StoreQuery) :
    AllRight [] queries (answerAll answer default queries).1 := by
  let Holds (puts : List (String × String)) (store : MemoryStore) : Prop :=
    store.data = Ledger.ofList puts ∧ store.failing = 0
  have hanswer : ∀ puts store query, Holds puts store →
      IsRight puts query (answer store query).1 ∧
        Holds (puts ++ query.puts) (answer store query).2 := by
    intro puts store query ⟨hdata, hfailing⟩
    obtain ⟨hright, hlater⟩ := isRight_answer puts store query hdata fun _ => hfailing
    exact ⟨hright, by rw [hlater], by rw [hlater]; exact hfailing⟩
  have hnew : Holds [] default := ⟨rfl, rfl⟩
  exact (AllRight.of_answer hanswer hnew queries).1

end MemoryStore

/-! ### The store in a file -/

namespace FileStore

/-- Opens the file for each of the rows of queries in turn, and closes it behind them. -/
def serveSessions (path : Path) :
    List (List StoreQuery) → Disk → Except StoreError (List StoreAnswer × Disk)
  | [], disk => .ok ([], disk)
  | queries :: rest, disk => do
    let store ← load disk path
    let (answers, served) := answerAll DiskStore.answer ⟨store, disk⟩ queries
    let (others, later) ← serveSessions path rest served.disk
    .ok (answers ++ others, later)

end FileStore

namespace DiskStore

/-- The store holds what the puts left, on a disk that works, and so does its file. -/
structure Holds (path : Path) (puts : List (String × String)) (filed : DiskStore) : Prop where
  store : filed.store = ⟨path, Ledger.ofList puts⟩
  works : filed.disk.Works path
  load : FileStore.load filed.disk path = .ok filed.store

/-- **Every answer is right, and every put is in the file.** -/
theorem Holds.answer {path : Path} {puts : List (String × String)} {filed : DiskStore}
    (h : Holds path puts filed) (query : StoreQuery) :
    IsRight puts query (filed.answer query).1 ∧
      Holds path (puts ++ query.puts) (filed.answer query).2 := by
  have hpath : filed.store.path = path := by rw [h.store]
  have hdata : filed.store.data = Ledger.ofList puts := by rw [h.store]
  cases query with
  | put key value =>
    obtain ⟨later, hput, hworks⟩ :=
      (hpath ▸ h.works : filed.disk.Works filed.store.path).put key value
    obtain ⟨hload, -⟩ := FileStore.load_of_put_ok h.works.calm.reports hput
    -- A put on a disk that works succeeds, and what it leaves opens again.
    rw [hpath, hdata, ← Ledger.ofList_append] at hput
    rw [hpath, hdata, ← Ledger.ofList_append] at hload
    rw [DiskStore.answer, DiskStore.put, hput]
    exact ⟨.put key value, rfl, hpath ▸ hworks, hload⟩
  | get key =>
    rw [DiskStore.answer, FileStore.get?, hdata, Ledger.get?_ofList, StoreQuery.puts,
      List.append_nil]
    exact ⟨.get key, h⟩
  | entries =>
    rw [StoreQuery.puts, List.append_nil]
    refine ⟨?_, h⟩
    show IsRight puts .entries (.entries (.ok filed.store.data.entries))
    rw [hdata]
    exact Ledger.isRight_entries_ofList puts
  | length =>
    rw [DiskStore.answer, hdata, Ledger.size_ofList, StoreQuery.puts, List.append_nil]
    exact ⟨.length, h⟩

/-- **A store in a file answers right, however often it is opened again.** -/
theorem allRight_serveSessions {path : Path} {puts : List (String × String)} {disk : Disk}
    (hworks : disk.Works path) (hload : FileStore.load disk path = .ok ⟨path, Ledger.ofList puts⟩)
    (sessions : List (List StoreQuery)) :
    ∃ answers later, FileStore.serveSessions path sessions disk = .ok (answers, later) ∧
      AllRight puts sessions.flatten answers := by
  -- What is opened next is what the session before has left, on a disk that still works.
  induction sessions generalizing puts disk with
  | nil => exact ⟨[], disk, rfl, .nil puts⟩
  | cons queries rest ih =>
    have hopened : Holds path puts ⟨⟨path, Ledger.ofList puts⟩, disk⟩ := ⟨rfl, hworks, hload⟩
    have hanswer : ∀ puts filed query, Holds path puts filed →
        IsRight puts query (filed.answer query).1 ∧
          Holds path (puts ++ query.puts) (filed.answer query).2 :=
      fun _ _ query h => h.answer query
    obtain ⟨hright, hserved⟩ := AllRight.of_answer hanswer hopened queries
    obtain ⟨others, later, hrest, hothers⟩ := ih hserved.works (hserved.store ▸ hserved.load)
    refine ⟨_, later, ?_, List.flatten_cons ▸ hright.append hothers⟩
    rw [FileStore.serveSessions, hload]
    dsimp only [bind, Except.bind]
    rw [hrest]

end DiskStore

/-! ### Injected failures and shared stores -/

/-- What is done with a store in memory, under one of its names. -/
inductive StoreUse where
  | ask (name : String) (query : StoreQuery)
  /-- Failures are injected for as many puts. -/
  | failNext (name : String) (count : Nat)
  /-- The store gets another name. -/
  | share (name other : String)

namespace StoreHandles

def serve (handles : StoreHandles) : StoreUse → Option StoreAnswer × StoreHandles
  | .ask name query =>
    match handles.get? name with
    | some store => (some (store.answer query).1, handles.set name (store.answer query).2)
    | none => (none, handles)
  | .failNext name count =>
    match handles.get? name with
    | some store => (none, handles.set name (store.failNext count))
    | none => (none, handles)
  | .share name other => (none, handles.share name other)

/-- What is answered to uses one after another. -/
def serveAll (handles : StoreHandles) : List StoreUse → List (Option StoreAnswer) × StoreHandles
  | [] => ([], handles)
  | use :: rest =>
    let (first, next) := handles.serve use
    let (others, last) := next.serveAll rest
    (first :: others, last)

end StoreHandles

namespace StoreUse

def name : StoreUse → String
  | .ask name _ | .failNext name _ | .share name _ => name

def isPut : StoreUse → Bool
  | .ask _ (.put _ _) => true
  | _ => false

/-- For how many puts failures are injected, if they are. -/
def injected? : StoreUse → Option Nat
  | .failNext _ count => some count
  | _ => none

/-- The names of the store, if it has the given ones before. -/
def namesAfter (names : List String) : StoreUse → List String
  | .share _ other => other :: names
  | _ => names

/-- All uses are under names that the store has at the time. -/
def OfStore (names : List String) : List StoreUse → Prop
  | [] => True
  | use :: rest => use.name ∈ names ∧ OfStore (use.namesAfter names) rest

/-- For how many puts failures were injected the last time. -/
def lastInjected (past : List StoreUse) : Nat := (past.reverse.findSome? injected?).getD 0

/-- The number of puts since. -/
def putsSince (past : List StoreUse) : Nat :=
  (past.reverse.takeWhile fun use => use.injected?.isNone).countP isPut

/-- **The next put fails**: it is one of the first since failures were injected. -/
def Refuses (past : List StoreUse) : Prop := putsSince past < lastInjected past

/-- **What a store in memory makes of its uses**: what it answers to each, and the puts that took
place. -/
inductive Served :
    List StoreUse → List (Option StoreAnswer) → List (String × String) → Prop
  | nil : Served [] [] []
  /-- A put that fails, and that no later answer knows of. -/
  | refused {past : List StoreUse} {answers : List (Option StoreAnswer)}
      {puts : List (String × String)} (served : Served past answers puts) (refuses : Refuses past)
      (name key value : String) :
      Served (past ++ [.ask name (.put key value)])
        (answers ++ [some (.done (.error (.io ("injected write failure for " ++ key))))]) puts
  | answered {past : List StoreUse} {answers : List (Option StoreAnswer)}
      {puts : List (String × String)} (served : Served past answers puts) (name : String)
      {query : StoreQuery} {answer : StoreAnswer} (takes : query.puts ≠ [] → ¬ Refuses past)
      (right : IsRight puts query answer) :
      Served (past ++ [.ask name query]) (answers ++ [some answer]) (puts ++ query.puts)
  | injected {past : List StoreUse} {answers : List (Option StoreAnswer)}
      {puts : List (String × String)} (served : Served past answers puts) (name : String)
      (count : Nat) : Served (past ++ [.failNext name count]) (answers ++ [none]) puts
  | shared {past : List StoreUse} {answers : List (Option StoreAnswer)}
      {puts : List (String × String)} (served : Served past answers puts) (name other : String) :
      Served (past ++ [.share name other]) (answers ++ [none]) puts

/-! ### How failures are counted -/

@[simp] theorem lastInjected_append (past : List StoreUse) (use : StoreUse) :
    lastInjected (past ++ [use]) = use.injected?.getD (lastInjected past) := by
  rw [lastInjected, List.reverse_append, List.reverse_singleton, List.singleton_append,
    List.findSome?_cons]
  cases use.injected? <;> rfl

@[simp] theorem putsSince_append (past : List StoreUse) (use : StoreUse) :
    putsSince (past ++ [use]) =
      if use.injected?.isSome then 0 else putsSince past + if use.isPut then 1 else 0 := by
  rw [putsSince, List.reverse_append, List.reverse_singleton, List.singleton_append,
    List.takeWhile_cons]
  cases use.injected? with
  | none => exact List.countP_cons
  | some count => rfl

end StoreUse

namespace StoreHandles

open StoreUse

/-- **All names are those of one store**, which holds what the puts left, has counted them, and will
refuse as many puts as are left of those that failures were injected for. -/
structure Stands (past : List StoreUse) (puts : List (String × String)) (names : List String)
    (handles : StoreHandles) : Prop where
  names : ∀ name ∈ names, handles.names.get? name = some 0
  store : handles.stores =
    [⟨Ledger.ofList puts, puts.length, lastInjected past - putsSince past⟩]

variable {past : List StoreUse} {puts : List (String × String)} {names : List String}
  {handles : StoreHandles} {name : String}

theorem stands_single : Stands [] [] [""] (single "") := by
  refine ⟨fun name hname => ?_, rfl⟩
  obtain rfl := List.mem_singleton.1 hname
  exact Ledger.get?_insert_self _ _ _

/-- The one store stands behind each of the names. -/
theorem Stands.get? (h : Stands past puts names handles) (hname : name ∈ names) :
    handles.get? name =
      some ⟨Ledger.ofList puts, puts.length, lastInjected past - putsSince past⟩ := by
  rw [StoreHandles.get?, h.names name hname, h.store]
  rfl

/-- What is done under one name is done under all of them. -/
theorem Stands.set (h : Stands past puts names handles) (hname : name ∈ names)
    {later : List StoreUse} {puts' : List (String × String)} {store : MemoryStore}
    (hstore : store =
      ⟨Ledger.ofList puts', puts'.length, lastInjected later - putsSince later⟩) :
    Stands later puts' names (handles.set name store) := by
  rw [StoreHandles.set, h.names name hname, h.store, hstore]
  exact ⟨h.names, rfl⟩

/-- A put comes to one of the failures that are left, if there are any. -/
theorem Stands.put (h : Stands past puts names handles) (hname : name ∈ names)
    (key value : String) :
    ∃ answer puts', (handles.serve (.ask name (.put key value))).1 = some answer ∧
      (∀ {answers}, Served past answers puts →
        Served (past ++ [.ask name (.put key value)]) (answers ++ [some answer]) puts') ∧
      Stands (past ++ [.ask name (.put key value)]) puts' names
        (handles.serve (.ask name (.put key value))).2 := by
  have hsince : putsSince (past ++ [.ask name (.put key value)]) = putsSince past + 1 :=
    putsSince_append _ _
  have hlast : lastInjected (past ++ [.ask name (.put key value)]) = lastInjected past :=
    lastInjected_append _ _
  rw [serve, h.get? hname]
  dsimp only
  by_cases hrefuses : Refuses past
  · -- There is a failure left, and one less of them afterwards.
    obtain ⟨failing, hfailing⟩ := Nat.exists_eq_add_one.2 (Nat.sub_pos_of_lt hrefuses)
    refine ⟨_, puts, rfl, fun hserved => ?_, h.set hname ?_⟩
    · rw [MemoryStore.answer, MemoryStore.put, hfailing]
      exact hserved.refused hrefuses name key value
    · rw [MemoryStore.answer, MemoryStore.put, hfailing, hsince, hlast, Nat.sub_succ, hfailing]
      rfl
  · -- No failure is left, so the put is answered as by any store in memory.
    have hnone : lastInjected past - putsSince past = 0 :=
      Nat.sub_eq_zero_of_le (Nat.le_of_not_lt hrefuses)
    obtain ⟨hright, hlater⟩ :=
      MemoryStore.isRight_answer puts
        ⟨Ledger.ofList puts, puts.length, lastInjected past - putsSince past⟩ (.put key value) rfl
        fun _ => hnone
    refine ⟨_, puts ++ [(key, value)], rfl, fun hserved => hserved.answered name (fun _ => hrefuses)
      hright, h.set hname ?_⟩
    rw [hlater, hsince, hlast, Nat.sub_succ, hnone, List.length_append]
    rfl

/-- **One use**, whatever it is. -/
theorem Stands.serve (h : Stands past puts names handles) {use : StoreUse}
    (hname : use.name ∈ names) :
    ∃ puts', (∀ {answers}, Served past answers puts →
        Served (past ++ [use]) (answers ++ [(handles.serve use).1]) puts') ∧
      Stands (past ++ [use]) puts' (use.namesAfter names) (handles.serve use).2 := by
  cases use with
  | ask name query =>
    replace hname : name ∈ names := hname
    by_cases hput : query.puts = []
    · -- Nothing is put, so nothing is refused.
      obtain ⟨hright, hlater⟩ :=
        MemoryStore.isRight_answer puts
          ⟨Ledger.ofList puts, puts.length, lastInjected past - putsSince past⟩ query rfl
          fun hne => absurd hput hne
      refine ⟨puts ++ query.puts, fun hserved => ?_, ?_⟩
      · rw [StoreHandles.serve, h.get? hname]
        exact hserved.answered name (fun hne => absurd hput hne) hright
      · rw [StoreHandles.serve, h.get? hname]
        refine h.set hname ?_
        have hnot : (StoreUse.ask name query).isPut = false := by
          cases query with
          | put key value => exact absurd hput (List.cons_ne_nil _ _)
          | get key | entries | length => rfl
        rw [hlater, lastInjected_append, putsSince_append, hnot, List.length_append]
        rfl
    · cases query with
      | put key value =>
        obtain ⟨answer, puts', hanswer, hserved, hstands⟩ := h.put hname key value
        exact ⟨puts', fun hpast => hanswer ▸ hserved hpast, hstands⟩
      | get key | entries | length => exact absurd rfl hput
  | failNext name count =>
    replace hname : name ∈ names := hname
    refine ⟨puts, fun hserved => ?_, ?_⟩
    · rw [StoreHandles.serve, h.get? hname]
      exact hserved.injected name count
    · rw [StoreHandles.serve, h.get? hname]
      refine h.set hname ?_
      rw [lastInjected_append, putsSince_append]
      rfl
  | share name other =>
    replace hname : name ∈ names := hname
    -- Under the new name there is the same store, and under the others there is what was there.
    refine ⟨puts, fun hserved => hserved.shared name other, ?_⟩
    rw [StoreHandles.serve, share, h.names name hname]
    refine ⟨fun some_name hmem => ?_, ?_⟩
    · rw [Ledger.get?_insert]
      split
      · rfl
      · next hne => exact h.names _ ((List.mem_cons.1 hmem).resolve_left hne)
    · rw [lastInjected_append, putsSince_append]
      exact h.store

/-- **All uses.** -/
theorem Stands.serveAll {answers : List (Option StoreAnswer)} {uses : List StoreUse}
    (h : Stands past puts names handles) (hserved : Served past answers puts)
    (hof : OfStore names uses) :
    ∃ puts', Served (past ++ uses) (answers ++ (handles.serveAll uses).1) puts' ∧
      Stands (past ++ uses) puts' (uses.foldl namesAfter names) (handles.serveAll uses).2 := by
  induction uses generalizing past puts names handles answers with
  | nil =>
    rw [List.append_nil]
    exact ⟨puts, by rwa [StoreHandles.serveAll, List.append_nil], h⟩
  | cons use rest ih =>
    obtain ⟨puts', hnext, hstands⟩ := h.serve hof.1
    obtain ⟨puts'', hall, hlast⟩ := ih hstands (hnext hserved) hof.2
    rw [List.append_cons past use rest]
    refine ⟨puts'', ?_, hlast⟩
    rw [StoreHandles.serveAll]
    dsimp only
    rw [List.append_cons answers]
    exact hall

end StoreHandles

/-! ### Both stores -/

/-- **The two stores can take each other's place.** Let the disk work, and let a store in a file be
opened that is empty. Then any row of queries is answered by it, whenever it is closed and opened
again on the way, as by a new store in memory: each answer is the right one after the puts before
it, and so they are the same, up to the order of walks.

In memory failures may be injected and names be given at any time, under any name. Then of the puts
since the last injection the first ones fail, as many as were injected, every other use is answered
as if these had not been asked for, and under each name as many puts are counted as took place. -/
theorem stores_are_interchangeable (disk : Disk) (path : Path) (hworks : disk.Works path)
    (hempty : FileStore.load disk path = .ok ⟨path, ∅⟩) (sessions : List (List StoreQuery))
    (uses : List StoreUse) (huses : StoreUse.OfStore [""] uses) :
    (∃ answers later, FileStore.serveSessions path sessions disk = .ok (answers, later) ∧
      let inMemory := (answerAll MemoryStore.answer default sessions.flatten).1
      AllRight [] sessions.flatten answers ∧ AllRight [] sessions.flatten inMemory ∧
        List.Forall₂ Alike answers inMemory) ∧
    ∃ puts,
      let (answers, later) := (StoreHandles.single "").serveAll uses
      StoreUse.Served uses answers puts ∧
        ∀ name ∈ uses.foldl StoreUse.namesAfter [""],
          (later.get? name).map MemoryStore.puts = some puts.length := by
  have hload : FileStore.load disk path = .ok ⟨path, Ledger.ofList []⟩ := hempty
  obtain ⟨answers, later, hserved, hright⟩ :=
    DiskStore.allRight_serveSessions hworks hload sessions
  have hmemory := MemoryStore.allRight_answerAll sessions.flatten
  obtain ⟨puts, hall, hstands⟩ := StoreHandles.stands_single.serveAll .nil huses
  refine ⟨⟨answers, later, hserved, hright, hmemory, hright.alike hmemory⟩, puts, hall, ?_⟩
  intro name hname
  rw [hstands.get? hname]
  rfl

/-- Over a file in a folder that is missing. The file is closed after the first put and after the
second, which is one for the same key; in memory the second put, through another name, is the one of
two that fails. -/
theorem stores_are_interchangeable_reopened :
    let path : Path := "state/scope.json"
    let disk : Disk := .blank ["gate"]
    let sessions : List (List StoreQuery) :=
      [[.put "d1/m1" "ü"], [.get "d1/m1", .put "d1/m1" "\""], [.entries, .length]]
    let uses : List StoreUse :=
      [.share "" "again", .failNext "" 2, .failNext "again" 1, .ask "again" (.put "d1" "a"),
        .ask "" (.put "d1" "b"), .ask "again" (.get "d1")]
    disk.Works path ∧ FileStore.load disk path = .ok ⟨path, ∅⟩ ∧ StoreUse.OfStore [""] uses ∧
      (∃ answers later, FileStore.serveSessions path sessions disk = .ok (answers, later) ∧
        List.Forall₂ Alike answers (answerAll MemoryStore.answer default sessions.flatten).1) ∧
      ∃ puts, StoreUse.Served uses ((StoreHandles.single "").serveAll uses).1 puts ∧
        ∀ name ∈ ["again", ""], (((StoreHandles.single "").serveAll uses).2.get? name).map
          MemoryStore.puts = some puts.length := by
  intro path disk sessions uses
  have hworks : disk.Works path := by
    refine ⟨fun hazard hmem => absurd hmem List.not_mem_nil, ⟨_, rfl⟩,
      ⟨["gate", "state", "scope.json"], by decide, by decide, rfl, by decide⟩,
      ⟨["gate", "state", "scope.json.tmp"], by decide, by decide, rfl, by decide⟩⟩
  have hempty : FileStore.load disk path = .ok ⟨path, ∅⟩ := rfl
  have huses : StoreUse.OfStore [""] uses := by
    simp [uses, StoreUse.OfStore, StoreUse.name, StoreUse.namesAfter]
  obtain ⟨⟨answers, later, hserved, -, -, halike⟩, puts, hall, hcounted⟩ :=
    stores_are_interchangeable disk path hworks hempty sessions uses huses
  exact ⟨hworks, hempty, huses, ⟨answers, later, hserved, halike⟩, puts, hall, hcounted⟩

end DeviceScope
