import DeviceScope.Json.Shape

/-!
# Fields of an object

What an object gives for a name are the values of all members of that name (`Json.given`). A reader
of named fields sees no more of it: it wants at most one value for each of its names, and takes that
(`Json.fieldValues?_object_eq_some_iff`), wherever the members stand and whatever other names there
are.

An object that was made of members with different names has, for each name, the member of that
name and no other (`Json.fieldValues?_fields`). Lists of texts are read back.
-/

namespace DeviceScope.Json

/-- The values of the members that carry a name, in the order in which they stand. -/
def given (name : String) (members : List (Option String × Json)) : List Json :=
  (members.filter (·.1 == some name)).map Prod.snd

@[simp]
theorem given_nil (name : String) : given name [] = [] := rfl

theorem given_cons_self (name : String) (value : Json) (members : List (Option String × Json)) :
    given name ((some name, value) :: members) = value :: given name members := by
  rw [given, List.filter_cons_of_pos (by simp)]
  rfl

theorem given_cons_of_ne {key : Option String} {name : String} (h : key ≠ some name) (value : Json)
    (members : List (Option String × Json)) :
    given name ((key, value) :: members) = given name members := by
  rw [given, List.filter_cons_of_neg (by simpa using h)]
  rfl

theorem mem_given {name : String} {value : Json} {members : List (Option String × Json)} :
    value ∈ given name members ↔ (some name, value) ∈ members := by
  simp only [given, List.mem_map, List.mem_filter, beq_iff_eq, Prod.exists]
  constructor
  · rintro ⟨key, _, ⟨hmem, rfl⟩, rfl⟩
    exact hmem
  · intro hmem
    exact ⟨_, _, ⟨hmem, rfl⟩, rfl⟩

/-- The only member with a key is the only value that is given under this name. -/
theorem onlyMember?_eq_some_iff {members : List (Option String × Json)} {name : String}
    {value : Option Json} :
    onlyMember? members name = some value ↔
      (given name members).length ≤ 1 ∧ value = (given name members).head? := by
  rw [onlyMember?, given, List.length_map, List.head?_map]
  split
  · next h => simp [h, eq_comm]
  · next member h => simp [h, eq_comm]
  · next hnil hsingle =>
    -- Two members or more, of which none can be told from the other.
    constructor
    · intro h
      exact absurd h (by simp)
    · rintro ⟨hlength, -⟩
      cases hmembers : members.filter (·.1 == some name) with
      | nil => exact absurd hmembers hnil
      | cons member rest =>
        rw [hmembers, List.length_cons] at hlength
        obtain rfl : rest = [] := List.eq_nil_of_length_eq_zero (by omega)
        exact absurd hmembers (hsingle member)

/-- **What a reader of named fields sees of an object**: at most one value for each name. -/
theorem fieldValues?_object_eq_some_iff {names : List String}
    {members : List (Option String × Json)} {values : List (Option Json)} :
    (object members).fieldValues? names = some values ↔
      (∀ member ∈ members, member.1.isSome = true) ∧
        (∀ name ∈ names, (given name members).length ≤ 1) ∧
          values = names.map fun name => (given name members).head? := by
  rw [fieldValues?]
  by_cases hkeys : members.all (·.1.isSome) = true
  · rw [if_pos hkeys]
    have hall : ∀ member ∈ members, member.1.isSome = true := List.all_eq_true.1 hkeys
    -- The fields are found one after another, each one for itself.
    induction names generalizing values with
    | nil => exact ⟨fun h => ⟨hall, by simp, (Option.some.inj h).symm⟩, fun h => by rw [h.2.2]; rfl⟩
    | cons name names ih =>
      simp only [List.mapM_cons, Option.bind_eq_bind, Option.bind_eq_some_iff,
        onlyMember?_eq_some_iff, ih, List.forall_mem_cons, List.map_cons]
      constructor
      · rintro ⟨_, ⟨hfirst, rfl⟩, _, ⟨-, hrest, rfl⟩, hvalues⟩
        exact ⟨hall, ⟨hfirst, hrest⟩, (Option.some.inj hvalues).symm⟩
      · rintro ⟨-, ⟨hfirst, hrest⟩, rfl⟩
        exact ⟨_, ⟨hfirst, rfl⟩, _, ⟨hall, hrest, rfl⟩, rfl⟩
  · rw [if_neg hkeys]
    constructor
    · intro h
      exact absurd h (by simp)
    · rintro ⟨hall, -⟩
      exact absurd (List.all_eq_true.2 hall) hkeys

/-- What is given under a name when no name is given twice. -/
theorem given_fields {members : List (String × Json)} (hnodup : (members.map Prod.fst).Nodup)
    (name : String) :
    given name (members.map fun member => (some member.1, member.2)) =
      (members.lookup name).toList := by
  induction members with
  | nil => rfl
  | cons member members ih =>
    obtain ⟨key, value⟩ := member
    rw [List.map_cons, List.nodup_cons] at hnodup
    obtain ⟨hfresh, hnodup⟩ := hnodup
    rw [List.map_cons]
    by_cases hname : key = name
    · -- The member in front has the name, so none of those behind it does.
      subst hname
      have hnone : members.lookup key = none := by
        refine List.lookup_eq_none_iff.2 fun member hmem => ?_
        have hne : key ≠ member.1 := fun h => hfresh (List.mem_map.2 ⟨member, hmem, h.symm⟩)
        simpa using hne
      rw [given_cons_self, ih hnodup, hnone, List.lookup_cons_self]
      rfl
    · have hne : (name == key) = false := by simpa using fun h => hname h.symm
      rw [given_cons_of_ne (by simpa using hname), List.lookup_cons, hne]
      exact ih hnodup

/-- The values of the named fields of an object in which no name is given twice. -/
theorem fieldValues?_fields {members : List (String × Json)} (names : List String)
    (hnodup : (members.map Prod.fst).Nodup) :
    (fields members).fieldValues? names = some (names.map fun name => members.lookup name) := by
  refine fieldValues?_object_eq_some_iff.2 ⟨?_, ?_, ?_⟩
  · intro member hmem
    obtain ⟨m, -, rfl⟩ := List.mem_map.1 hmem
    rfl
  · intro name _
    rw [given_fields hnodup]
    cases members.lookup name <;> simp
  · refine List.map_congr_left fun name _ => ?_
    rw [given_fields hnodup]
    cases members.lookup name <;> rfl

theorem mapM_text?_map (ss : List String) : (ss.map text).mapM text? = some ss := by
  induction ss with
  | nil => rfl
  | cons s ss ih =>
    rw [List.map_cons, List.mapM_cons, ih]
    rfl

end DeviceScope.Json
