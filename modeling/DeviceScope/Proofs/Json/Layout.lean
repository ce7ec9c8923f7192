import Mathlib.Logic.Relation
import DeviceScope.Proofs.Json.Fields

/-!
# Layouts of a value

Whoever writes an object may put its members in any order, may say of a member that has no value
that it has none or not mention it, and may add members that the reader does not know. Which freedom
there is depends on what the value stands for, and is described by a `Form`: the names of the
members of an object, with the form of each one and with what may be done instead of giving it
(`Omission`).

`Relaid` is one change of this kind, at any depth. What any number of changes comes to is told
without reference to their order by `Laid`: for each name that the form knows, it relates what is
given under the name before and after. This is what readers go by, and one change after another
keeps it (`Laid.of_reflTransGen`).

A form also says in which objects a name must not be given twice (`Doubled`).
-/

namespace DeviceScope.Json

open Relation

/-- What may be done instead of giving a member as it is. -/
inductive Omission where
  /-- Nothing. -/
  | never
  /-- If there is no value, the member may be given as null. -/
  | null
  /-- If the value is the empty list, the member may be left out. -/
  | empty
  deriving DecidableEq

/-- What the members of a value stand for. -/
inductive Form where
  /-- The value is taken as it is. -/
  | plain
  /-- The value is an object, and these are the names that its reader knows. -/
  | object (fields : List (String × Omission × Form))

/-- How deep the value of a member that no reader knows may be nested. -/
def strangerNesting : Nat := 99

/-- **One change of layout.** -/
inductive Relaid : Form → Json → Json → Prop where
  /-- The members of an object are put into another order. -/
  | reorder {fields : List (String × Omission × Form)} {members later : List (Option String × Json)}
    (h : members.Perm later) : Relaid (.object fields) (.object members) (.object later)
  /-- A member that is not there is given as null. -/
  | giveNull {fields : List (String × Omission × Form)} {members : List (Option String × Json)}
    {name : String} {form : Form} (hfield : fields.lookup name = some (.null, form))
    (habsent : given name members = []) :
    Relaid (.object fields) (.object members) (.object ((some name, .null) :: members))
  /-- An empty list is left out. -/
  | leaveOut {fields : List (String × Omission × Form)} {members : List (Option String × Json)}
    {name : String} {form : Form} (hfield : fields.lookup name = some (.empty, form)) :
    Relaid (.object fields) (.object ((some name, .array []) :: members)) (.object members)
  /-- A member is added that the reader does not know. It may be there already. -/
  | add {fields : List (String × Omission × Form)} {members : List (Option String × Json)}
    {name : String} {value : Json} (hname : fields.lookup name = none)
    (hvalue : value.isHoldable strangerNesting = true) :
    Relaid (.object fields) (.object members) (.object ((some name, value) :: members))
  /-- The value of a member is changed in one of these ways. -/
  | inside {fields : List (String × Omission × Form)} {members : List (Option String × Json)}
    {name : String} {omission : Omission} {form : Form} {value later : Json}
    (hfield : fields.lookup name = some (omission, form)) (h : Relaid form value later) :
    Relaid (.object fields) (.object ((some name, value) :: members))
      (.object ((some name, later) :: members))

/-- **What layout may change.** What is given for a member, as a list of no or one value, before and
after any number of changes. -/
inductive Laid : Omission → Form → List Json → List Json → Prop where
  | same {omission : Omission} (value : Json) : Laid omission .plain [value] [value]
  | absent {omission : Omission} {form : Form} : Laid omission form [] []
  | null {form : Form} : Laid .null form [] [.null]
  | leftOut {form : Form} : Laid .empty form [.array []] []
  | object {omission : Omission} {fields : List (String × Omission × Form)}
    {members later : List (Option String × Json)}
    (hfields : ∀ name omission form, fields.lookup name = some (omission, form) →
      Laid omission form (given name members) (given name later))
    (hkeys : ∀ member ∈ later, member.1.isSome = true)
    (hothers : ∀ name value, fields.lookup name = none → value ∈ given name later →
      value.isHoldable strangerNesting = true) :
    Laid omission (.object fields) [.object members] [.object later]

/-- **A name that the form knows is given twice**, in the object or in one that it holds. -/
inductive Doubled : Form → Json → Prop where
  | here {fields : List (String × Omission × Form)} {members : List (Option String × Json)}
    {name : String} {field : Omission × Form} (hfield : fields.lookup name = some field)
    (h : 2 ≤ (given name members).length) : Doubled (.object fields) (.object members)
  | inside {fields : List (String × Omission × Form)} {members : List (Option String × Json)}
    {name : String} {omission : Omission} {form : Form} {value : Json}
    (hfield : fields.lookup name = some (omission, form)) (hvalue : value ∈ given name members)
    (h : Doubled form value) : Doubled (.object fields) (.object members)

/-! ### Lists of at most one -/

theorem head?_of_mem_of_length_le_one {α : Type} {x : α} {list : List α} (h : x ∈ list)
    (hlength : list.length ≤ 1) : list.head? = some x := by
  match list, h, hlength with
  | [_], h, _ => exact congrArg some (List.mem_singleton.1 h).symm

theorem eq_of_perm_of_length_le_one {α : Type} {a b : List α} (h : a.Perm b) (hb : b.length ≤ 1) :
    a = b := by
  match b, hb with
  | [], _ => exact List.perm_nil.1 h
  | [_], _ => exact List.perm_singleton.1 h

theorem perm_given {members later : List (Option String × Json)} (h : members.Perm later)
    (name : String) : (given name members).Perm (given name later) :=
  (h.filter _).map _

/-! ### One change after another -/

theorem Laid.length_le_one {omission : Omission} {form : Form} {before after : List Json}
    (h : Laid omission form before after) : after.length ≤ 1 := by
  cases h <;> simp

/-- Where a value is given for a name, it is the only one. -/
theorem Laid.eq_nil_of_cons {omission : Omission} {form : Form} {before rest : List Json}
    {value : Json} (h : Laid omission form before (value :: rest)) : rest = [] := by
  have hlength := h.length_le_one
  rw [List.length_cons] at hlength
  exact List.eq_nil_of_length_eq_zero (by omega)

section Change

variable {fields : List (String × Omission × Form)} {members later : List (Option String × Json)}
  {omission : Omission} {before : List Json}

/-- A change of an object is one for each name by itself. -/
theorem Laid.change (h : Laid omission (.object fields) before [.object members])
    (hkeys : (∀ member ∈ members, member.1.isSome = true) →
      ∀ member ∈ later, member.1.isSome = true)
    (hfields : ∀ name omission form, fields.lookup name = some (omission, form) →
      ∀ values, Laid omission form values (given name members) →
        Laid omission form values (given name later))
    (hothers : ∀ name value, fields.lookup name = none → value ∈ given name later →
      value ∈ given name members ∨ value.isHoldable strangerNesting = true) :
    Laid omission (.object fields) before [.object later] := by
  cases h with
  | object hgiven hsome hholdable =>
    refine .object ?_ (hkeys hsome) ?_
    · intro name omission form hfield
      exact hfields name omission form hfield _ (hgiven name omission form hfield)
    · intro name value hname hmem
      rcases hothers name value hname hmem with hold | hnew
      · exact hholdable name value hname hold
      · exact hnew

/-- A change of what is given for one name that the form knows. -/
theorem Laid.change_field (h : Laid omission (.object fields) before [.object members])
    {name : String} {own : Omission} {form : Form} (hfield : fields.lookup name = some (own, form))
    (hkeys : (∀ member ∈ members, member.1.isSome = true) →
      ∀ member ∈ later, member.1.isSome = true)
    (hname : ∀ values, Laid own form values (given name members) →
      Laid own form values (given name later))
    (hsame : ∀ other ≠ name, given other later = given other members) :
    Laid omission (.object fields) before [.object later] := by
  refine h.change hkeys ?_ ?_
  · intro other _ _ hother values hgiven
    by_cases heq : other = name
    · subst heq
      obtain ⟨rfl, rfl⟩ := Prod.mk.inj (Option.some.inj (hfield.symm.trans hother))
      exact hname values hgiven
    · rwa [hsame other heq]
  · intro other value hother hmem
    -- The name is known, so the other one is not it.
    have hne : other ≠ name := by
      rintro rfl
      exact absurd (hfield.symm.trans hother) (by simp)
    rw [hsame other hne] at hmem
    exact .inl hmem

end Change

/-- **A change keeps what is laid out.** -/
theorem Laid.relaid {form : Form} {value later : Json} (h : Relaid form value later) :
    ∀ {omission : Omission} {before : List Json}, Laid omission form before [value] →
      Laid omission form before [later] := by
  induction h with
  | reorder hperm =>
    intro omission before hlaid
    refine hlaid.change ?_ ?_ ?_
    · intro hkeys member hmem
      exact hkeys member (hperm.mem_iff.2 hmem)
    · -- At most one value is given for a name, so the order of the members does not matter.
      intro name omission form _ values hgiven
      rwa [eq_of_perm_of_length_le_one (perm_given hperm.symm name) hgiven.length_le_one]
    · intro name value _ hmem
      exact .inl ((perm_given hperm name).mem_iff.2 hmem)
  | @giveNull fields members name form hfield habsent =>
    intro omission before hlaid
    refine hlaid.change_field hfield (fun hkeys => List.forall_mem_cons.2 ⟨rfl, hkeys⟩) ?_ ?_
    · intro values hgiven
      rw [given_cons_self, habsent]
      rw [habsent] at hgiven
      -- A member that may be given as null is never left out for another reason.
      cases hgiven with
      | absent => exact .null
    · intro other hne
      exact given_cons_of_ne (by simpa using hne.symm) _ _
  | @leaveOut fields members name form hfield =>
    intro omission before hlaid
    refine hlaid.change_field hfield (fun hkeys => (List.forall_mem_cons.1 hkeys).2) ?_ ?_
    · intro values hgiven
      rw [given_cons_self] at hgiven
      have hnil := hgiven.eq_nil_of_cons
      rw [hnil] at hgiven ⊢
      cases hgiven with
      | same => exact .leftOut
    · intro other hne
      exact (given_cons_of_ne (by simpa using hne.symm) _ _).symm
  | @add fields members name value hname hvalue =>
    intro omission before hlaid
    refine hlaid.change (fun hkeys => List.forall_mem_cons.2 ⟨rfl, hkeys⟩) ?_ ?_
    · intro other _ _ hother values hgiven
      -- The form knows the one name and not the other.
      have hne : name ≠ other := by
        rintro rfl
        exact absurd (hname.symm.trans hother) (by simp)
      rwa [given_cons_of_ne (by simpa using hne)]
    · intro other otherValue _ hmem
      rcases List.mem_cons.1 (mem_given.1 hmem) with heq | hold
      · obtain ⟨-, rfl⟩ := Prod.mk.inj heq
        exact .inr hvalue
      · exact .inl (mem_given.2 hold)
  | @inside fields members name own form value later hfield _ ih =>
    intro omission before hlaid
    refine hlaid.change_field hfield
      (fun hkeys => List.forall_mem_cons.2 ⟨rfl, (List.forall_mem_cons.1 hkeys).2⟩) ?_ ?_
    · intro values hgiven
      rw [given_cons_self] at hgiven ⊢
      have hnil := hgiven.eq_nil_of_cons
      rw [hnil] at hgiven ⊢
      exact ih hgiven
    · intro other hne
      have hkey : some name ≠ some other := by simpa using hne.symm
      rw [given_cons_of_ne hkey, given_cons_of_ne hkey]

/-- **Any number of changes keep what is laid out.** -/
theorem Laid.of_reflTransGen {omission : Omission} {form : Form} {before : List Json}
    {value later : Json} (hlaid : Laid omission form before [value])
    (h : ReflTransGen (Relaid form) value later) : Laid omission form before [later] := by
  induction h with
  | refl => exact hlaid
  | tail _ hchange ih => exact ih.relaid hchange

/-- What is given for a name after the members were written anew. -/
theorem given_of_perm {f : Json → Json} {members : List (String × Json)}
    (hnodup : (members.map Prod.fst).Nodup) {later : List (Option String × Json)}
    (h : later.Perm (members.map fun member => (some member.1, f member.2))) (name : String) :
    given name later = ((members.lookup name).map f).toList := by
  have hwritten : given name (members.map fun member => (some member.1, f member.2)) =
      ((members.lookup name).map f).toList := by
    have hmap := given_fields hnodup name
    rw [given] at hmap ⊢
    rw [Option.toList_map, ← hmap, List.filter_map, List.filter_map, List.map_map, List.map_map,
      List.map_map]
    rfl
  rw [← hwritten]
  refine eq_of_perm_of_length_le_one (perm_given h name) ?_
  rw [hwritten]
  cases (members.lookup name).map f <;> simp

/-- A way to write values anew that leaves texts as they are, and the members of an object except
for their order. -/
structure Rearranges (f : Json → Json) : Prop where
  text : ∀ s : String, f (.text s) = .text s
  texts : ∀ ss : List String, f (.array (ss.map .text)) = .array (ss.map .text)
  fields : ∀ members : List (String × Json), ∃ later, f (.fields members) = .object later ∧
    later.Perm (members.map fun member => (some member.1, f member.2))

theorem rearranges_id : Rearranges id :=
  ⟨fun _ => rfl, fun _ => rfl, fun _ => ⟨_, rfl, .refl _⟩⟩

namespace Rearranges

variable {f : Json → Json} (hf : Rearranges f)
include hf

theorem laid_text (s : String) (omission : Omission) :
    Laid omission .plain [.text s] [f (.text s)] := by
  rw [hf.text]
  exact .same _

theorem laid_texts (ss : List String) (omission : Omission) :
    Laid omission .plain [.array (ss.map .text)] [f (.array (ss.map .text))] := by
  rw [hf.texts]
  exact .same _

/-- **An object all of whose members are known** is laid out anew with them. -/
theorem laid_fields {omission : Omission} {known : List (String × Omission × Form)}
    {members : List (String × Json)} (hnodup : (members.map Prod.fst).Nodup)
    (h : ∀ member ∈ members, ∃ omission form, known.lookup member.1 = some (omission, form) ∧
      Laid omission form [member.2] [f member.2]) :
    Laid omission (.object known) [Json.fields members] [f (Json.fields members)] := by
  obtain ⟨later, hlater, hperm⟩ := hf.fields members
  rw [hlater]
  refine .object ?_ ?_ ?_
  -- What stands under a name is the same in every order, as no name stands twice.
  · intro name omission form hfield
    rw [given_fields hnodup, given_of_perm hnodup hperm]
    cases hvalue : members.lookup name with
    | none => exact .absent
    | some value =>
      obtain ⟨front, rest, hmembers, -⟩ := List.lookup_eq_some_iff.1 hvalue
      have hmem : (name, value) ∈ members := by simp [hmembers]
      obtain ⟨own, ownForm, hown, hlaid⟩ := h (name, value) hmem
      obtain ⟨rfl, rfl⟩ := Prod.mk.inj (Option.some.inj (hfield.symm.trans hown))
      exact hlaid
  · intro member hmem
    obtain ⟨m, -, rfl⟩ := List.mem_map.1 (hperm.mem_iff.1 hmem)
    rfl
  · intro name value hname hmem
    obtain ⟨m, hm, hmember⟩ := List.mem_map.1 (hperm.mem_iff.1 (mem_given.1 hmem))
    obtain ⟨hkey, rfl⟩ := Prod.mk.inj hmember
    obtain rfl := Option.some.inj hkey
    obtain ⟨_, _, hknown, -⟩ := h m hm
    exact absurd (hname.symm.trans hknown) (by simp)

end Rearranges

/-! ### Reading what is laid out -/

theorem Laid.eq_of_plain {omission : Omission} {value later : Json}
    (h : Laid omission .plain [value] [later]) : later = value := by
  cases h with
  | same => rfl

/-- What may not be left out is there. -/
theorem Laid.exists_eq {omission : Omission} {form : Form} {value : Json} {after : List Json}
    (h : Laid omission form [value] after) (hne : omission ≠ .empty) :
    ∃ later, after = [later] := by
  cases h with
  | same => exact ⟨_, rfl⟩
  | leftOut => exact absurd rfl hne
  | object => exact ⟨_, rfl⟩

section Read

variable {α : Type} {read? : Json → Option α} {form : Form} {after : List Json}

/-- A field that has to be given is read, if its value is, however that is laid out. -/
theorem Laid.required {value : Json} {x : α}
    (h : Laid .never form [value] after)
    (hread : ∀ later, Laid .never form [value] [later] → read? later = some x) :
    required read? after.head? = some x := by
  obtain ⟨later, rfl⟩ := h.exists_eq (by decide)
  exact hread later h

theorem Laid.required_plain {value : Json} {x : α} (h : Laid .never .plain [value] after)
    (hread : read? value = some x) : Json.required read? after.head? = some x :=
  h.required fun later hlater => by rwa [hlater.eq_of_plain]

/-- A field that may be null is read, whether it was left out or given as null. -/
theorem Laid.optional {write : α → Json} {value : Option α}
    (h : Laid .null form (value.map write).toList after) (hnull : ∀ x, write x ≠ .null)
    (hread : ∀ x later, Laid .null form [write x] [later] → read? later = some x) :
    optional read? after.head? = some value := by
  cases value with
  | none =>
    cases h with
    | absent => rfl
    | null => rfl
  | some x =>
    -- What is given for the value is no null, since it is not one at first or it is an object.
    have hgiven : ∀ later, Laid .null form [write x] [later] → later ≠ .null →
        Json.optional read? (some later) = some (some x) := by
      intro later hlater hne
      rw [Json.optional, hread x later hlater, Option.map_some]
      exact hne
    change Laid .null form [write x] after at h
    generalize hwrite : write x = value at h
    cases h with
    | same => exact hgiven value (hwrite ▸ .same _) (hwrite ▸ hnull x)
    | object hfields hkeys hothers =>
      exact hgiven _ (hwrite ▸ .object hfields hkeys hothers) (fun h => Json.noConfusion h)

/-- A list of texts that is left out when it is empty is read. -/
theorem Laid.defaulted_texts {texts : List String}
    (h : Laid .empty .plain [.array (texts.map text)] after) :
    defaulted [] texts? after.head? = some texts := by
  generalize hvalue : Json.array (texts.map text) = value at h
  cases h with
  | same =>
    subst hvalue
    exact mapM_text?_map texts
  | leftOut =>
    obtain rfl : texts = [] := List.map_eq_nil_iff.1 (Json.array.inj hvalue)
    rfl

end Read

/-- An object that was laid out anew, and what it gives for the names. -/
theorem Laid.exists_object {omission : Omission} {known : List (String × Omission × Form)}
    {members : List (String × Json)} {later : Json}
    (h : Laid omission (.object known) [fields members] [later])
    (hnodup : (members.map Prod.fst).Nodup) :
    ∃ more, later = .object more ∧ (∀ member ∈ more, member.1.isSome = true) ∧
      ∀ {name : String} {omission : Omission} {form : Form} {value : Option Json},
        known.lookup name = some (omission, form) → members.lookup name = value →
          Laid omission form value.toList (given name more) := by
  generalize hvalue : fields members = value at h
  cases h with
  | object hfields hkeys hothers =>
    obtain rfl := Json.object.inj hvalue
    refine ⟨_, rfl, hkeys, ?_⟩
    intro name omission form value hfield hvalue
    have hlaid := hfields name omission form hfield
    rwa [given_fields hnodup, hvalue] at hlaid

/-- What a reader of named fields sees of an object that was laid out anew. -/
theorem Laid.exists_fieldValues? {omission : Omission} {known : List (String × Omission × Form)}
    {members : List (String × Json)} {later : Json}
    (h : Laid omission (.object known) [fields members] [later])
    (hnodup : (members.map Prod.fst).Nodup) :
    ∃ after : String → List Json,
      later.fieldValues? (known.map Prod.fst) =
        some (known.map fun field => (after field.1).head?) ∧
      ∀ {name : String} {omission : Omission} {form : Form} {value : Option Json},
        known.lookup name = some (omission, form) → members.lookup name = value →
          Laid omission form value.toList (after name) := by
  obtain ⟨more, rfl, hkeys, hlaid⟩ := h.exists_object hnodup
  refine ⟨fun name => given name more, ?_, hlaid⟩
  refine fieldValues?_object_eq_some_iff.2 ⟨hkeys, ?_, ?_⟩
  · intro name hname
    obtain ⟨field, hfield, rfl⟩ := List.mem_map.1 hname
    cases hlookup : known.lookup field.1 with
    | none => exact absurd (List.lookup_eq_none_iff.1 hlookup field hfield) (by simp)
    | some own => exact (hlaid hlookup rfl).length_le_one
  · rw [List.map_map]
    rfl

/-! ### Names given twice -/

theorem Doubled.exists_object {form : Form} {value : Json} (h : Doubled form value) :
    ∃ members, value = .object members := by
  cases h <;> exact ⟨_, rfl⟩

/-- What a reader of named fields sees of an object in which a name is given twice: nothing, or the
name is given twice in one of the fields. -/
theorem Doubled.exists_field {known : List (String × Omission × Form)} {value : Json}
    {values : List (Option Json)} (h : Doubled (.object known) value)
    (hvalues : value.fieldValues? (known.map Prod.fst) = some values) :
    ∃ after : String → Option Json, values = known.map (fun field => after field.1) ∧
      ∃ name omission form inner, (name, omission, form) ∈ known ∧ after name = some inner ∧
        Doubled form inner := by
  have hmem : ∀ {name : String} {field : Omission × Form}, known.lookup name = some field →
      (name, field) ∈ known := by
    intro name field hfield
    obtain ⟨front, rest, rfl, -⟩ := List.lookup_eq_some_iff.1 hfield
    simp
  cases h with
  | @here _ members name field hfield htwice =>
    have hlength := (fieldValues?_object_eq_some_iff.1 hvalues).2.1 name
      (List.mem_map.2 ⟨_, hmem hfield, rfl⟩)
    omega
  | @inside _ members name omission form inner hfield hinner hdoubled =>
    obtain ⟨-, hlength, rfl⟩ := fieldValues?_object_eq_some_iff.1 hvalues
    -- The field has one value only, so it is this one.
    have hone := hlength name (List.mem_map.2 ⟨_, hmem hfield, rfl⟩)
    exact ⟨fun name => (given name members).head?, List.map_map, name, omission, form, inner,
      hmem hfield, head?_of_mem_of_length_le_one hinner hone, hdoubled⟩

/-- A field with a value that its reader refuses is refused, even if it may be null. -/
theorem Doubled.optional_eq_none {α : Type} {form : Form} {value : Json} {read? : Json → Option α}
    (h : Doubled form value) (hread : read? value = none) :
    Json.optional read? (some value) = none := by
  obtain ⟨members, rfl⟩ := h.exists_object
  rw [Json.optional, hread, Option.map_none]
  exact fun h => Json.noConfusion h

/-! ### Values held back -/

theorem areHoldable_iff {room : Nat} {items : List Json} :
    areHoldable room items = true ↔ ∀ item ∈ items, item.isHoldable room = true := by
  induction items with
  | nil => simp [areHoldable]
  | cons item items ih => rw [areHoldable, Bool.and_eq_true, ih, List.forall_mem_cons]

theorem areMembersHoldable_iff {room : Nat} {members : List (Option String × Json)} :
    areMembersHoldable room members = true ↔
      ∀ member ∈ members, member.1.isSome = true ∧ member.2.isHoldable room = true := by
  induction members with
  | nil => simp [areMembersHoldable]
  | cons member members ih =>
    rw [areMembersHoldable, Bool.and_eq_true, Bool.and_eq_true, ih, List.forall_mem_cons]

mutual

/-- More room does no harm. -/
theorem isHoldable_mono : ∀ (value : Json) {room more : Nat}, room ≤ more →
    value.isHoldable room = true → value.isHoldable more = true
  | .null, _, _, _, h | .bool _, _, _, _, h | .number _, _, _, _, h | .string _, _, _, _, h => h
  | .array items, room, more, hle, h => by
    rw [isHoldable, Bool.and_eq_true, decide_eq_true_iff] at h ⊢
    exact ⟨by omega, areHoldable_mono items (by omega) h.2⟩
  | .object members, room, more, hle, h => by
    rw [isHoldable, Bool.and_eq_true, decide_eq_true_iff] at h ⊢
    exact ⟨by omega, areMembersHoldable_mono members (by omega) h.2⟩

theorem areHoldable_mono : ∀ (items : List Json) {room more : Nat}, room ≤ more →
    areHoldable room items = true → areHoldable more items = true
  | [], _, _, _, h => h
  | item :: items, room, more, hle, h => by
    rw [areHoldable, Bool.and_eq_true] at h ⊢
    exact ⟨isHoldable_mono item hle h.1, areHoldable_mono items hle h.2⟩

theorem areMembersHoldable_mono : ∀ (members : List (Option String × Json)) {room more : Nat},
    room ≤ more → areMembersHoldable room members = true → areMembersHoldable more members = true
  | [], _, _, _, h => h
  | (_, value) :: members, room, more, hle, h => by
    rw [areMembersHoldable, Bool.and_eq_true, Bool.and_eq_true] at h ⊢
    exact ⟨⟨h.1.1, isHoldable_mono value hle h.1.2⟩, areMembersHoldable_mono members hle h.2⟩

end

/-- **What is laid out anew can be held back**, with more room for what was added. -/
theorem Laid.isHoldable {omission : Omission} {form : Form} {before after : List Json}
    (h : Laid omission form before after) : ∀ {room : Nat},
      (∀ value ∈ before, value.isHoldable room = true) →
        ∀ later ∈ after, later.isHoldable (room + strangerNesting) = true := by
  induction h with
  | same value =>
    intro room hroom later hmem
    obtain rfl := List.mem_singleton.1 hmem
    exact isHoldable_mono later (by omega) (hroom later List.mem_cons_self)
  | absent => exact fun _ _ hmem => absurd hmem List.not_mem_nil
  | null =>
    intro room _ later hmem
    obtain rfl := List.mem_singleton.1 hmem
    rfl
  | leftOut => exact fun _ _ hmem => absurd hmem List.not_mem_nil
  | @object _ known members later _ hkeys hothers ih =>
    intro room hroom value hmem
    obtain rfl := List.mem_singleton.1 hmem
    have hobject := hroom _ List.mem_cons_self
    rw [Json.isHoldable, Bool.and_eq_true, decide_eq_true_iff, areMembersHoldable_iff] at hobject
    rw [Json.isHoldable, Bool.and_eq_true, decide_eq_true_iff, areMembersHoldable_iff]
    refine ⟨by omega, fun member hmember => ⟨hkeys member hmember, ?_⟩⟩
    obtain ⟨key, value⟩ := member
    obtain ⟨name, rfl⟩ := Option.isSome_iff_exists.1 (hkeys _ hmember)
    have hgiven : value ∈ given name later := mem_given.2 hmember
    cases hfield : known.lookup name with
    | none =>
      -- A member that is not known brings its own room.
      exact isHoldable_mono value (by omega) (hothers name value hfield hgiven)
    | some field =>
      have hvalue := @ih name field.1 field.2 hfield (room - 1)
        (fun v hv => (hobject.2 _ (mem_given.1 hv)).2) value hgiven
      exact isHoldable_mono value (by omega) hvalue

theorem isHoldable_fields {room : Nat} {members : List (String × Json)}
    (h : ∀ member ∈ members, member.2.isHoldable room = true) :
    (fields members).isHoldable (room + 1) = true := by
  rw [fields, Json.isHoldable, Bool.and_eq_true, decide_eq_true_iff, areMembersHoldable_iff]
  refine ⟨by omega, fun member hmem => ?_⟩
  obtain ⟨m, hm, rfl⟩ := List.mem_map.1 hmem
  exact ⟨rfl, h m hm⟩

end DeviceScope.Json
