import Mathlib.Data.List.Permutation
import DeviceScope.Proofs.Identity.Layout
import DeviceScope.Proofs.Time.Timestamp
import DeviceScope.Record.Form

/-!
# Records in any layout

The forms of an entry and of a record, and that both are read back however they are laid out
(`Record.ofJson?_of_laid`) and refused when a known name is given twice anywhere in them
(`Record.ofJson?_of_doubled`).

The reader of an entry wants to know the state before it reads the identity. Of the members that it
knows it goes by the order in which they come, and if the identity comes first, it is held back. So
an entry is told by what is given under the two names and not by their order
(`Entry.ofJson?_of_given`) only because an identity can always be held back.
-/

namespace DeviceScope

open Json (Form Laid Doubled given)

/-! ### Members of two names -/

namespace Json

/-- The members of two names are what is given for the one and for the other, in some order. -/
theorem perm_filter_or {first second : String} (hne : first ≠ second)
    (members : List (Option String × Json)) :
    (members.filter fun member => member.1 = some first ∨ member.1 = some second).Perm
      ((given first members).map (some first, ·) ++
        (given second members).map (some second, ·)) := by
  -- A member of the first name stays in front, and one of the second moves behind all of those.
  induction members with
  | nil => exact .nil
  | cons member members ih =>
    obtain ⟨key, value⟩ := member
    by_cases hfirst : key = some first
    · subst hfirst
      rw [List.filter_cons_of_pos (by simp), given_cons_self, given_cons_of_ne (by simpa using hne)]
      exact ih.cons _
    · by_cases hsecond : key = some second
      · subst hsecond
        rw [List.filter_cons_of_pos (by simp), given_cons_self, given_cons_of_ne hfirst]
        exact (ih.cons _).trans List.perm_middle.symm
      · rw [List.filter_cons_of_neg (by simp [hfirst, hsecond]), given_cons_of_ne hfirst,
          given_cons_of_ne hsecond]
        exact ih

/-- Members of other names have no part in what is given for a name. -/
theorem given_filter {members : List (Option String × Json)} {name : String}
    {p : Option String × Json → Bool} (h : ∀ value, p (some name, value) = true) :
    given name (members.filter p) = given name members := by
  rw [given, List.filter_filter]
  refine congrArg (List.map Prod.snd) (List.filter_congr fun member _ => ?_)
  obtain ⟨key, value⟩ := member
  by_cases hkey : key = some name
  · subst hkey
    simp [h]
  · simp [hkey]

end Json

namespace Entry

def form : Form := .object [("state", .never, .plain), ("identity", .null, Identity.form)]

/-- **An entry is told by what is given under its two names**, in whichever order they stand. -/
theorem ofJson?_of_given {members : List (Option String × Json)} {state : Json} {isPresent : Bool}
    {entry : Entry} (hkeys : ∀ member ∈ members, member.1.isSome = true)
    (hstate : given "state" members = [state])
    (hchoice : Json.choice? false states state = some isPresent)
    (hlength : (given "identity" members).length ≤ 1)
    (hheld : ∀ value ∈ given "identity" members, value.isHoldable heldNesting = true)
    (hparts : ∀ held, ofParts? held isPresent (given "identity" members).head? = some entry) :
    ofJson? (.object members) = some entry := by
  have hperm := Json.perm_filter_or (show "state" ≠ "identity" by decide) members
  rw [hstate] at hperm
  rw [ofJson?, if_pos (List.all_eq_true.2 hkeys)]
  match hidentity : given "identity" members, hlength with
  | [], _ =>
    rw [hidentity] at hperm hparts
    rw [List.perm_singleton.1 hperm]
    show (Json.choice? false states state).bind (fun isPresent => ofParts? false isPresent none) = _
    rw [hchoice]
    exact hparts false
  | [identity], _ =>
    rw [hidentity] at hperm hparts hheld
    rcases List.perm_pair.1 hperm with hinOrder | hheldBack
    · rw [hinOrder]
      show (Json.choice? false states state).bind
        (fun isPresent => ofParts? false isPresent (some identity)) = _
      rw [hchoice]
      exact hparts false
    · -- The identity comes first, and there is room to hold it back.
      rw [hheldBack]
      show (Json.choice? false states state).bind (fun isPresent =>
        if identity.isHoldable heldNesting then ofParts? true isPresent (some identity)
        else none) = _
      rw [hchoice, Option.bind_some, if_pos (hheld identity List.mem_cons_self)]
      exact hparts true

/-- What is given under the two names if an entry is told by it. -/
theorem given_of_ofJson? {members : List (Option String × Json)} {entry : Entry}
    (h : ofJson? (.object members) = some entry) :
    (given "state" members).length ≤ 1 ∧ (given "identity" members).length ≤ 1 ∧
      ∃ held isPresent, ofParts? held isPresent (given "identity" members).head? = some entry := by
  -- Only the members of the two names are looked at.
  let own := members.filter fun member => member.1 = some "state" ∨ member.1 = some "identity"
  have hstate : given "state" members = given "state" own :=
    (Json.given_filter fun value => by simp).symm
  have hidentity : given "identity" members = given "identity" own :=
    (Json.given_filter fun value => by simp).symm
  rw [hstate, hidentity]
  rw [ofJson?] at h
  split at h
  · split at h
    · next state heq =>
      rw [show own = _ from heq]
      obtain ⟨isPresent, -, hparts⟩ := Option.bind_eq_some_iff.1 h
      exact ⟨Nat.le_refl 1, Nat.zero_le 1, false, isPresent, hparts⟩
    · next state identity heq =>
      rw [show own = _ from heq]
      obtain ⟨isPresent, -, hparts⟩ := Option.bind_eq_some_iff.1 h
      exact ⟨Nat.le_refl 1, Nat.le_refl 1, false, isPresent, hparts⟩
    · next identity state heq =>
      rw [show own = _ from heq]
      obtain ⟨isPresent, -, hparts⟩ := Option.bind_eq_some_iff.1 h
      split at hparts
      · exact ⟨Nat.le_refl 1, Nat.le_refl 1, true, isPresent, hparts⟩
      · exact absurd hparts (by simp)
    · exact absurd h (by simp)
  · exact absurd h (by simp)

/-- The members of an entry as it is written. -/
def members : Entry → List (String × Json)
  | .present identity => [("state", .text "present"), ("identity", identity.toJson)]
  | .absent => [("state", .text "absent")]

theorem toJson_eq (entry : Entry) : entry.toJson = .fields entry.members := by
  cases entry <;> rfl

theorem nodup_members (entry : Entry) : (entry.members.map Prod.fst).Nodup := by
  cases entry <;> simp [members]

theorem laid_toJson {f : Json → Json} (hf : Json.Rearranges f) (entry : Entry)
    (omission : Json.Omission) : Laid omission form [entry.toJson] [f entry.toJson] := by
  rw [toJson_eq]
  refine hf.laid_fields entry.nodup_members fun member hmem => ?_
  cases entry with
  | present identity =>
    simp only [members, List.mem_cons, List.not_mem_nil, or_false] at hmem
    rcases hmem with rfl | rfl
    · exact ⟨.never, .plain, rfl, hf.laid_text _ _⟩
    · exact ⟨.null, Identity.form, rfl, identity.laid_toJson hf .null⟩
  | absent =>
    obtain rfl := List.mem_singleton.1 hmem
    exact ⟨.never, .plain, rfl, hf.laid_text _ _⟩

/-- **An entry is read back**, however it is laid out. -/
theorem ofJson?_of_laid {entry : Entry} {omission : Json.Omission} {later : Json}
    (h : Laid omission form [entry.toJson] [later]) : ofJson? later = some entry := by
  rw [toJson_eq] at h
  obtain ⟨more, rfl, hkeys, hlaid⟩ := h.exists_object entry.nodup_members
  -- Only what is given under the two names matters, so the order is gone here.
  cases entry with
  | present identity =>
    have hstate := hlaid rfl (show List.lookup "state" _ = some (Json.text "present") from rfl)
    have hidentity := hlaid rfl (show List.lookup "identity" _ = some identity.toJson from rfl)
    obtain ⟨state, heq⟩ := hstate.exists_eq (by decide)
    rw [heq] at hstate
    obtain rfl := hstate.eq_of_plain
    refine ofJson?_of_given hkeys heq rfl hidentity.length_le_one ?_ ?_
    · -- What may be added to an identity leaves it room to be held back.
      intro value hmem
      obtain ⟨later, heq⟩ := hidentity.exists_eq (by decide)
      rw [heq] at hidentity hmem
      obtain rfl := List.mem_singleton.1 hmem
      exact Json.isHoldable_mono value (by decide) (Identity.isHoldable_of_laid hidentity)
    · intro held
      obtain ⟨later, heq⟩ := hidentity.exists_eq (by decide)
      rw [heq] at hidentity ⊢
      show (Identity.ofJson? held later).map Entry.present = _
      rw [Identity.ofJson?_of_laid hidentity, Option.map_some]
  | absent =>
    have hstate := hlaid rfl (show List.lookup "state" _ = some (Json.text "absent") from rfl)
    have hidentity := hlaid rfl (show List.lookup "identity" _ = .none from rfl)
    obtain ⟨state, heq⟩ := hstate.exists_eq (by decide)
    rw [heq] at hstate
    obtain rfl := hstate.eq_of_plain
    refine ofJson?_of_given hkeys heq rfl hidentity.length_le_one ?_ ?_
    · intro value hmem
      generalize given "identity" more = after at hidentity hmem
      cases hidentity with
      | absent => exact absurd hmem List.not_mem_nil
      | null =>
        obtain rfl := List.mem_singleton.1 hmem
        rfl
    · -- There is no identity, or null in its place.
      intro held
      generalize given "identity" more = after at hidentity
      cases hidentity with
      | absent => rfl
      | null => rfl

/-- **An entry in which a name is given twice is refused.** -/
theorem ofJson?_of_doubled {value : Json} (h : Doubled form value) : ofJson? value = none := by
  refine Option.eq_none_iff_forall_ne_some.2 fun entry hread => ?_
  obtain ⟨members, rfl⟩ := h.exists_object
  obtain ⟨hstate, hidentity, held, isPresent, hparts⟩ := given_of_ofJson? hread
  have hknown : ∀ {name : String} {field : Json.Omission × Form},
      [("state", Json.Omission.never, Form.plain), ("identity", .null, Identity.form)].lookup name =
        some field → (name = "state" ∧ field.2 = .plain) ∨
          (name = "identity" ∧ field.2 = Identity.form) := by
    intro name field hfield
    obtain ⟨front, rest, heq, -⟩ := List.lookup_eq_some_iff.1 hfield
    have hmem : (name, field) ∈
        [("state", Json.Omission.never, Form.plain), ("identity", .null, Identity.form)] := by
      rw [heq]
      simp
    simp only [List.mem_cons, List.not_mem_nil, or_false, Prod.mk.injEq] at hmem
    rcases hmem with ⟨rfl, rfl⟩ | ⟨rfl, rfl⟩
    · exact .inl ⟨rfl, rfl⟩
    · exact .inr ⟨rfl, rfl⟩
  cases h with
  | here hfield htwice =>
    rcases hknown hfield with ⟨rfl, -⟩ | ⟨rfl, -⟩ <;> omega
  | @inside _ _ name omission form inner hfield hinner hdoubled =>
    rcases hknown hfield with ⟨rfl, hform⟩ | ⟨rfl, hform⟩
    · obtain rfl : form = .plain := hform
      cases hdoubled
    · obtain rfl : form = Identity.form := hform
      rw [Json.head?_of_mem_of_length_le_one hinner hidentity] at hparts
      -- Neither can the identity be read, nor is it null.
      cases isPresent with
      | true =>
        change (Identity.ofJson? held inner).map Entry.present = some entry at hparts
        rw [Identity.ofJson?_of_doubled hdoubled] at hparts
        exact absurd hparts (by simp)
      | false =>
        obtain ⟨parts, rfl⟩ := hdoubled.exists_object
        exact absurd hparts (by simp [ofParts?])

end Entry

namespace Record

def form : Form :=
  .object [("id", .never, .plain), ("entry", .never, Entry.form), ("timestamp", .never, .plain)]

/-- What the reader of a record wants. -/
theorem ofJson?_eq_some_iff {value : Json} {record : Record} :
    ofJson? value = some record ↔
      ∃ id entry stamp, value.fieldValues? ["id", "entry", "timestamp"] = some [id, entry, stamp] ∧
        Json.required Json.text? id = some record.id ∧
        Json.required Entry.ofJson? entry = some record.entry ∧
        Json.required stampOfJson? stamp = some record.stamp := by
  rw [ofJson?]
  constructor
  · intro h
    obtain ⟨values, hvalues, h⟩ := Option.bind_eq_some_iff.1 h
    split at h
    · obtain ⟨id, hid, h⟩ := Option.bind_eq_some_iff.1 h
      obtain ⟨entry, hentry, h⟩ := Option.bind_eq_some_iff.1 h
      obtain ⟨stamp, hstamp, h⟩ := Option.bind_eq_some_iff.1 h
      obtain rfl := Option.some.inj h
      exact ⟨_, _, _, hvalues, hid, hentry, hstamp⟩
    · exact absurd h (by simp)
  · rintro ⟨id, entry, stamp, hvalues, hid, hentry, hstamp⟩
    simp only [hvalues, hid, hentry, hstamp, Option.bind_eq_bind, Option.bind_some]

/-- The JSON of a record, if it has any. -/
theorem toJson?_eq_some_iff {record : Record} {value : Json} :
    record.toJson? = some value ↔ ∃ stamp, record.stamp.toText? = some stamp ∧
      value = .fields [("id", .text record.id), ("entry", record.entry.toJson),
        ("timestamp", .text stamp)] := by
  rw [toJson?, Option.bind_eq_bind, Option.bind_eq_some_iff]
  refine exists_congr fun stamp => and_congr_right fun _ => ?_
  rw [Option.some.injEq, eq_comm]

theorem laid_of_toJson? {f : Json → Json} (hf : Json.Rearranges f) {record : Record}
    {value : Json} (h : record.toJson? = some value) (omission : Json.Omission) :
    Laid omission form [value] [f value] := by
  obtain ⟨stamp, -, rfl⟩ := toJson?_eq_some_iff.1 h
  refine hf.laid_fields (by simp) fun member hmem => ?_
  simp only [List.mem_cons, List.not_mem_nil, or_false] at hmem
  rcases hmem with rfl | rfl | rfl
  · exact ⟨.never, .plain, rfl, hf.laid_text _ _⟩
  · exact ⟨.never, Entry.form, rfl, record.entry.laid_toJson hf .never⟩
  · exact ⟨.never, .plain, rfl, hf.laid_text _ _⟩

/-- **A record is read back**, however it is laid out. -/
theorem ofJson?_of_laid {record : Record} {value later : Json} {omission : Json.Omission}
    (h : record.toJson? = some value) (hlaid : Laid omission form [value] [later]) :
    ofJson? later = some record := by
  obtain ⟨stamp, hstamp, rfl⟩ := toJson?_eq_some_iff.1 h
  obtain ⟨after, hvalues, hgiven⟩ := hlaid.exists_fieldValues? (by simp)
  have hid := hgiven rfl (show List.lookup "id" _ = some (Json.text record.id) from rfl)
  have hentry := hgiven rfl (show List.lookup "entry" _ = some record.entry.toJson from rfl)
  have htime := hgiven rfl (show List.lookup "timestamp" _ = some (Json.text stamp) from rfl)
  refine ofJson?_eq_some_iff.2 ⟨_, _, _, hvalues, ?_, ?_, ?_⟩
  · exact hid.required_plain rfl
  · exact hentry.required fun _ hlater => Entry.ofJson?_of_laid hlater
  · exact htime.required_plain (Timestamp.ofText?_of_toText? hstamp)

/-- **A record in which a name is given twice is refused**, wherever in it this is. -/
theorem ofJson?_of_doubled {value : Json} (h : Doubled form value) : ofJson? value = none := by
  refine Option.eq_none_iff_forall_ne_some.2 fun record hread => ?_
  obtain ⟨id, entry, stamp, hvalues, -, hentry, -⟩ := ofJson?_eq_some_iff.1 hread
  obtain ⟨after, hafter, name, omission, form, inner, hmem, hname, hinner⟩ :=
    h.exists_field hvalues
  obtain ⟨-, rfl, -⟩ : id = after "id" ∧ entry = after "entry" ∧ stamp = after "timestamp" := by
    simpa using hafter
  simp only [List.mem_cons, List.not_mem_nil, or_false, Prod.mk.injEq] at hmem
  -- Only the entry has fields of its own.
  rcases hmem with ⟨-, -, rfl⟩ | ⟨rfl, -, rfl⟩ | ⟨-, -, rfl⟩
  · cases hinner
  · rw [hname, Json.required, Option.bind_some, Entry.ofJson?_of_doubled hinner] at hentry
    exact absurd hentry (by simp)
  · cases hinner

end Record

end DeviceScope
