import Mathlib.Data.List.Forall2
import DeviceScope.Proofs.Identity.Form
import DeviceScope.Proofs.Json.Soundness

/-!
# What is read as an identity

Which JSON gives an identity is told here without a reader: what a value gives for its fields
(`Json.Gives`), and what each field makes of it. A field may be left out or be null
(`Json.Optional`), or may stand for an empty list if it is left out (`Json.Listed`); a choice is a
name, or an object that has nothing but this name (`Json.Named`).

The reader goes by this and by nothing else (`Identity.ofJson?_eq_some_iff_isGivenBy`), so the
identities that are read from a text are those of which it is an array
(`Identity.listOfText?_eq_some_iff`).
-/

namespace DeviceScope

namespace Json

/-- **What a value gives for the named fields**, in the order of the names: an object gives the
values that stand under the names, of which there is one at most, and an array gives its items, and
nothing for the fields behind the last item. -/
inductive Gives (names : List String) : Json → List (Option Json) → Prop where
  | object {members : List (Option String × Json)} {values : List (Option Json)}
    (hkeys : ∀ member ∈ members, member.1.isSome = true)
    (h : List.Forall₂ (fun name value => given name members = Option.toList value) names values) :
    Gives names (.object members) values
  | array {items : List Json} {missing : Nat} (hlength : items.length + missing = names.length) :
    Gives names (.array items) (items.map some ++ List.replicate missing none)

/-- A field that may be left out or be null. -/
inductive Optional {α : Type} (Gives : Json → α → Prop) : Option Json → Option α → Prop where
  | leftOut : Optional Gives none none
  | null : Optional Gives (some .null) none
  | given {value : Json} {x : α} (h : Gives value x) : Optional Gives (some value) (some x)

/-- A list of texts, which may be left out if it is empty. -/
inductive Listed : Option Json → List String → Prop where
  | leftOut : Listed none []
  | given (texts : List String) : Listed (some (.array (texts.map .text))) texts

/-- A name that was chosen. -/
inductive Named (name : String) : Json → Prop where
  | text : Named name (.text name)
  | member : Named name (.object [(some name, .null)])

theorem forall₂_head?_iff {names : List String} {members : List (Option String × Json)}
    {values : List (Option Json)} :
    List.Forall₂ (fun name value => given name members = Option.toList value) names values ↔
      (∀ name ∈ names, (given name members).length ≤ 1) ∧
        values = names.map fun name => (given name members).head? := by
  induction names generalizing values with
  | nil => simp
  | cons name names ih =>
    rw [List.forall₂_cons_left_iff, List.forall_mem_cons, List.map_cons]
    constructor
    · rintro ⟨value, rest, hvalue, hrest, rfl⟩
      obtain ⟨hlength, rfl⟩ := ih.1 hrest
      rw [hvalue]
      cases value with
      | none => exact ⟨⟨Nat.zero_le 1, hlength⟩, rfl⟩
      | some value => exact ⟨⟨Nat.le_refl 1, hlength⟩, rfl⟩
    · rintro ⟨⟨hone, hlength⟩, rfl⟩
      refine ⟨_, _, ?_, ih.2 ⟨hlength, rfl⟩, rfl⟩
      match given name members, hone with
      | [], _ => rfl
      | [_], _ => rfl

/-- **The reader of named fields** takes what a value gives for them. -/
theorem fieldValues?_eq_some_iff {names : List String} {value : Json}
    {values : List (Option Json)} :
    value.fieldValues? names = some values ↔ Gives names value values := by
  constructor
  · intro h
    cases value with
    | object members =>
      obtain ⟨hkeys, hlength, hvalues⟩ := fieldValues?_object_eq_some_iff.1 h
      exact .object hkeys (forall₂_head?_iff.2 ⟨hlength, hvalues⟩)
    | array items =>
      rw [fieldValues?] at h
      split at h
      · next hle =>
        obtain rfl := Option.some.inj h
        exact .array (by omega)
      · exact absurd h (by simp)
    | _ => exact absurd h (by simp [fieldValues?])
  · intro h
    cases h with
    | object hkeys hvalues =>
      exact fieldValues?_object_eq_some_iff.2 ⟨hkeys, forall₂_head?_iff.1 hvalues⟩
    | @array items missing hlength =>
      rw [fieldValues?, if_pos (by omega), ← hlength, Nat.add_sub_cancel_left]

theorem text?_eq_some_iff {value : Json} {s : String} : value.text? = some s ↔ value = .text s := by
  cases value with
  | string given => exact ⟨fun h => congrArg Json.string h, fun h => Json.string.inj h⟩
  | _ => exact ⟨fun h => absurd h (by simp [text?]), fun h => Json.noConfusion h⟩

theorem required_eq_some_iff {α : Type} {read? : Json → Option α} {value : Option Json} {x : α} :
    required read? value = some x ↔ ∃ given, value = some given ∧ read? given = some x :=
  Option.bind_eq_some_iff

theorem optional_eq_some_iff {α : Type} {read? : Json → Option α} {Gives : Json → α → Prop}
    (hread : ∀ value x, read? value = some x ↔ Gives value x) (hnull : read? .null = none)
    {value : Option Json} {x : Option α} :
    optional read? value = some x ↔ Optional Gives value x := by
  constructor
  · intro h
    rw [optional.eq_def] at h
    split at h
    · obtain rfl := Option.some.inj h
      exact .leftOut
    · obtain rfl := Option.some.inj h
      exact .null
    · obtain ⟨y, hy, rfl⟩ := Option.map_eq_some_iff.1 h
      exact .given ((hread _ _).1 hy)
  · intro h
    cases h with
    | leftOut => rfl
    | null => rfl
    | @given value x h =>
      -- What gives something is not null, of which the reader makes nothing.
      have hvalue := (hread value x).2 h
      rw [optional.eq_def]
      split
      · next heq => exact absurd heq (by simp)
      · next heq =>
        rw [Option.some.inj heq, hnull] at hvalue
        exact absurd hvalue (by simp)
      · next other heq =>
        obtain rfl := Option.some.inj heq
        rw [hvalue]
        rfl

theorem mapM_eq_some_iff {α : Type} {read? : Json → Option α} {items : List Json} {xs : List α} :
    items.mapM read? = some xs ↔ List.Forall₂ (fun item x => read? item = some x) items xs := by
  induction items generalizing xs with
  | nil => simp [eq_comm]
  | cons item items ih =>
    rw [List.mapM_cons, List.forall₂_cons_left_iff, Option.bind_eq_bind, Option.bind_eq_some_iff]
    refine exists_congr fun x => ?_
    rw [Option.bind_eq_bind, Option.bind_eq_some_iff]
    simp only [ih]
    constructor
    · rintro ⟨hx, rest, hrest, hxs⟩
      exact ⟨rest, hx, hrest, (Option.some.inj hxs).symm⟩
    · rintro ⟨rest, hx, hrest, rfl⟩
      exact ⟨hx, rest, hrest, rfl⟩

theorem defaulted_texts?_eq_some_iff {value : Option Json} {texts : List String} :
    defaulted [] texts? value = some texts ↔ Listed value texts := by
  constructor
  · intro h
    cases value with
    | none =>
      obtain rfl := Option.some.inj h
      exact .leftOut
    | some value =>
      cases value with
      | array items =>
        have hitems := mapM_eq_some_iff.1 h
        simp only [text?_eq_some_iff] at hitems
        obtain rfl : items = texts.map .text := by
          rw [← List.forall₂_eq_eq_eq, List.forall₂_map_right_iff]
          exact hitems
        exact .given texts
      | _ => exact absurd h (by simp [defaulted, texts?])
  · intro h
    cases h with
    | leftOut => rfl
    | given => exact mapM_text?_map texts

/-- A choice is read if its name was chosen. -/
theorem choice?_eq_some_iff {α : Type} {choices : List (String × α)} {value : Json} {x : α} :
    choice? false choices value = some x ↔
      ∃ name, choices.lookup name = some x ∧ Named name value := by
  constructor
  · intro h
    rw [choice?.eq_def] at h
    split at h
    · next name => exact ⟨name, h, .text⟩
    · next name inner =>
      split at h
      · next hnothing =>
        -- Nothing is what null says.
        cases inner with
        | null => exact ⟨name, h, .member⟩
        | object members =>
          cases members with
          | nil => exact absurd hnothing (by simp [isNothing])
          | cons => exact absurd hnothing (by simp [isNothing])
        | _ => exact absurd hnothing (by simp [isNothing])
      · exact absurd h (by simp)
    · exact absurd h (by simp)
  · rintro ⟨name, hlookup, hnamed⟩
    cases hnamed with
    | text => exact hlookup
    | member => exact hlookup

end Json

open Json (Gives Optional Listed Named)

/-- A status is chosen by its name. -/
theorem Status.ofJson?_eq_some_iff {value : Json} {status : Status} :
    ofJson? false value = some status ↔ Named status.name value := by
  rw [ofJson?, Json.choice?_eq_some_iff]
  constructor
  · rintro ⟨name, hlookup, hnamed⟩
    obtain ⟨front, rest, hchoices, -⟩ := List.lookup_eq_some_iff.1 hlookup
    have hmem : (name, status) ∈ choices := by simp [hchoices]
    simp only [choices, List.mem_cons, List.not_mem_nil, or_false, Prod.mk.injEq] at hmem
    rcases hmem with ⟨rfl, rfl⟩ | ⟨rfl, rfl⟩ <;> exact hnamed
  · intro h
    exact ⟨status.name, by cases status <;> rfl, h⟩

/-- A kind of credential is chosen by its name. -/
theorem CredentialKind.ofJson?_eq_some_iff {value : Json} {kind : CredentialKind} :
    ofJson? false value = some kind ↔ Named kind.name value := by
  rw [ofJson?, Json.choice?_eq_some_iff]
  constructor
  · rintro ⟨name, hlookup, hnamed⟩
    obtain ⟨front, rest, hchoices, -⟩ := List.lookup_eq_some_iff.1 hlookup
    have hmem : (name, kind) ∈ choices := by simp [hchoices]
    simp only [choices, List.mem_cons, List.not_mem_nil, or_false, Prod.mk.injEq] at hmem
    rcases hmem with ⟨rfl, rfl⟩ | ⟨rfl, rfl⟩ | ⟨rfl, rfl⟩ | ⟨rfl, rfl⟩ <;> exact hnamed
  · intro h
    exact ⟨kind.name, by cases kind <;> rfl, h⟩

/-- The value gives the pair, under these names. -/
def Pair.IsGivenBy (primary secondary : String) (value : Json) (pair : Pair) : Prop :=
  Gives [primary, secondary] value [some (.text pair.primary), some (.text pair.secondary)]

theorem Pair.ofJson?_eq_some_iff_isGivenBy {primary secondary : String} {value : Json}
    {pair : Pair} :
    ofJson? primary secondary value = some pair ↔ IsGivenBy primary secondary value pair := by
  rw [Pair.ofJson?_eq_some_iff, IsGivenBy]
  simp only [Json.required_eq_some_iff, Json.text?_eq_some_iff, Json.fieldValues?_eq_some_iff]
  constructor
  · rintro ⟨_, _, hgives, ⟨_, rfl, rfl⟩, _, rfl, rfl⟩
    exact hgives
  · intro hgives
    exact ⟨_, _, hgives, ⟨_, rfl, rfl⟩, _, rfl, rfl⟩

/-- The value gives the credential. -/
def Credential.IsGivenBy (value : Json) (credential : Credential) : Prop :=
  ∃ kind keys thumbprints,
    Gives ["type", "symmetricKey", "x509Thumbprint"] value [some kind, keys, thumbprints] ∧
      Named credential.kind.name kind ∧
      Optional (Pair.IsGivenBy "primaryKey" "secondaryKey") keys credential.keys ∧
      Optional (Pair.IsGivenBy "primaryThumbprint" "secondaryThumbprint") thumbprints
        credential.thumbprints

theorem Credential.ofJson?_eq_some_iff_isGivenBy {value : Json} {credential : Credential} :
    ofJson? false value = some credential ↔ IsGivenBy value credential := by
  have hpair : ∀ {primary secondary : String} {value : Option Json} {pair : Option Pair},
      Json.optional (Pair.ofJson? primary secondary) value = some pair ↔
        Optional (Pair.IsGivenBy primary secondary) value pair :=
    Json.optional_eq_some_iff (fun _ _ => Pair.ofJson?_eq_some_iff_isGivenBy) rfl
  rw [Credential.ofJson?_eq_some_iff, IsGivenBy]
  simp only [hpair, Json.required_eq_some_iff, CredentialKind.ofJson?_eq_some_iff,
    Json.fieldValues?_eq_some_iff]
  constructor
  · rintro ⟨_, keys, thumbprints, hgives, ⟨kind, rfl, hkind⟩, hkeys, hthumbprints⟩
    exact ⟨kind, keys, thumbprints, hgives, hkind, hkeys, hthumbprints⟩
  · rintro ⟨kind, keys, thumbprints, hgives, hkind, hkeys, hthumbprints⟩
    exact ⟨_, keys, thumbprints, hgives, ⟨kind, rfl, hkind⟩, hkeys, hthumbprints⟩

namespace Identity

/-- **The value gives the identity.** -/
def IsGivenBy (value : Json) (identity : Identity) : Prop :=
  ∃ module scope parentScopes credential capabilities status,
    Gives ["deviceId", "moduleId", "generationId", "deviceScope", "parentScopes",
        "authentication", "capabilities", "status"] value
      [some (.text identity.device), module, some (.text identity.generation), scope,
        parentScopes, some credential, capabilities, some status] ∧
      Optional (fun value name => value = .text name) module identity.module ∧
      Optional (fun value name => value = .text name) scope identity.scope ∧
      Listed parentScopes identity.parentScopes ∧
      Credential.IsGivenBy credential identity.credential ∧
      Listed capabilities identity.capabilities ∧
      Named identity.status.name status

/-- **An identity is read from the values that give it**, and from no others. -/
theorem ofJson?_eq_some_iff_isGivenBy {value : Json} {identity : Identity} :
    ofJson? false value = some identity ↔ IsGivenBy value identity := by
  have htext : ∀ {value : Option Json} {name : Option String},
      Json.optional Json.text? value = some name ↔
        Optional (fun value name => value = .text name) value name :=
    Json.optional_eq_some_iff (fun _ _ => Json.text?_eq_some_iff) rfl
  rw [Identity.ofJson?_eq_some_iff, IsGivenBy]
  simp only [htext, Json.required_eq_some_iff, Json.text?_eq_some_iff,
    Json.defaulted_texts?_eq_some_iff, Credential.ofJson?_eq_some_iff_isGivenBy,
    Status.ofJson?_eq_some_iff, Json.fieldValues?_eq_some_iff]
  constructor
  · rintro ⟨_, module, _, scope, parentScopes, _, capabilities, _, hgives, ⟨_, rfl, rfl⟩, hmodule,
      ⟨_, rfl, rfl⟩, hscope, hparentScopes, ⟨credential, rfl, hcredential⟩, hcapabilities, status,
      rfl, hstatus⟩
    exact ⟨module, scope, parentScopes, credential, capabilities, status, hgives, hmodule, hscope,
      hparentScopes, hcredential, hcapabilities, hstatus⟩
  · rintro ⟨module, scope, parentScopes, credential, capabilities, status, hgives, hmodule, hscope,
      hparentScopes, hcredential, hcapabilities, hstatus⟩
    exact ⟨_, module, _, scope, parentScopes, _, capabilities, _, hgives, ⟨_, rfl, rfl⟩, hmodule,
      ⟨_, rfl, rfl⟩, hscope, hparentScopes, ⟨credential, rfl, hcredential⟩, hcapabilities, status,
      rfl, hstatus⟩

/-- The text is an array of these identities. -/
def AreSpelledBy (document : List Char) (identities : List Identity) : Prop :=
  ∃ items, (Json.array items).Spells document ∧ List.Forall₂ IsGivenBy items identities

/-- **Identities are read from a text that is an array of them**, and from no other. -/
theorem listOfText?_eq_some_iff {document : String} {identities : List Identity} :
    listOfText? document = some identities ↔ AreSpelledBy document.toList identities := by
  have hall : ∀ items : List Json, items.mapM (ofJson? false) = some identities ↔
      List.Forall₂ IsGivenBy items identities := by
    intro items
    rw [Json.mapM_eq_some_iff]
    simp only [ofJson?_eq_some_iff_isGivenBy]
  rw [listOfText?, AreSpelledBy]
  constructor
  · intro h
    split at h
    · next items hitems => exact ⟨items, Json.ofText?_eq_some_iff.1 hitems, (hall items).1 h⟩
    · exact absurd h (by simp)
  · rintro ⟨items, hspells, hgiven⟩
    rw [Json.ofText?_eq_some_iff.2 hspells]
    exact (hall items).2 hgiven

/-- Identities that are written down as an array are spelled. -/
theorem areSpelledBy_compact (identities : List Identity) :
    AreSpelledBy (Json.array (identities.map toJson)).compact identities := by
  refine ⟨_, Json.spells_compact (.array fun item hitem => ?_), ?_⟩
  · obtain ⟨identity, -, rfl⟩ := List.mem_map.1 hitem
    exact identity.plain_toJson
  · rw [List.forall₂_map_left_iff, List.forall₂_same]
    exact fun identity _ => ofJson?_eq_some_iff_isGivenBy.1 (identity.ofJson?_toJson false)

end Identity

end DeviceScope
