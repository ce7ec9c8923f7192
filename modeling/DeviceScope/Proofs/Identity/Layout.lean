import DeviceScope.Identity.Form
import DeviceScope.Proofs.Json.Layout

/-!
# Identities in any layout

Which freedom the layout of a pair, a credential and an identity has, as a form of each. However the
JSON of an identity is laid out, the identity is read back from it (`Identity.ofJson?_of_laid`), and
it can be held back in between (`Identity.isHoldable_of_laid`). An identity in which a known name is
given twice, at any depth, is refused (`Identity.ofJson?_of_doubled`).

Each reader is described once, by what it wants to be given for its fields
(`Identity.ofJson?_eq_some_iff`); both results are read off this.
-/

namespace DeviceScope

open Json (Form Laid Doubled)

/-- The members of an optional value are the one member with it. -/
theorem Json.mem_member? {name : String} {value : Option Json} {member : String × Json} :
    member ∈ member? name value ↔ member.1 = name ∧ value = some member.2 := by
  obtain ⟨key, inner⟩ := member
  cases value with
  | none => simp [member?]
  | some v => simp [member?, eq_comm]

namespace Pair

def form (primary secondary : String) : Form :=
  .object [(primary, .never, .plain), (secondary, .never, .plain)]

/-- What the reader of a pair wants. -/
theorem ofJson?_eq_some_iff {primary secondary : String} {value : Json} {pair : Pair} :
    ofJson? primary secondary value = some pair ↔
      ∃ first second, value.fieldValues? [primary, secondary] = some [first, second] ∧
        Json.required Json.text? first = some pair.primary ∧
        Json.required Json.text? second = some pair.secondary := by
  rw [ofJson?]
  constructor
  · intro h
    obtain ⟨values, hvalues, h⟩ := Option.bind_eq_some_iff.1 h
    split at h
    · next first second =>
      obtain ⟨a, ha, h⟩ := Option.bind_eq_some_iff.1 h
      obtain ⟨b, hb, h⟩ := Option.bind_eq_some_iff.1 h
      obtain rfl := Option.some.inj h
      exact ⟨first, second, hvalues, ha, hb⟩
    · exact absurd h (by simp)
  · rintro ⟨first, second, hvalues, ha, hb⟩
    rw [hvalues]
    dsimp only [bind, Option.bind]
    rw [ha]
    dsimp only
    rw [hb]

variable {primary secondary : String} (hne : primary ≠ secondary)
include hne

theorem laid_toJson {f : Json → Json} (hf : Json.Rearranges f) (pair : Pair)
    (omission : Json.Omission) :
    Laid omission (form primary secondary) [pair.toJson primary secondary]
      [f (pair.toJson primary secondary)] := by
  have hsecond : (secondary == primary) = false := by simpa using fun heq => hne heq.symm
  refine hf.laid_fields (by simpa using hne) ?_
  intro member hmem
  simp only [List.mem_cons, List.not_mem_nil, or_false] at hmem
  rcases hmem with rfl | rfl
  · exact ⟨.never, .plain, List.lookup_cons_self, hf.laid_text _ _⟩
  · exact ⟨.never, .plain, by simp [List.lookup_cons, hsecond], hf.laid_text _ _⟩

/-- A pair is read back, however it is laid out. -/
theorem ofJson?_of_laid {pair : Pair} {omission : Json.Omission} {later : Json}
    (h : Laid omission (form primary secondary) [pair.toJson primary secondary] [later]) :
    ofJson? primary secondary later = some pair := by
  have hsecond : (secondary == primary) = false := by simpa using fun heq => hne heq.symm
  obtain ⟨after, hvalues, hlaid⟩ := h.exists_fieldValues? (by simpa using hne)
  have hfirst : Laid .never .plain [Json.text pair.primary] (after primary) :=
    hlaid List.lookup_cons_self List.lookup_cons_self
  have hother : Laid .never .plain [Json.text pair.secondary] (after secondary) :=
    @hlaid _ _ _ (some (Json.text pair.secondary)) (by simp [List.lookup_cons, hsecond])
      (by simp [List.lookup_cons, hsecond])
  exact ofJson?_eq_some_iff.2 ⟨_, _, hvalues, hfirst.required_plain rfl, hother.required_plain rfl⟩

omit hne in
theorem isHoldable_toJson (pair : Pair) : (pair.toJson primary secondary).isHoldable 1 = true :=
  Json.isHoldable_fields fun member hmem => by
    simp only [List.mem_cons, List.not_mem_nil, or_false] at hmem
    rcases hmem with rfl | rfl <;> rfl

omit hne in
/-- A pair in which a name is given twice is refused. -/
theorem ofJson?_of_doubled {value : Json} (h : Doubled (form primary secondary) value) :
    ofJson? primary secondary value = none := by
  refine Option.eq_none_iff_forall_ne_some.2 fun pair hread => ?_
  obtain ⟨first, second, hvalues, -⟩ := ofJson?_eq_some_iff.1 hread
  obtain ⟨after, -, name, omission, form, inner, hmem, -, hinner⟩ := h.exists_field hvalues
  -- Neither of the fields has fields of its own.
  simp only [List.mem_cons, List.not_mem_nil, or_false, Prod.mk.injEq] at hmem
  rcases hmem with ⟨-, -, rfl⟩ | ⟨-, -, rfl⟩ <;> cases hinner

end Pair

namespace Credential

def form : Form :=
  .object [("type", .never, .plain), ("symmetricKey", .null, Pair.form "primaryKey" "secondaryKey"),
    ("x509Thumbprint", .null, Pair.form "primaryThumbprint" "secondaryThumbprint")]

/-- What the reader of a credential wants. -/
theorem ofJson?_eq_some_iff {held : Bool} {value : Json} {credential : Credential} :
    ofJson? held value = some credential ↔
      ∃ kind keys thumbprints, value.fieldValues? ["type", "symmetricKey", "x509Thumbprint"] =
          some [kind, keys, thumbprints] ∧
        Json.required (CredentialKind.ofJson? held) kind = some credential.kind ∧
        Json.optional (Pair.ofJson? "primaryKey" "secondaryKey") keys = some credential.keys ∧
        Json.optional (Pair.ofJson? "primaryThumbprint" "secondaryThumbprint") thumbprints =
          some credential.thumbprints := by
  rw [ofJson?]
  constructor
  · intro h
    obtain ⟨values, hvalues, h⟩ := Option.bind_eq_some_iff.1 h
    split at h
    · next kind keys thumbprints =>
      obtain ⟨a, ha, h⟩ := Option.bind_eq_some_iff.1 h
      obtain ⟨b, hb, h⟩ := Option.bind_eq_some_iff.1 h
      obtain ⟨c, hc, h⟩ := Option.bind_eq_some_iff.1 h
      obtain rfl := Option.some.inj h
      exact ⟨kind, keys, thumbprints, hvalues, ha, hb, hc⟩
    · exact absurd h (by simp)
  · rintro ⟨kind, keys, thumbprints, hvalues, ha, hb, hc⟩
    rw [hvalues]
    dsimp only [bind, Option.bind]
    rw [ha]
    dsimp only
    rw [hb]
    dsimp only
    rw [hc]

/-- The members of a credential as it is written. -/
def members (credential : Credential) : List (String × Json) :=
  ("type", credential.kind.toJson) ::
    (Json.member? "symmetricKey" (credential.keys.map (Pair.toJson "primaryKey" "secondaryKey")) ++
    Json.member? "x509Thumbprint"
      (credential.thumbprints.map (Pair.toJson "primaryThumbprint" "secondaryThumbprint")))

theorem toJson_eq (credential : Credential) : credential.toJson = .fields credential.members := rfl

/-- The members of a credential are a text and pairs. -/
theorem forall_mem_members {P : Json → Prop} (credential : Credential)
    (htext : ∀ text, P (.text text))
    (hpair : ∀ (pair : Pair) (primary secondary : String), P (pair.toJson primary secondary)) :
    ∀ member ∈ credential.members, P member.2 := by
  intro member hmem
  simp only [members, List.mem_cons, List.mem_append, Json.mem_member?] at hmem
  rcases hmem with rfl | ⟨-, hvalue⟩ | ⟨-, hvalue⟩
  · exact htext _
  all_goals
    obtain ⟨pair, -, hwritten⟩ := Option.map_eq_some_iff.1 hvalue
    exact hwritten ▸ hpair pair _ _

/-- No name is there twice, whichever of the pairs are there. -/
theorem nodup_members (credential : Credential) : (credential.members.map Prod.fst).Nodup := by
  obtain ⟨kind, keys, thumbprints⟩ := credential
  cases keys <;> cases thumbprints <;> simp [members, Json.member?]

/-- What is written under the name of each member. -/
theorem lookup_members (credential : Credential) :
    credential.members.lookup "type" = some credential.kind.toJson ∧
      credential.members.lookup "symmetricKey" =
        credential.keys.map (Pair.toJson "primaryKey" "secondaryKey") ∧
      credential.members.lookup "x509Thumbprint" =
        credential.thumbprints.map (Pair.toJson "primaryThumbprint" "secondaryThumbprint") := by
  obtain ⟨kind, keys, thumbprints⟩ := credential
  cases keys <;> cases thumbprints <;> exact ⟨rfl, rfl, rfl⟩

theorem laid_toJson {f : Json → Json} (hf : Json.Rearranges f) (credential : Credential)
    (omission : Json.Omission) :
    Laid omission form [credential.toJson] [f credential.toJson] := by
  rw [toJson_eq]
  refine hf.laid_fields credential.nodup_members ?_
  intro member hmem
  simp only [members, List.mem_cons, List.mem_append, Json.mem_member?] at hmem
  rcases hmem with rfl | ⟨hname, hvalue⟩ | ⟨hname, hvalue⟩
  · exact ⟨.never, .plain, rfl, hf.laid_text _ _⟩
  · obtain ⟨pair, -, hpair⟩ := Option.map_eq_some_iff.1 hvalue
    rw [hname, ← hpair]
    exact ⟨.null, _, rfl, Pair.laid_toJson (by decide) hf pair .null⟩
  · obtain ⟨pair, -, hpair⟩ := Option.map_eq_some_iff.1 hvalue
    rw [hname, ← hpair]
    exact ⟨.null, _, rfl, Pair.laid_toJson (by decide) hf pair .null⟩

/-- **A credential is read back**, however it is laid out. -/
theorem ofJson?_of_laid {credential : Credential} {omission : Json.Omission} {later : Json}
    (h : Laid omission form [credential.toJson] [later]) (held : Bool) :
    ofJson? held later = some credential := by
  rw [toJson_eq] at h
  obtain ⟨after, hvalues, hlaid⟩ := h.exists_fieldValues? credential.nodup_members
  obtain ⟨hkind, hkeys, hthumbprints⟩ := credential.lookup_members
  refine ofJson?_eq_some_iff.2 ⟨_, _, _, hvalues, ?_, ?_, ?_⟩
  · exact (hlaid rfl hkind).required_plain (by cases credential.kind <;> rfl)
  · exact (hlaid rfl hkeys).optional (fun _ h => Json.noConfusion h)
      fun _ _ => Pair.ofJson?_of_laid (by decide)
  · exact (hlaid rfl hthumbprints).optional (fun _ h => Json.noConfusion h)
      fun _ _ => Pair.ofJson?_of_laid (by decide)

theorem isHoldable_toJson (credential : Credential) : credential.toJson.isHoldable 2 = true := by
  rw [toJson_eq]
  exact Json.isHoldable_fields (credential.forall_mem_members (P := (·.isHoldable 1 = true))
    (fun _ => rfl) fun pair _ _ => pair.isHoldable_toJson)

/-- A credential in which a name is given twice is refused. -/
theorem ofJson?_of_doubled {value : Json} (h : Doubled form value) (held : Bool) :
    ofJson? held value = .none := by
  refine Option.eq_none_iff_forall_ne_some.2 fun credential hread => ?_
  obtain ⟨kind, keys, thumbprints, hvalues, -, hkeys, hthumbprints⟩ := ofJson?_eq_some_iff.1 hread
  obtain ⟨after, hafter, name, omission, form, inner, hmem, hname, hinner⟩ :=
    h.exists_field hvalues
  obtain ⟨-, rfl, rfl⟩ : kind = after "type" ∧ keys = after "symmetricKey" ∧
      thumbprints = after "x509Thumbprint" := by simpa using hafter
  simp only [List.mem_cons, List.not_mem_nil, or_false, Prod.mk.injEq] at hmem
  -- One of the pairs is refused.
  rcases hmem with ⟨-, -, rfl⟩ | ⟨rfl, -, rfl⟩ | ⟨rfl, -, rfl⟩
  · cases hinner
  · rw [hname, hinner.optional_eq_none (Pair.ofJson?_of_doubled hinner)] at hkeys
    exact absurd hkeys (by simp)
  · rw [hname, hinner.optional_eq_none (Pair.ofJson?_of_doubled hinner)] at hthumbprints
    exact absurd hthumbprints (by simp)

end Credential

namespace Identity

def form : Form :=
  .object [("deviceId", .never, .plain), ("moduleId", .null, .plain),
    ("generationId", .never, .plain), ("deviceScope", .null, .plain),
    ("parentScopes", .empty, .plain), ("authentication", .never, Credential.form),
    ("capabilities", .empty, .plain), ("status", .never, .plain)]

/-- What the reader of an identity wants. -/
theorem ofJson?_eq_some_iff {held : Bool} {value : Json} {identity : Identity} :
    ofJson? held value = some identity ↔
      ∃ device module generation scope parentScopes credential capabilities status,
        value.fieldValues? memberNames = some [device, module, generation, scope, parentScopes,
          credential, capabilities, status] ∧
        Json.required Json.text? device = some identity.device ∧
        Json.optional Json.text? module = some identity.module ∧
        Json.required Json.text? generation = some identity.generation ∧
        Json.optional Json.text? scope = some identity.scope ∧
        Json.defaulted [] Json.texts? parentScopes = some identity.parentScopes ∧
        Json.required (Credential.ofJson? held) credential = some identity.credential ∧
        Json.defaulted [] Json.texts? capabilities = some identity.capabilities ∧
        Json.required (Status.ofJson? held) status = some identity.status := by
  rw [ofJson?]
  constructor
  · intro h
    obtain ⟨values, hvalues, h⟩ := Option.bind_eq_some_iff.1 h
    split at h
    · obtain ⟨device, hdevice, h⟩ := Option.bind_eq_some_iff.1 h
      obtain ⟨module, hmodule, h⟩ := Option.bind_eq_some_iff.1 h
      obtain ⟨generation, hgeneration, h⟩ := Option.bind_eq_some_iff.1 h
      obtain ⟨scope, hscope, h⟩ := Option.bind_eq_some_iff.1 h
      obtain ⟨parentScopes, hparentScopes, h⟩ := Option.bind_eq_some_iff.1 h
      obtain ⟨credential, hcredential, h⟩ := Option.bind_eq_some_iff.1 h
      obtain ⟨capabilities, hcapabilities, h⟩ := Option.bind_eq_some_iff.1 h
      obtain ⟨status, hstatus, h⟩ := Option.bind_eq_some_iff.1 h
      obtain rfl := Option.some.inj h
      exact ⟨_, _, _, _, _, _, _, _, hvalues, hdevice, hmodule, hgeneration, hscope, hparentScopes,
        hcredential, hcapabilities, hstatus⟩
    · exact absurd h (by simp)
  · rintro ⟨device, module, generation, scope, parentScopes, credential, capabilities, status,
      hvalues, hdevice, hmodule, hgeneration, hscope, hparentScopes, hcredential, hcapabilities,
      hstatus⟩
    simp only [hvalues, hdevice, hmodule, hgeneration, hscope, hparentScopes, hcredential,
      hcapabilities, hstatus, Option.bind_eq_bind, Option.bind_some]

/-- The members of an identity as it is written. -/
def members (identity : Identity) : List (String × Json) :=
  ("deviceId", .text identity.device) ::
    (Json.member? "moduleId" (identity.module.map .text) ++
    ("generationId", .text identity.generation) ::
    (Json.member? "deviceScope" (identity.scope.map .text) ++
    [("parentScopes", .ofTexts identity.parentScopes),
      ("authentication", identity.credential.toJson),
      ("capabilities", .ofTexts identity.capabilities),
      ("status", identity.status.toJson)]))

theorem toJson_eq (identity : Identity) : identity.toJson = .fields identity.members := rfl

/-- The members of an identity are texts, lists of texts and its credential. -/
theorem forall_mem_members {P : Json → Prop} (identity : Identity) (htext : ∀ text, P (.text text))
    (htexts : ∀ texts, P (.ofTexts texts)) (hcredential : P identity.credential.toJson) :
    ∀ member ∈ identity.members, P member.2 := by
  intro member hmem
  simp only [members, List.mem_cons, List.mem_append, Json.mem_member?, List.not_mem_nil,
    or_false] at hmem
  rcases hmem with rfl | ⟨-, hvalue⟩ | rfl | ⟨-, hvalue⟩ | rfl | rfl | rfl | rfl
  · exact htext _
  · obtain ⟨name, -, hname⟩ := Option.map_eq_some_iff.1 hvalue
    exact hname ▸ htext name
  · exact htext _
  · obtain ⟨scope, -, hscope⟩ := Option.map_eq_some_iff.1 hvalue
    exact hscope ▸ htext scope
  · exact htexts _
  · exact hcredential
  · exact htexts _
  · exact htext _

/-- No name is there twice, whichever of the optional members are there. -/
theorem nodup_members (identity : Identity) : (identity.members.map Prod.fst).Nodup := by
  obtain ⟨device, module, generation, scope, parentScopes, credential, capabilities, status⟩ :=
    identity
  cases module <;> cases scope <;> simp [members, Json.member?]

theorem laid_toJson {f : Json → Json} (hf : Json.Rearranges f) (identity : Identity)
    (omission : Json.Omission) : Laid omission form [identity.toJson] [f identity.toJson] := by
  rw [toJson_eq]
  refine hf.laid_fields identity.nodup_members ?_
  intro member hmem
  simp only [members, List.mem_cons, List.mem_append, Json.mem_member?, List.not_mem_nil,
    or_false] at hmem
  rcases hmem with rfl | ⟨hname, hvalue⟩ | rfl | ⟨hname, hvalue⟩ | rfl | rfl | rfl | rfl
  · exact ⟨.never, .plain, rfl, hf.laid_text _ _⟩
  · obtain ⟨module, -, hmodule⟩ := Option.map_eq_some_iff.1 hvalue
    rw [hname, ← hmodule]
    exact ⟨.null, .plain, rfl, hf.laid_text _ _⟩
  · exact ⟨.never, .plain, rfl, hf.laid_text _ _⟩
  · obtain ⟨scope, -, hscope⟩ := Option.map_eq_some_iff.1 hvalue
    rw [hname, ← hscope]
    exact ⟨.null, .plain, rfl, hf.laid_text _ _⟩
  · exact ⟨.empty, .plain, rfl, hf.laid_texts _ _⟩
  · exact ⟨.never, Credential.form, rfl, identity.credential.laid_toJson hf .never⟩
  · exact ⟨.empty, .plain, rfl, hf.laid_texts _ _⟩
  · exact ⟨.never, .plain, rfl, hf.laid_text _ _⟩

/-- What is written under the name of each member. -/
theorem lookup_members (identity : Identity) :
    memberNames.map (fun name => identity.members.lookup name) =
      [some (.text identity.device), identity.module.map .text, some (.text identity.generation),
        identity.scope.map .text, some (.ofTexts identity.parentScopes),
        some identity.credential.toJson, some (.ofTexts identity.capabilities),
        some identity.status.toJson] := by
  obtain ⟨device, module, generation, scope, parentScopes, credential, capabilities, status⟩ :=
    identity
  cases module <;> cases scope <;> rfl

/-- **An identity is read back**, however it is laid out. -/
theorem ofJson?_of_laid {identity : Identity} {omission : Json.Omission} {later : Json}
    (h : Laid omission form [identity.toJson] [later]) (held : Bool) :
    ofJson? held later = some identity := by
  rw [toJson_eq] at h
  obtain ⟨after, hvalues, hlaid⟩ := h.exists_fieldValues? identity.nodup_members
  have hlookup := identity.lookup_members
  simp only [memberNames, List.map_cons, List.map_nil, List.cons.injEq, and_true] at hlookup
  obtain ⟨hdevice, hmodule, hgeneration, hscope, hparentScopes, hcredential, hcapabilities,
    hstatus⟩ := hlookup
  have htext : ∀ (text : String) (later : Json), Laid .null .plain [Json.text text] [later] →
      later.text? = some text := by
    intro text later hlater
    rw [hlater.eq_of_plain]
    rfl
  refine ofJson?_eq_some_iff.2 ⟨_, _, _, _, _, _, _, _, hvalues, ?_, ?_, ?_, ?_, ?_, ?_, ?_, ?_⟩
  · exact (hlaid rfl hdevice).required_plain rfl
  · exact (hlaid rfl hmodule).optional (fun _ h => Json.noConfusion h) htext
  · exact (hlaid rfl hgeneration).required_plain rfl
  · exact (hlaid rfl hscope).optional (fun _ h => Json.noConfusion h) htext
  · exact (hlaid rfl hparentScopes).defaulted_texts
  · exact (hlaid rfl hcredential).required fun _ hlater => Credential.ofJson?_of_laid hlater held
  · exact (hlaid rfl hcapabilities).defaulted_texts
  · exact (hlaid rfl hstatus).required_plain (by cases identity.status <;> rfl)

theorem isHoldable_toJson (identity : Identity) : identity.toJson.isHoldable 3 = true := by
  rw [toJson_eq]
  refine Json.isHoldable_fields (identity.forall_mem_members (P := (·.isHoldable 2 = true))
    (fun _ => rfl) ?_ identity.credential.isHoldable_toJson)
  intro texts
  rw [Json.ofTexts, Json.isHoldable, Bool.and_eq_true, Json.areHoldable_iff]
  refine ⟨rfl, fun item hitem => ?_⟩
  obtain ⟨text, -, rfl⟩ := List.mem_map.1 hitem
  rfl

/-- **An identity can be held back**, however it is laid out and whatever is added to it. -/
theorem isHoldable_of_laid {identity : Identity} {omission : Json.Omission} {later : Json}
    (h : Laid omission form [identity.toJson] [later]) :
    later.isHoldable (3 + Json.strangerNesting) = true := by
  refine h.isHoldable (fun value hmem => ?_) later List.mem_cons_self
  obtain rfl := List.mem_singleton.1 hmem
  exact identity.isHoldable_toJson

/-- An identity in which a name is given twice is refused. -/
theorem ofJson?_of_doubled {value : Json} (h : Doubled form value) (held : Bool) :
    ofJson? held value = none := by
  refine Option.eq_none_iff_forall_ne_some.2 fun identity hread => ?_
  obtain ⟨device, module, generation, scope, parentScopes, credential, capabilities, status,
    hvalues, -, -, -, -, -, hcredential, -, -⟩ := ofJson?_eq_some_iff.1 hread
  obtain ⟨after, hafter, name, omission, form, inner, hmem, hname, hinner⟩ :=
    h.exists_field hvalues
  obtain ⟨-, -, -, -, -, rfl, -, -⟩ : device = after "deviceId" ∧ module = after "moduleId" ∧
      generation = after "generationId" ∧ scope = after "deviceScope" ∧
      parentScopes = after "parentScopes" ∧ credential = after "authentication" ∧
      capabilities = after "capabilities" ∧ status = after "status" := by simpa using hafter
  simp only [List.mem_cons, List.not_mem_nil, or_false, Prod.mk.injEq] at hmem
  -- Only the credential has fields of its own.
  rcases hmem with ⟨-, -, rfl⟩ | ⟨-, -, rfl⟩ | ⟨-, -, rfl⟩ | ⟨-, -, rfl⟩ | ⟨-, -, rfl⟩ |
    ⟨rfl, -, rfl⟩ | ⟨-, -, rfl⟩ | ⟨-, -, rfl⟩
  case inr.inr.inr.inr.inr.inl =>
    rw [hname, Json.required, Option.bind_some, Credential.ofJson?_of_doubled hinner] at hcredential
    exact absurd hcredential (by simp)
  all_goals cases hinner

end Identity

end DeviceScope
