import DeviceScope.Proofs.Identity.Form
import DeviceScope.Proofs.Record.Layout

/-!
# Records survive in the store

What is stored for a record is read back as that record, under its own id
(`Record.decode_encode`), whichever identity it holds. A record has a text to be stored as if its
stamp has a written form, and that of a record that was read always has one, however the text that
it was read from was written (`Record.stored_without_loss`).

Another program, or someone who edits a store by hand, will write the same record differently. The
text is then still read as the record, unless a name that is known is given twice in it
(`Record.layout_does_not_matter`).
-/

namespace DeviceScope

namespace Entry

theorem plain_toJson (entry : Entry) : entry.toJson.Plain := by
  cases entry with
  | present identity =>
    refine .fields ?_
    intro member hmem
    simp only [List.mem_cons, List.not_mem_nil, or_false] at hmem
    rcases hmem with rfl | rfl
    · exact .text _
    · exact identity.plain_toJson
  | absent =>
    refine .fields ?_
    intro member hmem
    obtain rfl := List.mem_singleton.1 hmem
    exact .text _

end Entry

namespace Record

/-- The JSON of a record is plain and is read back. -/
theorem ofJson?_toJson? {record : Record} {value : Json} (h : record.toJson? = some value) :
    value.Plain ∧ ofJson? value = some record := by
  refine ⟨?_, ofJson?_of_laid h (laid_of_toJson? Json.rearranges_id h .never)⟩
  obtain ⟨stamp, -, rfl⟩ := toJson?_eq_some_iff.1 h
  refine .fields ?_
  intro member hmem
  simp only [List.mem_cons, List.not_mem_nil, or_false] at hmem
  rcases hmem with rfl | rfl | rfl
  · exact .text _
  · exact record.entry.plain_toJson
  · exact .text _

/-- What is stored for a record is its JSON, if it has one. -/
theorem encode_eq_ok_iff {record : Record} {text : String} :
    record.encode = .ok text ↔
      ∃ value, record.toJson? = some value ∧ value.compactText = text := by
  delta encode
  constructor
  · intro h
    split at h
    · next value hvalue => exact ⟨value, hvalue, Except.ok.inj h⟩
    · exact absurd h (by simp)
  · rintro ⟨value, hvalue, rfl⟩
    rw [hvalue]

/-- **What is stored for a record is read back as that record.** -/
theorem decode_encode {record : Record} {text : String} (h : record.encode = .ok text) :
    decode record.id text = .ok record := by
  obtain ⟨value, hvalue, rfl⟩ := encode_eq_ok_iff.1 h
  obtain ⟨hplain, hread⟩ := ofJson?_toJson? hvalue
  rw [decode, Json.ofText?_compactText hplain]
  rw [Option.bind_eq_bind, Option.bind_some, hread]
  exact if_pos rfl

/-- A record is stored as a text if its stamp has a written form. -/
theorem encode_of_isWritable {record : Record} (h : record.stamp.isWritable = true) :
    ∃ text, record.encode = .ok text := by
  have hjson : ∃ value, record.toJson? = some value := by
    rw [toJson?, Timestamp.toText?, if_pos h]
    exact ⟨_, rfl⟩
  obtain ⟨value, hvalue⟩ := hjson
  exact ⟨value.compactText, encode_eq_ok_iff.2 ⟨value, hvalue, rfl⟩⟩

/-! ### Other texts of a record -/

/-- **The same record in another layout**: a text that differs from the first one in white space, in
the ways in which characters are named in strings, and in any number of changes of the layout of its
objects. -/
def IsRelaid (text document : String) : Prop :=
  ∃ value laid : Json, value.Spells text.toList ∧
    Relation.ReflTransGen (Json.Relaid form) value laid ∧ laid.Spells document.toList

/-- A text in which a name that is known in a record is given twice in one object. -/
def IsDoubled (document : String) : Prop :=
  ∃ value : Json, value.Spells document.toList ∧ Json.Doubled form value

/-- What is written for a record is its JSON. -/
theorem spells_of_encode {record : Record} {text : String} (h : record.encode = .ok text) :
    ∃ value, record.toJson? = some value ∧ value.Spells text.toList := by
  obtain ⟨value, hvalue, rfl⟩ := encode_eq_ok_iff.1 h
  exact ⟨value, hvalue, Json.spells_compactText (ofJson?_toJson? hvalue).1⟩

/-- **A record is decoded whatever the layout of its text.** -/
theorem decode_of_isRelaid {record : Record} {text document : String} (h : record.encode = .ok text)
    (hlaid : IsRelaid text document) : decode record.id document = .ok record := by
  obtain ⟨value, laid, htext, hchanges, hdocument⟩ := hlaid
  obtain ⟨written, hwritten, hspells⟩ := spells_of_encode h
  -- The text spells one value only, and this is what was written.
  obtain rfl : value = written :=
    Option.some.inj ((Json.ofText?_of_spells htext).symm.trans (Json.ofText?_of_spells hspells))
  have hread : ofJson? laid = some record :=
    ofJson?_of_laid hwritten
      ((laid_of_toJson? Json.rearranges_id hwritten .never).of_reflTransGen hchanges)
  rw [decode, Json.ofText?_of_spells hdocument, Option.bind_eq_bind, Option.bind_some, hread]
  exact if_pos rfl

/-- **A text in which a known name is given twice is refused**, under every key. -/
theorem decode_of_isDoubled {document : String} (h : IsDoubled document) (key : String) :
    decode key document = .error (.invalidRecord key .unreadable) := by
  obtain ⟨value, hdocument, hdoubled⟩ := h
  rw [decode, Json.ofText?_of_spells hdocument, Option.bind_eq_bind, Option.bind_some,
    ofJson?_of_doubled hdoubled]

/-- **What is stored for a record is refused under any other key.** -/
theorem decode_encode_of_ne {record : Record} {key text : String} (h : record.encode = .ok text)
    (hkey : key ≠ record.id) :
    decode key text = .error (.invalidRecord key (.misplaced record.id)) := by
  have hown := decode_encode h
  -- The text spells the record whatever the key; only the comparison with the id is another one.
  rw [decode] at hown ⊢
  cases hfound : Json.ofText? text >>= ofJson? with
  | none =>
    rw [hfound] at hown
    exact absurd hown (by simp)
  | some found =>
    rw [hfound] at hown
    dsimp only at hown ⊢
    split at hown
    · obtain rfl := Except.ok.inj hown
      exact if_neg fun hid => hkey hid.symm
    · exact absurd hown (by simp)

/-- The stamp of a record that is read has a written form. -/
theorem isWritable_of_ofJson? {value : Json} {record : Record} (h : ofJson? value = some record) :
    record.stamp.isWritable = true := by
  rw [ofJson?] at h
  obtain ⟨values, -, h⟩ := Option.bind_eq_some_iff.1 h
  split at h
  · next id entry stamp =>
    obtain ⟨id, -, h⟩ := Option.bind_eq_some_iff.1 h
    obtain ⟨entry, -, h⟩ := Option.bind_eq_some_iff.1 h
    obtain ⟨stamp, hstamp, h⟩ := Option.bind_eq_some_iff.1 h
    obtain rfl := Option.some.inj h
    -- The stamp was read from a text.
    obtain ⟨value, -, hread⟩ := Option.bind_eq_some_iff.1 hstamp
    obtain ⟨text, -, hread⟩ := Option.bind_eq_some_iff.1 hread
    exact Timestamp.isWritable_of_ofChars? hread
  · exact absurd h (by simp)

/-- A record that is read can be stored, and is then read again under the same key. -/
theorem encode_of_decode {key text : String} {record : Record} (h : decode key text = .ok record) :
    ∃ stored, record.encode = .ok stored ∧ decode key stored = .ok record := by
  rw [decode] at h
  split at h
  · next found hfound =>
    split at h
    · next hid =>
      obtain rfl := Except.ok.inj h
      obtain ⟨value, -, hread⟩ := Option.bind_eq_some_iff.1 hfound
      obtain ⟨stored, hstored⟩ := encode_of_isWritable (isWritable_of_ofJson? hread)
      exact ⟨stored, hstored, hid ▸ decode_encode hstored⟩
    · exact absurd h (by simp)
  · exact absurd h (by simp)

/-- A record that is read lies under its own id. -/
theorem id_of_decode {key text : String} {record : Record} (h : decode key text = .ok record) :
    record.id = key := by
  rw [decode] at h
  split at h
  · next found hfound =>
    split at h
    · next hid =>
      obtain rfl := Except.ok.inj h
      exact hid
    · exact absurd h (by simp)
  · exact absurd h (by simp)

/-- **Records are stored without loss.** Every record with a stamp as RFC 3339 has them can be
stored; its text is read back as the very same record under its own id, and is refused as misplaced
under any other key. And whatever text a record was read from, the record can be stored again and is
read back under the same key. -/
theorem stored_without_loss :
    (∀ record : Record, record.stamp.IsRegular →
      ∃ text, record.encode = .ok text ∧ decode record.id text = .ok record ∧
        ∀ key, key ≠ record.id →
          decode key text = .error (.invalidRecord key (.misplaced record.id))) ∧
    ∀ key text record, decode key text = .ok record →
      ∃ stored, record.encode = .ok stored ∧ decode key stored = .ok record := by
  constructor
  · intro record hregular
    obtain ⟨text, htext⟩ := encode_of_isWritable ((Timestamp.isWritable_iff _).2 hregular)
    exact ⟨text, htext, decode_encode htext, fun key hkey => decode_encode_of_ne htext hkey⟩
  · intro key text record h
    exact encode_of_decode h

/-- A record full of characters that have to be escaped, on the last day of the last year, and a
record that was read from another layout and a leap second. -/
theorem stored_without_loss_escaped_and_leap :
    (∃ text, (Record.mk "a\"\\/\n\x00" (.present ⟨"a\"\\", some "\n\x00", "", none, [],
        ⟨.sas, some ⟨"é", "\x7f"⟩, none⟩, ["", ","], .disabled⟩)
          ⟨253402300799999999999, -86340⟩).encode = .ok text ∧
      decode "a" text = .error (.invalidRecord "a" (.misplaced "a\"\\/\n\x00"))) ∧
    ∃ stored, (Record.mk "a" .absent ⟨1483228799999999999, -18000⟩).encode = .ok stored ∧
      decode "a" stored = .ok ⟨"a", .absent, ⟨1483228799999999999, -18000⟩⟩ := by
  constructor
  · obtain ⟨text, htext, -, hother⟩ := stored_without_loss.1
      ⟨"a\"\\/\n\x00", .present ⟨"a\"\\", some "\n\x00", "", none, [],
        ⟨.sas, some ⟨"é", "\x7f"⟩, none⟩, ["", ","], .disabled⟩, ⟨253402300799999999999, -86340⟩⟩
      ⟨by decide, by decide, by decide, by decide⟩
    exact ⟨text, htext, hother "a" (by decide)⟩
  · let text : String := "[\"a\", [\"absent\", null], \"2016-12-31 18:59:60.5-05:00\"]"
    have hread : Json.ofText? text >>= ofJson? =
        some ⟨"a", .absent, ⟨1483228799999999999, -18000⟩⟩ := by decide +kernel
    have hdecode : decode "a" text = .ok ⟨"a", .absent, ⟨1483228799999999999, -18000⟩⟩ := by
      rw [decode, hread]
      rfl
    exact stored_without_loss.2 "a" text _ hdecode

/-- **The layout of a record does not matter.** Whatever is written for a record may be written in
another layout, and is still read back as the record. There may be white space between any two
tokens, a character of a string may be named by any escape that stands for it, and the members of
each object may come in any order; an absent member may be given as null and an empty list be left
out; and there may be members of names that are not known, each as often as one likes.

What must not be is that a name that is known is given twice in one object. Such a text is refused,
whatever else is in it. -/
theorem layout_does_not_matter {record : Record} {text : String} (h : record.encode = .ok text) :
    IsRelaid text text ∧
    (∀ document, IsRelaid text document → decode record.id document = .ok record) ∧
    ∀ document, IsDoubled document →
      ∀ key, decode key document = .error (.invalidRecord key .unreadable) := by
  refine ⟨?_, fun document hlaid => decode_of_isRelaid h hlaid,
    fun document hdoubled key => decode_of_isDoubled hdoubled key⟩
  obtain ⟨value, -, hspells⟩ := spells_of_encode h
  exact ⟨value, value, hspells, .refl, hspells⟩

namespace Rearranged

/-- A record of an id that is out of scope. -/
def record : Record := ⟨"a", .absent, ⟨0, 0⟩⟩

def written : String :=
  "\x7b\"id\":\"a\",\"entry\":\x7b\"state\":\"absent\"\x7d," ++
    "\"timestamp\":\"1970-01-01T00:00:00Z\"\x7d"

theorem encode_record : record.encode = .ok written := by
  have htext : record.toJson?.map Json.compactText = some written := by decide
  exact encode_eq_ok_iff.2 (Option.map_eq_some_iff.1 htext)

/-- The same record with white space and an escape, and with two notes. The identity that there is
not is given as null, and before it is told that there is not one. -/
def document : String :=
  "\n\x7b \"\\u0069d\" :\"a\",\"note\":7,\"note\":null,\"entry\":\x7b\"identity\":null," ++
    "\"state\":\"absent\"\x7d,\"timestamp\":\"1970-01-01T00:00:00Z\"\x7d\t"

/-- The members of the document behind the first one. -/
def others : List (Option String × Json) :=
  [(some "note", .nat 7), (some "note", .null),
    (some "entry", .fields [("identity", .null), ("state", .text "absent")]),
    (some "timestamp", .text "1970-01-01T00:00:00Z")]

theorem relaid : Relation.ReflTransGen (Json.Relaid form)
    (.fields [("id", .text "a"), ("entry", .fields [("state", .text "absent")]),
      ("timestamp", .text "1970-01-01T00:00:00Z")])
    (.object ((some "id", .text "a") :: others)) := by
  have hnote : ∀ value members, value.isHoldable Json.strangerNesting = true →
      Json.Relaid form (.object members) (.object ((some "note", value) :: members)) :=
    fun _ _ hvalue => .add rfl hvalue
  have hnull : Json.Relaid Entry.form (.fields [("state", .text "absent")])
      (.fields [("identity", .null), ("state", .text "absent")]) := .giveNull rfl rfl
  -- The entry comes to the front and gets its null; the notes are added; the id comes to the front.
  refine .head (.reorder (.swap _ _ _)) (.head (.inside rfl hnull)
    (.head (hnote .null _ (by decide)) (.head (hnote (.nat 7) _ (by decide))
      (.single (.reorder ?_)))))
  exact @List.perm_middle _ (some "id", .text "a") (others.take 3) (others.drop 3)

/-- What stands in the document are the tokens of its value. -/
theorem spells_document : (Json.object ((some "id", .text "a") :: others)).Spells
    document.toList := by
  -- The key is the one string that is not written as usual.
  have hpieces : Json.InSequence Json.Piece.Spelled [.unit 0x69, .char 'd']
      (['\\', 'u', '0', '0', '6', '9'] ++ ['d']) :=
    .cons (@Json.Piece.Spelled.numbered _ _ _ _ 0 0 6 9 (by decide) (by decide) (by decide)
      (by decide))
      (.single (.plain (by decide) (by decide) (by decide)))
  have hblank : ∀ c ∈ Json.blanks, ∀ d ∈ [c], d ∈ Json.blanks :=
    fun _ hc => List.forall_mem_singleton.2 hc
  have hkey : (Json.Token.string (some "id")).Written (" \"\\u0069d\"".toList) :=
    .mk (hblank ' ' (by decide)) (.string hpieces)
  have hcolon : (Json.Token.mark ':').Written [' ', ':'] :=
    .mk (hblank ' ' (by decide)) (.fixed _)
  have hopen : (Json.Token.mark '\x7b').Written ['\n', '\x7b'] :=
    .mk (hblank '\n' (by decide)) (.fixed _)
  have hothers : ∀ member ∈ others, member.1.isSome = true ∧ member.2.Plain := by
    simp only [others, List.forall_mem_cons, List.not_mem_nil, false_implies, implies_true,
      and_true]
    refine ⟨⟨rfl, .number (by decide)⟩, ⟨rfl, .null⟩, ⟨rfl, .fields ?_⟩, rfl, .text _⟩
    exact List.forall_mem_cons.2 ⟨.null, List.forall_mem_singleton.2 (.text _)⟩
  have hrest := Json.inSequence_memberTokens (fun member hmem => (hothers member hmem).1)
    (fun member hmem => Json.inSequence_compact (hothers member hmem).2) false
  have htokens : Json.InSequence Json.Token.Written
      (Json.object ((some "id", .text "a") :: others)).tokens _ :=
    .cons hopen (.append (.cons hkey (.cons hcolon
      (.append (.single (Json.Token.written_string "a")) hrest)))
        (.single (Json.Token.written_mark '\x7d')))
  have hspells := Json.Spells.mk htokens (hblank '\t' (by decide))
  -- The document is read in its two halves.
  refine Eq.mp (congrArg (Json.Spells _) (Eq.trans ?_ String.toList_append.symm)) hspells
  decide +kernel

/-- The id is given twice. -/
def doubled : String := "\x7b\"id\":\"a\",\"id\":\"a\"\x7d"

theorem isDoubled_doubled : IsDoubled doubled := by
  have hplain : (Json.fields [("id", .text "a"), ("id", .text "a")]).Plain :=
    .fields (List.forall_mem_cons.2 ⟨.text _, List.forall_mem_singleton.2 (.text _)⟩)
  have hspells := Json.spells_compactText hplain
  refine ⟨_, Eq.mp (congrArg (Json.Spells _) (by decide)) hspells, ?_⟩
  exact @Json.Doubled.here _ _ "id" _ rfl (Nat.le_refl 2)

theorem isRelaid_document : IsRelaid written document := by
  obtain ⟨value, hvalue, hspells⟩ := spells_of_encode encode_record
  have hjson : record.toJson? = some _ :=
    toJson?_eq_some_iff.2 ⟨"1970-01-01T00:00:00Z", by decide, rfl⟩
  obtain rfl := Option.some.inj (hvalue.symm.trans hjson)
  exact ⟨_, _, hspells, relaid, spells_document⟩

end Rearranged

/-- The record is read from the other text, and not from one in which its id is given twice. -/
theorem layout_does_not_matter_rearranged :
    Rearranged.record.encode = .ok Rearranged.written ∧
      decode "a" Rearranged.document = .ok Rearranged.record ∧
      decode "a" Rearranged.doubled = .error (.invalidRecord "a" .unreadable) := by
  obtain ⟨-, hrelaid, hdoubled⟩ := layout_does_not_matter Rearranged.encode_record
  exact ⟨Rearranged.encode_record, hrelaid _ Rearranged.isRelaid_document,
    hdoubled _ Rearranged.isDoubled_doubled "a"⟩

end Record

end DeviceScope
