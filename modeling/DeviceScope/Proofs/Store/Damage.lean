import DeviceScope.Proofs.Json.Ending
import DeviceScope.Proofs.Record.Form
import DeviceScope.Proofs.Store.File

/-!
# Damaged data

What is stored for a record, and what a file holds for a store, is one JSON object in its compact
form. Where a part of it is missing at the end, or something other than white space stands behind
it, nothing is read at all (`damaged_data_is_refused`): a record is unreadable under every key, and
a file does not open. So damage never shows as a store with fewer entries, or with other ones.

For a file the cut may be between any two bytes, also inside a character. Both statements are those
of `Json.ofText?_of_cut` and `Json.ofBytes?_of_cut` on objects in general.
-/

namespace DeviceScope

namespace Record

/-- **A text is taken for no record**, whatever key it lies under. -/
def IsUnreadable (text : String) : Prop :=
  ∀ key, decode key text = .error (.invalidRecord key .unreadable)

theorem isUnreadable_of_ofText? {text : String} (h : Json.ofText? text = none) :
    IsUnreadable text := by
  intro key
  rw [decode, h]
  rfl

/-- What is stored for a record is the text of an object. -/
theorem exists_members_of_encode {record : Record} {text : String} (h : record.encode = .ok text) :
    ∃ members : List (Option String × Json), (Json.object members).Plain ∧
      text = (Json.object members).compactText ∧ ofJson? (.object members) = some record := by
  obtain ⟨value, hvalue, rfl⟩ := encode_eq_ok_iff.1 h
  obtain ⟨hplain, hread⟩ := ofJson?_toJson? hvalue
  obtain ⟨stamp, -, rfl⟩ := toJson?_eq_some_iff.1 hvalue
  exact ⟨_, hplain, rfl, hread⟩

/-- **What is stored for a record and then cut off** is taken for no record. -/
theorem isUnreadable_of_cut {record : Record} {text front rest : String}
    (h : record.encode = .ok text) (hcut : front ++ rest = text) (hrest : rest ≠ "") :
    IsUnreadable front := by
  obtain ⟨members, hplain, rfl, -⟩ := exists_members_of_encode h
  exact isUnreadable_of_ofText? (Json.ofText?_of_cut hplain hcut hrest)

/-- White space may stand behind what is stored for a record. -/
theorem decode_append_of_blank {record : Record} {text extra : String}
    (h : record.encode = .ok text) (hblank : ∀ c ∈ extra.toList, c ∈ Json.blanks) :
    decode record.id (text ++ extra) = .ok record := by
  obtain ⟨members, hplain, rfl, hread⟩ := exists_members_of_encode h
  rw [decode, (Json.ofText?_append_iff hplain).2 ⟨rfl, hblank⟩, Option.bind_eq_bind,
    Option.bind_some, hread]
  exact if_pos rfl

/-- **What is stored for a record and then goes on** is taken for no record. -/
theorem isUnreadable_append {record : Record} {text extra : String}
    (h : record.encode = .ok text) (hextra : ¬ ∀ c ∈ extra.toList, c ∈ Json.blanks) :
    IsUnreadable (text ++ extra) := by
  obtain ⟨members, hplain, rfl, -⟩ := exists_members_of_encode h
  apply isUnreadable_of_ofText?
  apply Option.eq_none_iff_forall_ne_some.2
  intro value hvalue
  exact hextra ((Json.ofText?_append_iff hplain).1 hvalue).2

end Record

namespace FileStore

variable {disk : Disk} {path : Path} {data : Ledger String} {bytes : Bytes}

/-- **A file is taken for no snapshot**: the store does not open. -/
def IsCorrupt (disk : Disk) (path : Path) : Prop :=
  load disk path = .error (.serialization syntaxDetail)

theorem isCorrupt_of_ofBytes? (hread : disk.read path = .ok bytes)
    (h : Json.ofBytes? bytes = none) : IsCorrupt disk path := by
  rw [IsCorrupt, load_of_bytes hread, entriesOfBytes, Snapshot.ofBytes?, h]
  rfl

/-- What is written for a store is the file of an object. -/
theorem exists_members_of_toBytes (data : Ledger String) :
    ∃ members : List (Option String × Json), (Json.object members).Plain ∧
      (Snapshot.ofEntries data).toBytes = Utf8.encode (Json.object members).compact ∧
      Snapshot.ofJson? (.object members) = some (.ofEntries data) :=
  ⟨_, Snapshot.plain_toJson data, rfl, Snapshot.ofJson?_toJson data⟩

/-- **A snapshot that is cut off**, between any two bytes, is taken for none. -/
theorem isCorrupt_of_cut {rest : Bytes} (hread : disk.read path = .ok bytes)
    (hcut : bytes ++ rest = (Snapshot.ofEntries data).toBytes) (hrest : rest ≠ []) :
    IsCorrupt disk path := by
  obtain ⟨members, hplain, htoBytes, -⟩ := exists_members_of_toBytes data
  exact isCorrupt_of_ofBytes? hread (Json.ofBytes?_of_cut hplain (hcut.trans htoBytes) hrest)

/-- White space may stand behind a snapshot. -/
theorem load_append_of_blank {extra : Bytes}
    (hread : disk.read path = .ok ((Snapshot.ofEntries data).toBytes ++ extra))
    (hblank : ∀ b ∈ extra, ∃ c ∈ Json.blanks, b.toNat = c.toNat) :
    load disk path = .ok ⟨path, data⟩ := by
  obtain ⟨members, hplain, htoBytes, hsnapshot⟩ := exists_members_of_toBytes data
  rw [htoBytes] at hread
  rw [load_of_bytes hread, entriesOfBytes, Snapshot.ofBytes?,
    (Json.ofBytes?_append_iff hplain).2 ⟨rfl, hblank⟩, Option.bind_eq_bind, Option.bind_some,
    hsnapshot]
  rfl

/-- **A snapshot that goes on** is taken for none. -/
theorem isCorrupt_append {extra : Bytes}
    (hread : disk.read path = .ok ((Snapshot.ofEntries data).toBytes ++ extra))
    (hextra : ¬ ∀ b ∈ extra, ∃ c ∈ Json.blanks, b.toNat = c.toNat) : IsCorrupt disk path := by
  obtain ⟨members, hplain, htoBytes, -⟩ := exists_members_of_toBytes data
  rw [htoBytes] at hread
  apply isCorrupt_of_ofBytes? hread
  apply Option.eq_none_iff_forall_ne_some.2
  intro value hvalue
  exact hextra ((Json.ofBytes?_append_iff hplain).1 hvalue).2

end FileStore

/-- **Damaged data is never taken for valid data.** Let a text be what is stored for a record. A
proper front part of it is taken for no record under any key. The text with something behind it is
read as the record if that is white space, and is otherwise taken for no record under any key.

Let a file hold bytes that have to do with what is written for a store. If they are a proper front
part of it, wherever the cut is, the store does not open. If they are all of it with something
behind it, the store opens with the very entries if that is white space, and does not open
otherwise. -/
theorem damaged_data_is_refused :
    (∀ (record : Record) (text : String), record.encode = .ok text →
      (∀ front rest, front ++ rest = text → rest ≠ "" → Record.IsUnreadable front) ∧
      ∀ extra : String,
        ((∀ c ∈ extra.toList, c ∈ Json.blanks) →
          Record.decode record.id (text ++ extra) = .ok record) ∧
        ((¬ ∀ c ∈ extra.toList, c ∈ Json.blanks) → Record.IsUnreadable (text ++ extra))) ∧
    ∀ (data : Ledger String) (disk : Disk) (path : Path) (bytes : Bytes),
      disk.read path = .ok bytes →
      (∀ rest, bytes ++ rest = (Snapshot.ofEntries data).toBytes → rest ≠ [] →
        FileStore.IsCorrupt disk path) ∧
      ∀ extra : Bytes, bytes = (Snapshot.ofEntries data).toBytes ++ extra →
        ((∀ b ∈ extra, ∃ c ∈ Json.blanks, b.toNat = c.toNat) →
          FileStore.load disk path = .ok ⟨path, data⟩) ∧
        ((¬ ∀ b ∈ extra, ∃ c ∈ Json.blanks, b.toNat = c.toNat) →
          FileStore.IsCorrupt disk path) := by
  constructor
  · intro record text h
    refine ⟨fun front rest hcut hrest => Record.isUnreadable_of_cut h hcut hrest, fun extra => ?_⟩
    exact ⟨Record.decode_append_of_blank h, Record.isUnreadable_append h⟩
  · intro data disk path bytes hread
    refine ⟨fun rest hcut hrest => FileStore.isCorrupt_of_cut hread hcut hrest, ?_⟩
    rintro extra rfl
    exact ⟨FileStore.load_append_of_blank hread, FileStore.isCorrupt_append hread⟩

namespace Torn

/-- A record whose id has to be escaped. -/
def record : Record := ⟨"\"", .absent, ⟨0, 0⟩⟩

/-- What is stored for it, up to the backslash of the escape. -/
def front : String := "\x7b\"id\":\"\\"

def rest : String :=
  "\"\",\"entry\":\x7b\"state\":\"absent\"\x7d,\"timestamp\":\"1970-01-01T00:00:00Z\"\x7d"

theorem encode_record : record.encode = .ok (front ++ rest) := by
  have htext : record.toJson?.map Json.compactText = some (front ++ rest) := by decide
  exact Record.encode_eq_ok_iff.2 (Option.map_eq_some_iff.1 htext)

/-- A store with a key of one character that has two bytes. -/
def data : Ledger String := (∅ : Ledger String).insert "é" ""

/-- What a file holds for it, up to the first byte of the character. -/
def bytes : Bytes := (Snapshot.ofEntries data).toBytes.take 26

def disk (content : Bytes) : Disk := ⟨(∅ : Ledger Node).insert "/s" (.file content), [], [], []⟩

/-- A quote is no white space, and the text has one. -/
theorem not_blank : ¬ ∀ c ∈ (front ++ rest).toList, c ∈ Json.blanks := by
  rw [String.toList_append]
  intro hblank
  have hquote : '"' ∈ front.toList := by decide
  exact absurd (hblank '"' (List.mem_append_left _ hquote)) (by decide)

/-- A zero is no white space, either. -/
theorem zero_not_blank : ¬ ∀ b ∈ ([0] : Bytes), ∃ c ∈ Json.blanks, b.toNat = c.toNat := by
  intro hblank
  obtain ⟨c, hmem, hzero⟩ := hblank 0 (List.mem_singleton_self 0)
  simp only [Json.blanks, List.mem_cons, List.not_mem_nil, or_false] at hmem
  obtain rfl | rfl | rfl | rfl := hmem <;> exact absurd hzero (by decide)

theorem read_disk (content : Bytes) : (disk content).read "s" = .ok content := by
  have hlocate : (disk content).locate? "s" = .ok ["s"] := rfl
  apply Disk.read_of_get? hlocate (by simp) (by decide)
  exact Ledger.get?_insert_self _ _ _

end Torn

/-- A record that is cut off in an escape, one with a second text behind it, a file that is cut off
in a character, and one with a zero behind it. -/
theorem damaged_data_is_refused_inside_escape_and_character :
    (Torn.record.encode = .ok (Torn.front ++ Torn.rest) ∧ Record.IsUnreadable Torn.front ∧
      Record.IsUnreadable (Torn.front ++ Torn.rest ++ (Torn.front ++ Torn.rest))) ∧
    (Utf8.symbols Torn.bytes).getLast? = some none ∧
    FileStore.IsCorrupt (Torn.disk Torn.bytes) "s" ∧
    FileStore.IsCorrupt (Torn.disk ((Snapshot.ofEntries Torn.data).toBytes ++ [0])) "s" := by
  obtain ⟨hcut, hmore⟩ := damaged_data_is_refused.1 _ _ Torn.encode_record
  have htorn := (damaged_data_is_refused.2 Torn.data _ _ _ (Torn.read_disk Torn.bytes)).1
    ((Snapshot.ofEntries Torn.data).toBytes.drop 26) (List.take_append_drop _ _) (by decide +kernel)
  have hpadded := (damaged_data_is_refused.2 Torn.data _ _ _ (Torn.read_disk _)).2 [0] rfl
  refine ⟨⟨Torn.encode_record, hcut _ _ rfl (by decide), (hmore _).2 Torn.not_blank⟩,
    by decide +kernel, htorn, hpadded.2 Torn.zero_not_blank⟩

end DeviceScope
