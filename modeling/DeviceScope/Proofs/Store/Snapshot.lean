import DeviceScope.Proofs.Json.Fields
import DeviceScope.Proofs.Json.Reading
import DeviceScope.Proofs.Ledger
import DeviceScope.Store.Snapshot

/-!
# Snapshots survive in files

The content that is written for a store is read back as the same entries
(`Snapshot.ofBytes?_toBytes`), whatever their keys and values are.
-/

namespace DeviceScope.Snapshot

/-- The members that are written for entries. -/
def members (entries : List (String × String)) : List (String × Json) :=
  entries.map fun entry => (entry.1, .text entry.2)

theorem plain_toJson (data : Ledger String) : (ofEntries data).toJson.Plain := by
  refine .fields ?_
  intro member hmem
  simp only [List.mem_cons, List.not_mem_nil, or_false] at hmem
  rcases hmem with rfl | rfl
  · exact .number (show Number.IsLiteral (Nat.toDigits 10 currentVersion) = true by decide)
  · refine .fields ?_
    intro entry hentry
    obtain ⟨e, -, rfl⟩ := List.mem_map.1 hentry
    exact .text e.2

theorem entriesOfJson?_fields (entries : List (String × String)) :
    entriesOfJson? (.fields (members entries)) = some (.ofList entries) := by
  have hread : ((members entries).map fun member => (some member.1, member.2)).mapM
      entryOfMember? = some entries := by
    induction entries with
    | nil => rfl
    | cons entry entries ih =>
      rw [members, List.map_cons, List.map_cons, List.mapM_cons, ← members, ih]
      rfl
  rw [Json.fields, entriesOfJson?, hread, Option.map_some]

theorem ofJson?_toJson (data : Ledger String) :
    ofJson? (ofEntries data).toJson = some (ofEntries data) := by
  rw [ofJson?, toJson, Json.fieldValues?_fields _ (by simp)]
  have hversion : versionOfJson? (.nat currentVersion) = some currentVersion := by decide
  have hentries : entriesOfJson? (.fields (data.entries.map fun entry =>
      (entry.1, .text entry.2))) = some data := by
    show entriesOfJson? (.fields (members data.entries)) = _
    rw [entriesOfJson?_fields, Ledger.ofList_entries]
  simp only [ofEntries, List.map_cons, List.map_nil, List.lookup_cons, beq_self_eq_true,
    show ("entries" == "version") = false by decide, Option.bind_eq_bind, Option.bind_some,
    Json.required, hversion, hentries]

/-- **What is written for a store is read back.** -/
theorem ofBytes?_toBytes (data : Ledger String) :
    ofBytes? (ofEntries data).toBytes = some (ofEntries data) := by
  rw [ofBytes?, toBytes, Json.ofBytes?_encode_compact (plain_toJson data), Option.bind_eq_bind,
    Option.bind_some]
  exact ofJson?_toJson data

end DeviceScope.Snapshot
