import DeviceScope.Inspector.Report
import DeviceScope.Proofs.Json.Indenting
import DeviceScope.Proofs.Record.Form
import DeviceScope.Proofs.Text.Grid

/-!
# What is printed of records

Whoever reads what the inspector prints wants to know which records there are. As JSON that is an
array with one item for each record, which is the record: put into a store, it would be read as that
record. As a table it is a row for each record, with the number of records under it.

`Inspector.Prints` says this of an output without reference to how it is made, and reports of
records are such outputs in both formats (`Inspector.prints_text`).
-/

namespace DeviceScope

/-- What is written for a record, in whichever order its members stand, is read as the record. -/
theorem Record.decode_of_spells {f : Json → Json} (hf : Json.Rearranges f) {record : Record}
    {value : Json} (h : record.toJson? = some value) {document : String}
    (hdocument : (f value).Spells document.toList) : decode record.id document = .ok record := by
  have hread := ofJson?_of_laid h (laid_of_toJson? hf h .never)
  rw [decode, Json.ofText?_of_spells hdocument, Option.bind_eq_bind, Option.bind_some, hread]
  exact if_pos rfl

namespace Inspector

/-- **A row about a record**: its id, whether there is an identity, how it may connect if there is
one, and a text for the instant since when this is known. -/
inductive IsRowOf (record : Record) : List String → Prop where
  | present {identity : Identity} {updated : String} (hentry : record.entry = .present identity)
    (hstamp : Timestamp.ofText? updated = some record.stamp) :
    IsRowOf record
      [record.id, "present", identity.status.name, identity.credential.kind.name, updated]
  | absent {updated : String} (hentry : record.entry = .absent)
    (hstamp : Timestamp.ofText? updated = some record.stamp) :
    IsRowOf record [record.id, "absent", "-", "-", updated]

/-- **An output that shows records**, these and in this order. -/
inductive Prints : Format → List Record → String → Prop where
  /-- An array with one item for each record, of which every text is read as the record. -/
  | json {records : List Record} {items : List Json} {output : String}
    (hspells : (Json.array items).Spells output.toList)
    (hitems : List.Forall₂ (fun record item => ∀ document : String, item.Spells document.toList →
      Record.decode record.id document = .ok record) records items) :
    Prints .json records output
  | nothing : Prints .table [] "No records found.\n"
  /-- A table with one row for each record, and the number of records. -/
  | table {records : List Record} {rows : List (List String)} {grid : String}
    (hne : records ≠ []) (hrows : List.Forall₂ IsRowOf records rows)
    (hgrid : Grid.IsTable ["ID", "State", "Status", "Auth", "Updated"] rows grid) :
    Prints .table records (grid ++ "\n" ++ ("Total: " ++ toString records.length ++ "\n"))

theorem isRowOf_row {record : Record} {value : Json} (h : record.toJson? = some value) :
    IsRowOf record (Report.row record) := by
  obtain ⟨stamp, hstamp, -⟩ := Record.toJson?_eq_some_iff.1 h
  have hread := Timestamp.ofText?_of_toText? hstamp
  rw [Report.row, hstamp, Option.getD_some]
  cases hentry : record.entry with
  | present identity => exact .present hentry hread
  | absent => exact .absent hentry hread

theorem length_row (record : Record) : (Report.row record).length = Report.headings.length := by
  rw [Report.row]
  cases record.entry <;> rfl

/-- **What is reported of records shows them**, if each of them can be written. -/
theorem prints_text {records : List Record}
    (h : ∀ record ∈ records, ∃ value, record.toJson? = some value) (format : Format) :
    Prints format records ((Report.records records).text format) := by
  cases format with
  | json =>
    have hplain : (Json.array (records.map Report.recordJson)).Plain := by
      refine .array fun item hitem => ?_
      obtain ⟨record, hrecord, rfl⟩ := List.mem_map.1 hitem
      obtain ⟨value, hvalue⟩ := h record hrecord
      rw [Report.recordJson, hvalue]
      exact (Record.ofJson?_toJson? hvalue).1
    -- Members are sorted before they are printed, each item by itself.
    have hordered : (Json.array (records.map Report.recordJson)).ordered =
        .array ((records.map Report.recordJson).map Json.ordered) := by
      rw [Json.ordered, Json.orderedItems_eq]
    have hspells : (Json.array ((records.map Report.recordJson).map Json.ordered)).Spells
        ((Report.records records).text .json).toList := by
      rw [← hordered, Report.text, Report.jsonText, String.toList_append]
      exact (Json.spells_indentedText hplain.ordered).append
        (List.forall_mem_singleton.2 (by decide))
    refine .json hspells ?_
    rw [List.map_map, List.forall₂_map_right_iff, List.forall₂_same]
    intro record hrecord document hdocument
    obtain ⟨value, hvalue⟩ := h record hrecord
    rw [Function.comp, Report.recordJson, hvalue] at hdocument
    exact Record.decode_of_spells Json.rearranges_ordered hvalue hdocument
  | table =>
    cases records with
    | nil => exact .nothing
    | cons first rest =>
      have hrows : List.Forall₂ IsRowOf (first :: rest) ((first :: rest).map Report.row) := by
        rw [List.forall₂_map_right_iff, List.forall₂_same]
        intro record hrecord
        obtain ⟨value, hvalue⟩ := h record hrecord
        exact isRowOf_row hvalue
      have hlengths : ∀ row ∈ (first :: rest).map Report.row,
          row.length = Report.headings.length := by
        intro row hrow
        obtain ⟨record, -, rfl⟩ := List.mem_map.1 hrow
        exact length_row record
      have htotal : (Report.records (first :: rest)).text .table =
          Grid.draw Report.headings ((first :: rest).map Report.row) ++ "\n" ++
            ("Total: " ++ toString (first :: rest).length ++ "\n") := rfl
      rw [htotal]
      exact .table (List.cons_ne_nil _ _) hrows (Grid.isTable_draw Report.headings hlengths)

end Inspector

end DeviceScope
