import DeviceScope.Json.Printer
import DeviceScope.Json.Reader
import DeviceScope.Json.Shape
import DeviceScope.Ledger

/-!
# Snapshots

A snapshot is the content of a file in which a store keeps all its entries: a JSON object with the
version of the format and the entries in ascending order of their keys. When a key is repeated
among the entries of a file, the last value counts.
-/

namespace DeviceScope

/-- The content of a store together with the version of its format. -/
structure Snapshot where
  version : Nat
  entries : Ledger String
  deriving DecidableEq

namespace Snapshot

/-- The version that is written, and the only one that can be used. -/
def currentVersion : Nat := 1

def ofEntries (entries : Ledger String) : Snapshot := ⟨currentVersion, entries⟩

def toJson (snapshot : Snapshot) : Json :=
  .fields [("version", .nat snapshot.version),
    ("entries", .fields (snapshot.entries.entries.map fun entry => (entry.1, .text entry.2)))]

/-- The content of the file that holds the snapshot. -/
def toBytes (snapshot : Snapshot) : Bytes := Utf8.encode snapshot.toJson.compact

/-- A version, which is a number of at most 32 bits. -/
def versionOfJson? : Json → Option Nat
  | .number literal => (Number.natural? literal).filter (· < UInt32.size)
  | _ => none

def entryOfMember? (member : Option String × Json) : Option (String × String) := do
  let key ← member.1
  let value ← member.2.text?
  some (key, value)

/-- The entries that a value spells. -/
def entriesOfJson? : Json → Option (Ledger String)
  | .object members => (members.mapM entryOfMember?).map Ledger.ofList
  | _ => none

def ofJson? (value : Json) : Option Snapshot := do
  match ← value.fieldValues? ["version", "entries"] with
  | [version, entries] =>
    let version ← Json.required versionOfJson? version
    let entries ← Json.required entriesOfJson? entries
    some ⟨version, entries⟩
  | _ => none

/-- The snapshot that a file holds. -/
def ofBytes? (bytes : Bytes) : Option Snapshot := Json.ofBytes? bytes >>= ofJson?

end Snapshot

end DeviceScope
