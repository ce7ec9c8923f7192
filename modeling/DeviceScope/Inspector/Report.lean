import DeviceScope.Cache.Basic
import DeviceScope.Config.Form
import DeviceScope.Inspector.Request
import DeviceScope.Json.Order
import DeviceScope.Text.Grid

/-!
# Reports

What the inspector has found out or done is a report, and why it could not is a failure. Reports
are written in one of two formats: as JSON, in which the members of an object stand in ascending
order, or for a reader at a terminal. A decision and a change are told in one sentence whatever
the format.
-/

namespace DeviceScope.Inspector

/-- What the inspector has found out or done. -/
inductive Report where
  | records (records : List Record)
  | record (record : Record)
  /-- The id may connect, with credentials of this kind. -/
  | inScope (id : String) (kind : CredentialKind)
  | stats (stats : Cache.Stats)
  /-- So many identities were written down. -/
  | applied (count : Nat)
  /-- It was written down that the id is out of scope. -/
  | removed (id : String)
  /-- The settings that hold, and the path of the file that they are from. -/
  | config (source : Option String) (config : Config)

/-- Why the inspector did not do what it was asked to. -/
inductive Failure where
  /-- The configuration in the file at `path` does not hold. -/
  | badConfig (path : String) (error : ConfigError)
  /-- There is no folder for the store. -/
  | noDataFolder
  /-- The folder for the store could not be made. -/
  | noFolderMade
  /-- The store at `path` could not be opened. -/
  | notOpened (path : String) (error : StoreError)
  | scope (error : ScopeError)
  | noRecord (id : String)
  /-- The file of identities at `path` could not be read. -/
  | notRead (path : String)
  /-- The file of identities holds something else. -/
  | noIdentities
  /-- The identity under `id` could not be written down. -/
  | notStored (id : String) (error : ScopeError)
  deriving DecidableEq, Repr

/-- The text of the failure, with what caused it behind a colon. -/
def Failure.text : Failure → String
  | .badConfig path error => "Invalid cache configuration in " ++ path ++ ": " ++ error.text
  | .noDataFolder => "Cannot determine data directory"
  | .noFolderMade => ioDetail
  | .notOpened path error => "Failed to open identity store " ++ path ++ ": " ++ error.text
  | .scope error => error.text
  | .noRecord id => "No record for " ++ id
  | .notRead path => "Failed to read file: " ++ path ++ ": " ++ ioDetail
  | .noIdentities => "Expected a JSON array of identities: " ++ syntaxDetail
  | .notStored id error => "Failed to store " ++ id ++ ": " ++ error.text

namespace Report

/-- A value as JSON, ending in a line break. -/
def jsonText (value : Json) : String := value.ordered.indentedText ++ "\n"

def recordJson (record : Record) : Json := record.toJson?.getD .null

/-- The headings of the grid of records. -/
def headings : List String := ["ID", "State", "Status", "Auth", "Updated"]

def row (record : Record) : List String :=
  let updated := record.stamp.toText?.getD "-"
  match record.entry with
  | .present identity =>
    [record.id, "present", identity.status.name, identity.credential.kind.name, updated]
  | .absent => [record.id, "absent", "-", "-", updated]

def count (name : String) (number : Nat) : String := name ++ ": " ++ Decimal.text number ++ "\n"

def recordsTable (list : List Record) : String :=
  if list.isEmpty then "No records found.\n"
  else Grid.draw headings (list.map row) ++ "\n" ++ count "Total" list.length

def statsJson (stats : Cache.Stats) : Json := .fields [
  ("records", .nat stats.records), ("present", .nat stats.present),
  ("enabled", .nat stats.enabled), ("absent", .nat stats.absent),
  ("bootstrapSkipped", .nat stats.skipped)]

/-- Numbers for a reader. Entries that are no records are only spoken of if there are any. -/
def statsTable (stats : Cache.Stats) : String :=
  count "Records" stats.records ++ count "Present" stats.present ++
    count "Enabled" stats.enabled ++ count "Absent" stats.absent ++
    (if stats.skipped = 0 then "" else count "Unreadable" stats.skipped)

/-- A sentence that says that all is well. -/
def sentence (text : String) : String := "✓ " ++ text ++ "\n"

def text (format : Format) : Report → String
  | .records list =>
    match format with
    | .json => jsonText (.array (list.map recordJson))
    | .table => recordsTable list
  | .record only =>
    match format with
    | .json => jsonText (recordJson only)
    | .table => recordsTable [only]
  | .inScope id kind => sentence (id ++ " is in scope (" ++ kind.name ++ ")")
  | .stats numbers =>
    match format with
    | .json => jsonText (statsJson numbers)
    | .table => statsTable numbers
  | .applied number => sentence ("Applied " ++ Decimal.text number ++ " identities")
  | .removed id => sentence ("Marked " ++ id ++ " out of scope")
  | .config source settings =>
    match format with
    | .json => jsonText settings.toJson
    | .table =>
      "Source: " ++ source.getD "(defaults)" ++ "\n" ++ settings.toToml ++
        sentence "Configuration is valid"

end Report

end DeviceScope.Inspector
