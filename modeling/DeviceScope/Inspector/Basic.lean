import DeviceScope.Config.File
import DeviceScope.Identity.Form
import DeviceScope.Inspector.Arguments
import DeviceScope.Inspector.Report
import DeviceScope.Store.File

/-!
# The inspector

The inspector opens the store in a file, sets up a cache over it, does one thing with it, and is
done (`Inspector.perform`). No directory is asked, so decisions are those of the records. Looking
leaves the disk as it is but for the folder of a store whose path was not given; writing goes
through the cache, as it does in a gateway, and keeps every other entry of the store, also one
that is no record.

`Inspector.run` is the whole program: it takes arguments and gives what is written and the code
that it ends with.
-/

namespace DeviceScope.Inspector

/-! ### Opening -/

/-- The settings that hold. -/
def loadConfig (disk : Disk) : Option String → Except Failure Config
  | none => .ok .standard
  | some path =>
    match Config.load disk path with
    | .ok config => .ok config
    | .error error => .error (.badConfig path error)

/-- The folder in which a user's programs keep their data. -/
def dataFolder? (environment : Environment) : Option String :=
  ((environment.lookup "XDG_DATA_HOME").filter fun path => (Path.ofText path).absolute).or
    (((environment.lookup "HOME").filter (· ≠ "")).map fun home => Path.join home ".local/share")

/-- The path of the store. If none is given it is in a folder of its own, which is made. -/
def locateStore (environment : Environment) (disk : Disk) :
    Option String → Except Failure String × Disk
  | some path => (.ok path, disk)
  | none =>
    match dataFolder? environment with
    | none => (.error .noDataFolder, disk)
    | some folder =>
      let folder := Path.join folder "edge-scope"
      match disk.perform (.makeFolders folder) with
      | (.ok (), disk) => (.ok (Path.join folder "scope.json"), disk)
      | (.error _, disk) => (.error .noFolderMade, disk)

/-- The paths at which a request reads or writes. -/
def Request.paths (environment : Environment) (request : Request) : List Path :=
  let store := (request.store.or
    ((dataFolder? environment).map fun folder => Path.join folder "edge-scope/scope.json")).map
      Path.ofText
  request.config.toList.map Path.ofText ++ store.toList ++ store.toList.map Path.temporary ++
    (match request.job with
      | .useStore (.apply file) => [Path.ofText file]
      | _ => [])

def openStore (disk : Disk) (config : Config) (path : String) :
    Except Failure (Cache DiskStore) :=
  match FileStore.load disk path with
  | .error error => .error (.notOpened path error)
  | .ok store =>
    match Cache.create (σ := DiskStore) ⟨store, disk⟩ config with
    | .error error => .error (.scope error)
    | .ok cache => .ok cache

def openCache (environment : Environment) (disk : Disk) (request : Request) :
    Except Failure (Cache DiskStore) × Disk :=
  match loadConfig disk request.config with
  | .error failure => (.error failure, disk)
  | .ok config =>
    match locateStore environment disk request.store with
    | (.error failure, disk) => (.error failure, disk)
    | (.ok path, disk) => (openStore disk config path, disk)

/-! ### Commands -/

/-- Whether a record is among those that are listed. -/
def Selection.admits (selection : Selection) (record : Record) : Bool :=
  match selection with
  | .all => true
  | .present => record.entry.isPresent
  | .absent => !record.entry.isPresent

def identitiesIn (disk : Disk) (path : String) : Except Failure (List Identity) :=
  match disk.read path with
  | .error _ => .error (.notRead path)
  | .ok bytes =>
    match Utf8.decode? bytes with
    | none => .error (.notRead path)
    | some text =>
      match Identity.listOfText? (String.ofList text) with
      | none => .error .noIdentities
      | some identities => .ok identities

/-- Writes down that identities are in scope, one after another, up to the first that fails. -/
def applyAll (cache : Cache DiskStore) (now : Timestamp) :
    List Identity → Except Failure Unit × Cache DiskStore
  | [] => (.ok (), cache)
  | identity :: rest =>
    match cache.applyUpdate identity now with
    | (.error error, cache) => (.error (.notStored identity.id error), cache)
    | (.ok (), cache) => applyAll cache now rest

/-- Does what a command says. -/
def obey (cache : Cache DiskStore) (now : Timestamp) :
    Command → Except Failure Report × Cache DiskStore
  | .list selection => (.ok (.records (cache.records.values.filter selection.admits)), cache)
  | .detail id =>
    match cache.record? id with
    | none => (.error (.noRecord id), cache)
    | some record => (.ok (.record record), cache)
  | .verify id =>
    match cache.decide id with
    | .error error => (.error (.scope error), cache)
    | .ok identity => (.ok (.inScope id identity.credential.kind), cache)
  | .stats => (.ok (.stats cache.stats), cache)
  | .apply file =>
    match identitiesIn cache.store.disk file with
    | .error failure => (.error failure, cache)
    | .ok identities =>
      let (result, cache) := applyAll cache now identities
      (result.map fun _ => .applied identities.length, cache)
  | .remove id =>
    match cache.applyRemoval id now with
    | (.error error, cache) => (.error (.scope error), cache)
    | (.ok (), cache) => (.ok (.removed id), cache)

/-- Does what a request asks for. -/
def perform (environment : Environment) (now : Timestamp) (disk : Disk) (request : Request) :
    Except Failure Report × Disk :=
  match request.job with
  | .checkConfig => ((loadConfig disk request.config).map (.config request.config), disk)
  | .useStore command =>
    match openCache environment disk request with
    | (.error failure, disk) => (.error failure, disk)
    | (.ok cache, _) =>
      let (result, cache) := obey cache now command
      (result, cache.store.disk)

/-! ### The program -/

/-- What the program leaves behind. -/
structure Answer where
  /-- The code that it ends with: zero if all is well, one after a failure, two if the arguments
  were not understood. -/
  code : UInt32
  /-- What is written to the standard output. -/
  output : String
  /-- What is written to the standard error. -/
  error : String
  deriving DecidableEq, Repr

/-- How the program is used. -/
def usage : String :=
  "Usage: edge-scope [--store PATH] [--config PATH] [--format table|json] " ++
    "[--log-level LEVEL] COMMAND\n"

def commandsText (level : Level) : String :=
  String.join (level.children.map fun child => "  " ++ child.1 ++ "\n")

/-- Answers arguments that are no request. -/
def Halt.answer : Halt → Answer
  | .misuse => ⟨2, "", usage⟩
  | .help level => ⟨0, usage ++ commandsText level, ""⟩
  | .version => ⟨0, "edge-scope 0.0.1\n", ""⟩

/-- The whole program. -/
def run (environment : Environment) (now : Timestamp) (disk : Disk) (arguments : List String) :
    Answer × Disk :=
  match Request.ofArguments environment arguments with
  | .error halt => (halt.answer, disk)
  | .ok request =>
    match perform environment now disk request with
    | (.ok report, disk) => (⟨0, report.text request.format, ""⟩, disk)
    | (.error failure, disk) => (⟨1, "", "✗ " ++ failure.text ++ "\n"⟩, disk)

end DeviceScope.Inspector
