import DeviceScope.Inspector.Basic
import Std.Time.DateTime.Timestamp

/-!
# The inspector as a program

The arguments, the environment, the time and what the request will read of the disk are taken in,
and the inspector is run on them. What it has done to its disk is then done to the real one, step
by step, before the answer is given.
-/

namespace DeviceScope.Inspector

/-- What really stands at a place. What cannot be read as a file counts as a folder: no file can
be read or put there. -/
def look (place : String) : IO (Option Node) := do
  try
    let content ← IO.FS.readBinFile place
    return some (.file content.toList)
  catch
    | .noFileOrDirectory .. => return none
    | _ => return some .folder

/-- A disk with what really stands on the way to the given paths. -/
def takeIn (paths : List Path) : IO Disk := do
  let here := (Path.ofText (← IO.currentDir).toString).parts
  let mut nodes : Ledger Node := ∅
  for path in Path.ofText "." :: paths do
    let start := if path.absolute then [] else here
    for names in Disk.waypoints [] start ++ Disk.waypoints start path.parts do
      if let some node ← look (Disk.place names) then
        nodes := nodes.insert (Disk.place names) node
  return ⟨nodes, here, [], []⟩

/-- Does an operation on the real disk. -/
def carryOut (disk : Disk) : Disk.Operation → IO Unit
  | .makeFolders path => IO.FS.createDirAll (spot path)
  | .create path => IO.FS.writeBinFile (spot path) ByteArray.empty
  | .write path content => IO.FS.writeBinFile (spot path) ⟨content.toArray⟩
  | .sync path => do (← IO.FS.Handle.mk (spot path) .append).flush
  | .rename source target => IO.FS.rename (spot source) (spot target)
  | .remove path => IO.FS.removeFile (spot path)
where
  /-- The absolute text of a path. -/
  spot (path : Path) : String := Disk.place (disk.start path ++ path.parts)

/-- The variables of the environment that the inspector looks at. -/
def readEnvironment : IO Environment := do
  let names := ["EDGE_SCOPE_STORE", "EDGE_SCOPE_CONFIG", "XDG_DATA_HOME", "HOME"]
  names.filterMapM fun name => do return (← IO.getEnv name).map fun value => (name, value)

end DeviceScope.Inspector

open DeviceScope Inspector in
/-- Runs the inspector. -/
def main (arguments : List String) : IO UInt32 := do
  let environment ← readEnvironment
  let now : DeviceScope.Timestamp :=
    .utc (← Std.Time.Timestamp.now).toNanosecondsSinceUnixEpoch.toInt
  let paths := match Request.ofArguments environment arguments with
    | .ok request => request.paths environment
    | .error _ => []
  let (answer, disk) := run environment now (← takeIn paths) arguments
  try
    disk.journal.reverse.forM (carryOut disk)
  catch error =>
    (← IO.getStderr).putStrLn ("✗ " ++ toString error)
    return 1
  (← IO.getStdout).putStr answer.output
  (← IO.getStderr).putStr answer.error
  return answer.code
