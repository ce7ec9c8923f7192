import DeviceScope.Disk.Path
import DeviceScope.Ledger
import DeviceScope.Text.Utf8

/-!
# Disks

A disk holds files, which are bytes, in folders. It changes by operations (`Disk.Operation`), each
of which happens as a whole or not at all, with two exceptions: a write that fails may have left
something else in the file, and folders that could not all be made may have been made in part. In
particular a file takes the place of another one in one operation.

`hazards` holds the troubles to come: each operation takes one off the front, and fails if it is
one. A write may fail without saying so (`Disk.Hazard.silent`). Whoever writes a file only hands its
bytes over; they are written behind his back, and what becomes of them is told to the next one who
writes to this file or asks for it, which waiting for the file to be safe (`Disk.Operation.sync`)
does not. So the write is reported as done, and whatever was written is in the file.

`journal` holds the operations that were done, the last one first, so that what happened on this
disk can be repeated on another.

Every file has one place. There are no links, by which two places would share what they hold.
-/

namespace DeviceScope

/-- What stands at a place of a disk. -/
inductive Node where
  | folder
  | file (content : Bytes)
  deriving DecidableEq, Repr, Inhabited

/-- Why an operation failed. -/
inductive FileFault where
  /-- There is nothing at the path. -/
  | missing
  /-- A file stands where a folder has to be. -/
  | notFolder
  /-- A folder stands where a file has to be. -/
  | isFolder
  /-- The disk did not do what it was asked to. -/
  | refused
  deriving DecidableEq, Repr, Inhabited

/-- A step that changes a disk. -/
inductive Disk.Operation where
  /-- Makes a folder, and the folders around it that are missing. -/
  | makeFolders (path : Path)
  /-- Makes an empty file, or empties the file that is there. -/
  | create (path : Path)
  /-- Writes the content of a file. -/
  | write (path : Path) (content : Bytes)
  /-- Waits until a file will outlast a loss of power. -/
  | sync (path : Path)
  /-- Moves a file to another path, in the place of the file that is there. -/
  | rename (source target : Path)
  /-- Removes a file. -/
  | remove (path : Path)
  deriving DecidableEq, Repr

/-- A trouble that makes an operation fail. -/
structure Disk.Hazard where
  /-- What a write leaves in the file. -/
  written : Bytes
  /-- How many of the names on its way the making of folders comes past. -/
  passed : Nat := 0
  /-- Whether a write is reported as done nevertheless. -/
  silent : Bool := false
  deriving DecidableEq, Repr

/-- A disk with its working folder. -/
structure Disk where
  /-- What stands at each place; a place is written as a path from the root. The root itself is
  not among them. -/
  nodes : Ledger Node
  /-- The names on the way from the root to the working folder. -/
  here : List String
  /-- What befalls the operations to come. -/
  hazards : List (Option Disk.Hazard)
  /-- The operations that were done, the last one first. -/
  journal : List Disk.Operation
  deriving DecidableEq

namespace Disk

instance : Inhabited Disk := ⟨⟨∅, [], [], []⟩⟩

/-- The place to which names lead from the root. -/
def place (names : List String) : String := names.foldl (fun place name => place ++ "/" ++ name) ""

/-- What stands where names lead from the root. -/
def nodeAt? (nodes : Ledger Node) (names : List String) : Option Node :=
  if names.isEmpty then some .folder else nodes.get? (place names)

/-- Follows the names of a path through folders. -/
def follow? (nodes : Ledger Node) (at_ : List String) : List String → Except FileFault (List String)
  | [] => .ok at_
  | name :: rest =>
    if name = ".." then follow? nodes at_.dropLast rest
    else
      match nodeAt? nodes (at_ ++ [name]) with
      | none => .error .missing
      | some (.file _) => .error .notFolder
      | some .folder => follow? nodes (at_ ++ [name]) rest

def start (disk : Disk) (path : Path) : List String := if path.absolute then [] else disk.here

/-- The names that lead to what a path names, which need not exist; the folder that it would be
in has to. -/
def locate? (disk : Disk) (path : Path) : Except FileFault (List String) :=
  match path.fileName? with
  | some name => (follow? disk.nodes (disk.start path) path.parts.dropLast).map (· ++ [name])
  | none => follow? disk.nodes (disk.start path) path.parts

/-- The places on the way along the names of a path, from where it starts. -/
def waypoints (at_ : List String) : List String → List (List String)
  | [] => [at_]
  | name :: rest =>
    at_ :: waypoints (if name = ".." then at_.dropLast else at_ ++ [name]) rest

def node? (disk : Disk) (path : Path) : Except FileFault Node := do
  let names ← disk.locate? path
  match nodeAt? disk.nodes names with
  | none => .error .missing
  | some .folder => .ok .folder
  | some (.file content) => if path.closed then .error .notFolder else .ok (.file content)

def read (disk : Disk) (path : Path) : Except FileFault Bytes := do
  match ← disk.node? path with
  | .folder => .error .isFolder
  | .file content => .ok content

/-- The place at which a path may have a file, and what stands there. -/
def fileSpot? (disk : Disk) (path : Path) : Except FileFault (String × Option Bytes) := do
  let names ← disk.locate? path
  match nodeAt? disk.nodes names with
  | some .folder => .error .isFolder
  | some (.file content) =>
    if path.closed then .error .notFolder else .ok (place names, some content)
  | none => if path.closed then .error .notFolder else .ok (place names, none)

/-- Makes the folders that names lead through. -/
def makeFolders? (nodes : Ledger Node) (at_ : List String) :
    List String → Except FileFault (Ledger Node)
  | [] => .ok nodes
  | name :: rest =>
    if name = ".." then makeFolders? nodes at_.dropLast rest
    else
      match nodeAt? nodes (at_ ++ [name]) with
      | some (.file _) => .error .notFolder
      | some .folder => makeFolders? nodes (at_ ++ [name]) rest
      | none => makeFolders? (nodes.insert (place (at_ ++ [name])) .folder) (at_ ++ [name]) rest

/-- The folders that names lead through, made one after another up to the first name under which a
file stands. -/
def foldersMade (nodes : Ledger Node) (at_ : List String) : List String → Ledger Node
  | [] => nodes
  | name :: rest =>
    if name = ".." then foldersMade nodes at_.dropLast rest
    else
      match nodeAt? nodes (at_ ++ [name]) with
      | some (.file _) => nodes
      | some .folder => foldersMade nodes (at_ ++ [name]) rest
      | none => foldersMade (nodes.insert (place (at_ ++ [name])) .folder) (at_ ++ [name]) rest

/-- The names before the first one under which a file stands. -/
def passable (nodes : Ledger Node) (at_ : List String) : List String → List String
  | [] => []
  | name :: rest =>
    if name = ".." then name :: passable nodes at_.dropLast rest
    else
      match nodeAt? nodes (at_ ++ [name]) with
      | some (.file _) => []
      | some .folder => name :: passable nodes (at_ ++ [name]) rest
      | none =>
        name :: passable (nodes.insert (place (at_ ++ [name])) .folder) (at_ ++ [name]) rest

/-- A disk that holds nothing but its working folder. -/
def blank (here : List String) : Disk :=
  match makeFolders? ∅ [] here with
  | .ok nodes => ⟨nodes, here, [], []⟩
  | .error _ => ⟨∅, here, [], []⟩

/-- What stands on the disk after an operation that nothing disturbs. -/
def after? (disk : Disk) : Operation → Except FileFault (Ledger Node)
  | .makeFolders path => makeFolders? disk.nodes (disk.start path) path.parts
  | .create path => do
    let (spot, _) ← disk.fileSpot? path
    .ok (disk.nodes.insert spot (.file []))
  | .write path content => do
    match ← disk.fileSpot? path with
    | (spot, some _) => .ok (disk.nodes.insert spot (.file content))
    | (_, none) => .error .missing
  | .sync path => do
    match ← disk.fileSpot? path with
    | (_, some _) => .ok disk.nodes
    | (_, none) => .error .missing
  | .rename source target => do
    match ← disk.fileSpot? source with
    | (spot, some content) =>
      let (goal, _) ← disk.fileSpot? target
      .ok ((disk.nodes.erase spot).insert goal (.file content))
    | (_, none) => .error .missing
  | .remove path => do
    match ← disk.fileSpot? path with
    | (spot, some _) => .ok (disk.nodes.erase spot)
    | (_, none) => .error .missing

/-- What stands on the disk after an operation that a hazard made fail. -/
def spoiled (disk : Disk) (hazard : Hazard) : Operation → Ledger Node
  | .makeFolders path =>
    foldersMade disk.nodes (disk.start path) (path.parts.take hazard.passed)
  | .write path _ =>
    match disk.fileSpot? path with
    | .ok (spot, some _) => disk.nodes.insert spot (.file hazard.written)
    | _ => disk.nodes
  | _ => disk.nodes

/-- The disk after an operation that could not be done. Folders are made as far as possible, and
only so far are they to be made elsewhere. -/
def brokenOff (disk : Disk) : Operation → Disk
  | .makeFolders path =>
    let front := passable disk.nodes (disk.start path) path.parts
    { disk with
      nodes := foldersMade disk.nodes (disk.start path) path.parts
      journal :=
        if front.isEmpty then disk.journal
        else .makeFolders { path with parts := front } :: disk.journal }
  | _ => disk

/-- What is done in the place of an operation that fails without saying so. -/
def Hazard.instead? (hazard : Hazard) : Operation → Option Operation
  | .write path _ => if hazard.silent then some (.write path hazard.written) else none
  | _ => none

/-- Does an operation that no hazard befalls. -/
def carryOut (disk : Disk) (operation : Operation) : Except FileFault Unit × Disk :=
  match disk.after? operation with
  | .error fault => (.error fault, disk.brokenOff operation)
  | .ok nodes => (.ok (), { disk with nodes, journal := operation :: disk.journal })

/-- Does an operation, if nothing stands in its way. -/
def perform (disk : Disk) (operation : Operation) : Except FileFault Unit × Disk :=
  let later := { disk with hazards := disk.hazards.tail }
  match disk.hazards with
  | some hazard :: _ =>
    match hazard.instead? operation with
    | some other => later.carryOut other
    -- An operation that a hazard made fail is not repeated elsewhere, so it is not in the journal.
    | none => (.error .refused, { later with nodes := disk.spoiled hazard operation })
  | _ => later.carryOut operation

/-- Does operations one after another, up to the first that fails. -/
def performAll (disk : Disk) : List Operation → Except FileFault Unit × Disk
  | [] => (.ok (), disk)
  | operation :: rest =>
    match disk.perform operation with
    | (.ok (), disk) => disk.performAll rest
    | (.error fault, disk) => (.error fault, disk)

/-! ### Whole trees -/

/-- Whether a place lies below another. -/
def isBelow (outer inner : String) : Bool := (outer ++ "/").toList.isPrefixOf inner.toList

/-- The names in a folder, in ascending order; none if there is no such folder. -/
def list (disk : Disk) (path : Path) : List String :=
  match disk.locate? path with
  | .error _ => []
  | .ok names =>
    let outer := place names
    let inner := disk.nodes.keys.filter (isBelow outer)
    (inner.map fun key => String.ofList (key.toList.drop (outer.length + 1))).filter fun name =>
      '/' ∉ name.toList

/-- Removes what stands at a path, a folder with all that is in it. -/
def removeTree (disk : Disk) (path : Path) : Disk :=
  match disk.locate? path with
  | .error _ => disk
  | .ok names =>
    let outer := place names
    let gone := disk.nodes.keys.filter fun key => key = outer || isBelow outer key
    { disk with nodes := gone.foldl Ledger.erase disk.nodes }

/-- The operations that put a file at a path, with the folders around it. -/
def putSteps (path : Path) (content : Bytes) : List Operation :=
  path.parent?.toList.map .makeFolders ++ [.create path, .write path content]

end Disk

end DeviceScope
