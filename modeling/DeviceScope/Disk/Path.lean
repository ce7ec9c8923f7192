import DeviceScope.Text.Pieces

/-!
# Paths

A path is a text that names a file or folder: names with slashes between them, from the root of
the disk if a slash stands in front, from the working folder otherwise. A dot stands for the
folder itself, two dots for the folder around it. A path that ends in a slash or a dot can only
name a folder.
-/

namespace DeviceScope

/-- A path, taken apart. -/
structure Path where
  /-- The text as it was given. -/
  text : String
  /-- Whether it starts at the root. -/
  absolute : Bool
  /-- The names on the way, `..` among them. -/
  parts : List String
  /-- Whether it can only name a folder. -/
  closed : Bool
  deriving DecidableEq, Repr, Inhabited

namespace Path

/-- Whether a piece stands for nothing: it is empty or a dot. -/
def isIdle (piece : List Char) : Bool := piece = [] || piece = ['.']

/-- Takes a text apart. -/
def ofText (text : String) : Path :=
  let all := Pieces.ofText '/' text.toList
  ⟨text, text.toList.head? = some '/', (all.filter fun piece => !isIdle piece).map String.ofList,
    all.getLast?.all isIdle⟩

instance : Coe String Path := ⟨ofText⟩

/-- The text of a path below a folder; an absolute path stays as it is. -/
def join (folder path : String) : String :=
  if path.toList.head? = some '/' ∨ folder = "" then path
  else if folder.toList.getLast? = some '/' then folder ++ path
  else folder ++ "/" ++ path

/-- The name of the file itself, if the path ends in one. -/
def fileName? (path : Path) : Option String := path.parts.getLast?.filter (· ≠ "..")

/-- The path of the folder around it; a path of no names has none. -/
def parent? (path : Path) : Option Path :=
  if path.parts.isEmpty then none
  else some { path with parts := path.parts.dropLast, closed := true }

/-- Whether the path names the working folder itself. -/
def isHere (path : Path) : Bool := !path.absolute && path.parts.isEmpty

/-- The path of a file of another name in the same folder. -/
def withFileName (path : Path) (name : String) : Path :=
  let parts := if path.fileName?.isSome then path.parts.dropLast else path.parts
  { path with parts := parts ++ [name], closed := false }

/-- The path of the file that is written in the place of another before it replaces it. -/
def temporary (path : Path) : Path := path.withFileName (path.fileName?.getD "" ++ ".tmp")

end Path

end DeviceScope
