/-!
# Identity keys

An id names a device, or a module on a device. In the second case it is the two names with a
slash between them, and so every id with exactly one slash is taken for a module; any other id
names a device by the whole of it. `text_parse` says that nothing of an id is lost by this.
-/

namespace DeviceScope.Identity

/-- What an id names. -/
inductive Key where
  | device (name : String)
  | module (host name : String)
  deriving DecidableEq, Repr, Inhabited

namespace Key

/-- The character between the name of a device and that of its module. -/
def slash : Char := '/'

/-- What the characters of an id name. -/
def parseChars (cs : List Char) : Key :=
  match cs.dropWhile (· ≠ slash) with
  | [] => .device (String.ofList cs)
  | _ :: rest =>
    if slash ∈ rest then .device (String.ofList cs)
    else .module (String.ofList (cs.takeWhile (· ≠ slash))) (String.ofList rest)

/-- What an id names. -/
def parse (id : String) : Key := parseChars id.toList

/-- The id that names this. -/
def text : Key → String
  | .device name => name
  | .module host name => host ++ "/" ++ name

/-- The name of the device itself, or of the one that hosts the module. -/
def deviceId : Key → String
  | .device name | .module name _ => name

/-- Rendering what an id names gives the id back. -/
@[simp] theorem text_parse (id : String) : (parse id).text = id := by
  have split := List.takeWhile_append_dropWhile (p := (· ≠ slash)) (l := id.toList)
  rw [parse, parseChars]
  split
  · simp [text]
  · next d rest h =>
    split
    · simp [text]
    · have hd : d = slash := by
        have := List.head?_dropWhile_not (fun c => decide (c ≠ slash)) id.toList
        rw [h] at this
        simpa using this
      subst hd
      rw [text, ← String.toList_inj]
      simp only [String.toList_append, String.toList_ofList]
      rw [h] at split
      simpa [slash] using split

end Key

end DeviceScope.Identity
