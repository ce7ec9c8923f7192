/-!
# Requests to the inspector

The inspector shows and edits the file of a store while no gateway uses it. A request is one thing
that it is asked to do, together with where the store and the configuration are and in which form
the answer is wanted.
-/

namespace DeviceScope.Inspector

/-- The forms of an answer. -/
inductive Format where
  | table
  | json
  deriving DecidableEq, Repr, Inhabited

namespace Format

/-- The formats by their names. -/
def choices : List (String × Format) := [("table", .table), ("json", .json)]

def ofName? (name : String) : Option Format := choices.lookup name

end Format

/-- Which records are listed. -/
inductive Selection where
  | all
  /-- Those that hold an identity. -/
  | present
  /-- Those that say that an id is out of scope. -/
  | absent
  deriving DecidableEq, Repr, Inhabited

/-- What the inspector can be asked to do with a store. -/
inductive Command where
  /-- Lists the records. -/
  | list (selection : Selection)
  /-- Shows the record of an id. -/
  | detail (id : String)
  /-- Decides by the record alone whether an id may connect. -/
  | verify (id : String)
  /-- Counts the records. -/
  | stats
  /-- Writes down that the identities in a file are in scope. -/
  | apply (file : String)
  /-- Writes down that an id is out of scope. -/
  | remove (id : String)
  deriving DecidableEq, Repr, Inhabited

/-- What the inspector can be asked to do. -/
inductive Job where
  /-- Something with a store. -/
  | useStore (command : Command)
  /-- Checks the configuration and shows it. -/
  | checkConfig
  deriving DecidableEq, Repr, Inhabited

/-- A request to the inspector. -/
structure Request where
  job : Job
  /-- The path of the store; there is a place for it if none is given. -/
  store : Option String
  /-- The path of the configuration; the standard one holds if none is given. -/
  config : Option String
  format : Format
  deriving DecidableEq, Repr, Inhabited

/-- Named texts that the surroundings of a program hold ready for it. -/
abbrev Environment := List (String × String)

end DeviceScope.Inspector
