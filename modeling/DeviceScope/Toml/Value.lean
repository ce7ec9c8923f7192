/-!
# TOML values and tables

A document is a table, and its lines define further tables and the values in them. A table
remembers how it came to be, since that decides how it may be added to: by a header, or implied
by the header of a table inside it, or by a dotted key, or written inline and closed for good.
-/

namespace DeviceScope.Toml

/-- How a table came to be. -/
inductive Origin where
  /-- A header of its own. -/
  | header
  /-- The header of a table inside it. -/
  | implied
  /-- A key with dots. -/
  | dotted
  /-- Braces; nothing can be added. -/
  | inline
  deriving DecidableEq, Repr

/-- A value of a document. -/
inductive Value where
  | string (text : String)
  | integer (value : Int)
  /-- A floating-point number; its size is of no account here. -/
  | float
  | bool (value : Bool)
  /-- A date, a time of day, or both. -/
  | moment
  | array (items : List Value)
  | table (origin : Origin) (members : List (String × Value))
  /-- The tables of an array of tables, the last one first. -/
  | tables (elements : List (List (String × Value)))
  deriving Inhabited

/-- The members of a table, in the order of their definition. -/
abbrev Members := List (String × Value)

namespace Members

/-- Replaces the value of a key, or adds the key at the end. -/
def set (members : Members) (key : String) (value : Value) : Members :=
  match members with
  | [] => [(key, value)]
  | member :: rest =>
    if member.1 = key then (key, value) :: rest else member :: set rest key value

/-- Changes the table that a path leads to, making the tables that are missing on the way. A path
of a dotted key (`dotted`) may not enter a table that has a header of its own; a path through an
array of tables enters the last one. -/
def updateAt? (dotted : Bool) (change : Origin → Members → Option (Origin × Members)) :
    List String → Origin → Members → Option (Origin × Members)
  | [], origin, members => change origin members
  | key :: path, origin, members =>
    match members.lookup key with
    | none => do
      let made := if dotted then Origin.dotted else Origin.implied
      let (inner, sub) ← updateAt? dotted change path made []
      some (origin, members.set key (.table inner sub))
    | some (.table .inline _) => none
    | some (.table inner sub) =>
      if dotted && inner = .header then none
      else do
        let (inner, sub) ← updateAt? dotted change path inner sub
        some (origin, members.set key (.table inner sub))
    | some (.tables (last :: earlier)) => do
      let (_, last) ← updateAt? dotted change path .header last
      some (origin, members.set key (.tables (last :: earlier)))
    | some _ => none

/-- Defines a new key of a table. Under a path, the table has to be one that dotted keys made. -/
def define? (underPath : Bool) (key : String) (value : Value) (origin : Origin)
    (members : Members) : Option (Origin × Members) :=
  if underPath && origin ≠ .dotted then none
  else if (members.lookup key).isSome then none
  else some (origin, members ++ [(key, value)])

/-- Defines the key at the end of a path of keys. -/
def assign? (path : List String) (value : Value) (origin : Origin) (members : Members) :
    Option (Origin × Members) :=
  match path.getLast? with
  | none => none
  | some key => updateAt? true (define? (path.length ≠ 1) key value) path.dropLast origin members

/-- Opens the table of a header inside the table before it: a new one, or one that was only
implied so far. -/
def openTable? (key : String) (origin : Origin) (members : Members) :
    Option (Origin × Members) :=
  match members.lookup key with
  | none => some (origin, members ++ [(key, .table .header [])])
  | some (.table .implied sub) => some (origin, members.set key (.table .header sub))
  | some _ => none

/-- Opens a new table at the end of an array of tables. -/
def openElement? (key : String) (origin : Origin) (members : Members) :
    Option (Origin × Members) :=
  match members.lookup key with
  | none => some (origin, members ++ [(key, .tables [[]])])
  | some (.tables elements) => some (origin, members.set key (.tables ([] :: elements)))
  | some _ => none

/-- Opens the table, or the element of an array of tables, that a header names. -/
def header? (element : Bool) (path : List String) (members : Members) : Option Members :=
  match path.getLast? with
  | none => none
  | some key =>
    (updateAt? false (if element then openElement? key else openTable? key) path.dropLast
      .header members).map (·.2)

/-- Defines a key in the table that the last header opened. -/
def assignUnder? (table path : List String) (value : Value) (members : Members) :
    Option Members :=
  (updateAt? false (assign? path value) table .header members).map (·.2)

end Members

end DeviceScope.Toml
